import BmsNode.Config.Parameters

/-!
# The configuration as a set of registers

What the configuration module is for: thirteen registers, one for each parameter id,
that hold numbers. The packed block, its check byte and the EEPROM behind it are how it
is done. `Registers` is the abstract module, and the calls of `cfg.c` do to the
registers of a configuration what the operations on `Registers` say.
-/

namespace BmsNode

/-! ## Values as bytes -/

/-- The bytes of a value of a field type, the least significant one first. -/
def FieldType.encode (type : FieldType) (value : Int) : List UInt8 :=
  let low := (value % ((2 ^ (8 * type.size) : Nat) : Int)).toNat
  if type.size = 1 then [UInt8.ofNat low] else [UInt8.ofNat (low % 256), UInt8.ofNat (low / 256)]

/-- The remainder of a value is the number its bytes make. -/
theorem FieldType.value_emod (type : FieldType) {bytes : List UInt8}
    (hlength : bytes.length = type.size) :
    (type.value bytes % ((2 ^ (8 * type.size) : Nat) : Int)).toNat = leNat bytes := by
  have hsmall : leNat bytes < 2 ^ (8 * type.size) := by
    match bytes, type, hlength with
    | [b0], .uint8, _ | [b0], .int8, _ =>
        have h0 := b0.toNat_lt
        simp only [leNat, FieldType.size]
        omega
    | [b0, b1], .uint16, _ | [b0, b1], .int16, _ =>
        have h0 := b0.toNat_lt
        have h1 := b1.toNat_lt
        simp only [leNat, FieldType.size]
        omega
  have hmod : type.value bytes % ((2 ^ (8 * type.size) : Nat) : Int) =
      (leNat bytes : Int) % ((2 ^ (8 * type.size) : Nat) : Int) := by
    rw [FieldType.value]
    split_ifs
    · exact Int.bmod_emod
    · rfl
  rw [hmod, ← Int.natCast_emod, Nat.mod_eq_of_lt hsmall, Int.toNat_natCast]

/-- Encoding the value of some bytes gives the bytes back. -/
theorem FieldType.encode_value (type : FieldType) {bytes : List UInt8}
    (hlength : bytes.length = type.size) : type.encode (type.value bytes) = bytes := by
  rw [FieldType.encode, type.value_emod hlength]
  match bytes, type, hlength with
  | [b0], .uint8, _ | [b0], .int8, _ => simp [FieldType.size, leNat]
  | [b0, b1], .uint16, _ | [b0, b1], .int16, _ =>
      have h0 := b0.toNat_lt
      have hfirst : (b0.toNat + 256 * b1.toNat) % 256 = b0.toNat := by omega
      have hsecond : (b0.toNat + 256 * b1.toNat) / 256 = b1.toNat := by omega
      simp [FieldType.size, leNat, hfirst, hsecond]

/-! ## The registers -/

/-- Whether there is a parameter with an id can be checked. -/
instance decidableParmId (id : UInt8) : Decidable (ParmId id) :=
  inferInstanceAs (Decidable (_ ∧ _))

/-- The values of the parameters by their ids. -/
abbrev Registers := UInt8 → Int

namespace Registers

/-- The defaults. -/
def factory : Registers := defaultParms.field

/-- The bus address. -/
def nodeid (r : Registers) : UInt8 := UInt8.ofNat (r 1).toNat

/-- Write a register, if there is one with this id and the value has its size. `len` counts the id
byte and the bytes of the value. -/
def write (r : Registers) (len id low high : UInt8) : Registers :=
  if ParmId id ∧ len.toNat = (parmType id).size + 1 then
    Function.update r id ((parmType id).value ([low, high].take (parmType id).size))
  else r

/-- Read a register: its bytes, none if there is no register with this id. -/
def read (r : Registers) (id : UInt8) : List UInt8 :=
  if ParmId id then (parmType id).encode (r id) else []

end Registers

/-- The registers a configuration holds. -/
def Config.registers (cfg : Config) : Registers := cfg.parms.field

/-- The address register is the address field. -/
theorem Config.registers_nodeid (cfg : Config) : cfg.registers.nodeid = cfg.addr := by
  have hfield : cfg.registers 1 = cfg.addr.toNat := rfl
  rw [Registers.nodeid, hfield, Int.toNat_natCast, UInt8.ofNat_toNat]

/-- Writing the address register of a node. -/
theorem Registers.write_addr (r : Registers) (addr high : UInt8) :
    r.write 2 1 addr high = Function.update r 1 (addr.toNat : Int) := by
  rw [Registers.write, if_pos (by decide)]
  exact congrArg (Function.update r 1) (FieldType.value_uint8 addr)

/-- There is no register without a parameter. -/
theorem Parms.field_outside (parms : Parms) {id : UInt8} (hid : ¬ParmId id) :
    parms.field id = 0 := by
  have hrange : ¬(1 ≤ id.toNat ∧ id.toNat ≤ 13) := fun h =>
    hid ⟨UInt8.le_iff_toNat_le.mpr h.1, UInt8.le_iff_toNat_le.mpr h.2⟩
  rw [Parms.field]
  split
  all_goals first | rfl | omega

/-! ## What the calls of `cfg.c` do to the registers -/

/-- Storing a block in the EEPROM changes no register. -/
theorem cfgStore_registers (tail : Nat → UInt8) (s : Cfg) :
    (cfgStore tail s).gCfgParms.registers = s.gCfgParms.registers := by
  rw [cfgStore_eq, Config.registers, (committed_spec tail s.gCfgParms).2]
  rfl

/-- The registers after the bytes of a parameter were stored. -/
theorem registers_written (tail : Nat → UInt8) (cfg : Config) {id : UInt8} (low high : UInt8)
    (hid : ParmId id) :
    (committed tail (cfg.written id low high)).registers =
      Function.update cfg.registers id
        ((parmType id).value ([low, high].take (parmType id).size)) := by
  have hrange := (parmId_iff id).mpr hid
  funext other
  by_cases hsame : other = id
  · rw [hsame, Function.update_self, Config.registers, Config.field_eq _ hrange,
      parmBytes_written tail cfg id low high hrange, parmEntry_count hrange]
  · rw [Function.update_of_ne hsame, Config.registers, Config.registers]
    by_cases hother : ParmId other
    · have hotherRange := (parmId_iff other).mpr hother
      rw [Config.field_eq _ hotherRange, Config.field_eq _ hotherRange,
        parmBytes_other tail cfg id low high hrange hotherRange hsame]
    · rw [Parms.field_outside _ hother, Parms.field_outside _ hother]

/-- `cfg_set` writes a register. -/
theorem cfgSet_registers (tail : Nat → UInt8) (s : Cfg) (len id low high : UInt8) :
    (cfgSet tail s len #v[id, low, high]).2.gCfgParms.registers =
      s.gCfgParms.registers.write len id low high := by
  rw [Registers.write]
  rcases cfgSet_cases tail s len id low high with ⟨haccepted, hset⟩ | ⟨hnot, hset⟩
  · obtain ⟨hid, hlen⟩ := (accepted_iff len id).mp haccepted
    rw [hset, if_pos ⟨hid, by omega⟩, cfgStore_eq]
    exact registers_written tail s.gCfgParms low high hid
  · rw [hset, if_neg]
    rintro ⟨hid, hlen⟩
    exact hnot ((accepted_iff len id).mpr ⟨hid, by omega⟩)

/-- `cfg_get` reads a register, into a buffer as large as the one of `cmd_getparm`. -/
theorem cfgGet_registers (s : Cfg) (id : UInt8) :
    (cfgGet s 12 id).2 = s.gCfgParms.registers.read id := by
  by_cases hid : ParmId id
  · have hrange := (parmId_iff id).mpr hid
    obtain ⟨-, -, hcount⟩ := parmEntry_inside hrange
    have hroom : ¬(parmEntry id).count ≥ (12 : UInt8).toNat := by
      show ¬12 ≤ _
      omega
    have hvalue : (cfgGet s 12 id).2 = s.gCfgParms.parmBytes id := by
      rw [cfgGet, if_neg hrange, if_neg hroom, Config.parmBytes]
      rcases hcount with hone | htwo
      · simp [hone]
      · simp [htwo]
    have hlength : (s.gCfgParms.parmBytes id).length = (parmType id).size := by
      rw [length_parmBytes _ hrange, parmEntry_count hrange]
    rw [hvalue, Registers.read, if_pos hid, Config.registers, Config.field_eq _ hrange,
      FieldType.encode_value _ hlength]
  · have hrange : id < 1 ∨ id > maxParmid := by
      by_contra hcontra
      exact hid ((parmId_iff id).mp hcontra)
    rw [cfgGet, if_pos hrange, Registers.read, if_neg hid]

/-- `cfg_reset` gives every register its default. -/
theorem cfgReset_registers (tail : Nat → UInt8) (s : Cfg) :
    (cfgReset tail s).gCfgParms.registers = Registers.factory := by
  rw [Config.registers, (cfgReset_spec tail s).2, Registers.factory]

/-- The registers an EEPROM image stands for. -/
def Config.storedRegisters (cfg : Config) : Registers := cfg.stored.field

/-- `cfg_load` fills the registers from the EEPROM. -/
theorem cfgLoad_registers (tail : Nat → UInt8) (s : Cfg) :
    (cfgLoad tail s).2.gCfgParms.registers = s.eeprom.storedRegisters := by
  rw [Config.registers, (cfgLoad_spec tail s).1, Config.storedRegisters]

/-- In a durable configuration the EEPROM stands for the registers. -/
theorem Durable.storedRegisters {s : Cfg} (h : Durable s) :
    s.eeprom.storedRegisters = s.gCfgParms.registers := by
  rw [Config.storedRegisters, ← h, Config.registers]

end BmsNode
