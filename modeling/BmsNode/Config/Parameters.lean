import BmsNode.Bytes.Word
import BmsNode.Config.Table
import Mathlib.Logic.Function.Basic

/-!
# Setting and getting parameters

`configFields` are the parameter fields of `config_t` in order. Packed behind the
two header bytes they are where `parmtable` says, so that `cfg_set` and `cfg_get` for
an id write and read the bytes of its field and no others.
-/

namespace BmsNode

/-! ## The packed structure -/

/-- The types of the fields of `config_t`. -/
inductive FieldType where
  | uint8
  | int8
  | uint16
  | int16
  deriving DecidableEq, Repr

/-- `sizeof` a field type. -/
def FieldType.size : FieldType → Nat
  | .uint8 | .int8 => 1
  | .uint16 | .int16 => 2

/-- Whether values of the type have a sign. -/
def FieldType.signed : FieldType → Bool
  | .uint8 | .uint16 => false
  | .int8 | .int16 => true

/-- The parameter fields of `config_t`, from `addr` to `tempadj`. -/
def configFields : List FieldType :=
  [.uint8, .uint16, .int16, .uint16, .int16, .uint16, .int16, .uint16, .uint16, .uint16, .int8,
    .int8, .uint16]

/-- The bytes that packed fields take. -/
def packedSize : List FieldType → Nat
  | [] => 0
  | type :: rest => type.size + packedSize rest

/-- The type of the field of a parameter. -/
def parmType (id : UInt8) : FieldType := configFields.getD (id.toNat - 1) .uint8

/-- Bytes read as a number, the least significant one first. -/
def leNat : List UInt8 → Nat
  | [] => 0
  | byte :: rest => byte.toNat + 256 * leNat rest

/-- The value of a field with the given bytes. -/
def FieldType.value (type : FieldType) (bytes : List UInt8) : Int :=
  if type.signed then Int.bmod (leNat bytes) (2 ^ (8 * type.size)) else leNat bytes

/-- The field of a parameter. -/
def Parms.field (parms : Parms) (id : UInt8) : Int :=
  match id.toNat with
  | 1 => parms.addr.toNat
  | 2 => parms.vscale.toNat
  | 3 => parms.voffset.toInt
  | 4 => parms.tscale.toNat
  | 5 => parms.toffset.toInt
  | 6 => parms.xscale.toNat
  | 7 => parms.xoffset.toInt
  | 8 => parms.shuntmax.toNat
  | 9 => parms.shuntmin.toNat
  | 10 => parms.shunttime.toNat
  | 11 => parms.temphi.toInt
  | 12 => parms.templo.toInt
  | 13 => parms.tempadj.toNat
  | _ => 0

/-- `parmtable` has the place of every field: behind the header and the fields before it. -/
theorem parmtable_layout {id : UInt8} (hrange : ¬(id < 1 ∨ id > maxParmid)) :
    parmEntry id =
      { index := 2 + packedSize (configFields.take (id.toNat - 1))
        count := (parmType id).size } :=
  parmEntry_rule (P := fun id entry => entry =
    { index := 2 + packedSize (configFields.take (id - 1))
      count := (configFields.getD (id - 1) .uint8).size }) (by decide) hrange

/-- The bytes of two parameters do not overlap. -/
theorem parmtable_disjoint {id other : UInt8} (hid : ¬(id < 1 ∨ id > maxParmid))
    (hother : ¬(other < 1 ∨ other > maxParmid)) (hne : other ≠ id) :
    (parmEntry id).index + (parmEntry id).count ≤ (parmEntry other).index ∨
      (parmEntry other).index + (parmEntry other).count ≤ (parmEntry id).index := by
  have htable : ∀ i j : Fin 14, 1 ≤ i.val → 1 ≤ j.val → j.val ≠ i.val →
      (parmtable.getD i.val ⟨0, 0⟩).index + (parmtable.getD i.val ⟨0, 0⟩).count ≤
          (parmtable.getD j.val ⟨0, 0⟩).index ∨
        (parmtable.getD j.val ⟨0, 0⟩).index + (parmtable.getD j.val ⟨0, 0⟩).count ≤
          (parmtable.getD i.val ⟨0, 0⟩).index := by decide
  have hnat : other.toNat ≠ id.toNat := fun h => hne (UInt8.toNat_inj.mp h)
  exact parmEntry_rule (P := fun i entry => other.toNat ≠ i →
      entry.index + entry.count ≤ (parmEntry other).index ∨
        (parmEntry other).index + (parmEntry other).count ≤ entry.index)
    (fun i hi => parmEntry_rule (P := fun j entry => j ≠ i.val →
      (parmtable.getD i.val ⟨0, 0⟩).index + (parmtable.getD i.val ⟨0, 0⟩).count ≤ entry.index ∨
        entry.index + entry.count ≤ (parmtable.getD i.val ⟨0, 0⟩).index)
      (fun j hj => htable i j hi hj) hother) hid hnat

/-- The bytes of a parameter in a block. -/
def Config.parmBytes (cfg : Config) (id : UInt8) : List UInt8 :=
  (cfg.toList.drop (parmEntry id).index).take (parmEntry id).count

/-- One byte of a block. -/
theorem Config.take_one (cfg : Config) {i : Nat} (hi : i < 26) :
    (cfg.toList.drop i).take 1 = [cfg[i]] := by
  have hlength : i < cfg.toList.length := by simpa using hi
  rw [List.drop_eq_getElem_cons hlength]
  rfl

/-- Two bytes of a block. -/
theorem Config.take_two (cfg : Config) {i : Nat} (hi : i + 1 < 26) :
    (cfg.toList.drop i).take 2 = [cfg[i], cfg[i + 1]] := by
  have hlength : i + 1 < cfg.toList.length := by simpa using hi
  rw [List.drop_eq_getElem_cons (by omega), List.drop_eq_getElem_cons hlength]
  rfl

/-- A 16-bit field has its less significant byte first. -/
theorem toNat_le16 (lo hi : UInt8) : (le16 lo hi).toNat = leNat [lo, hi] := by
  have hlo := lo.toNat_lt
  have hhi := hi.toNat_lt
  have hor := Word.or_mul_two_pow (b := hi.toNat) 8 hlo
  rw [le16, UInt16.toNat_or, UInt16.toNat_shiftLeft, UInt8.toNat_toUInt16, UInt8.toNat_toUInt16,
    Nat.shiftLeft_eq, show (8 : UInt16).toNat % 16 = 8 from rfl, Nat.mod_eq_of_lt (by omega), hor]
  simp only [leNat]
  omega

/-- The value of an unsigned byte. -/
theorem FieldType.value_uint8 (byte : UInt8) : FieldType.uint8.value [byte] = byte.toNat := by
  simp [FieldType.value, FieldType.signed, leNat]

/-- The value of a signed byte. -/
theorem FieldType.value_int8 (byte : UInt8) :
    FieldType.int8.value [byte] = byte.toInt8.toInt := by
  have hsigned : byte.toInt8.toInt = Int.bmod byte.toNat 256 := BitVec.toInt_eq_toNat_bmod _
  simp [FieldType.value, FieldType.signed, FieldType.size, leNat, hsigned]

/-- The value of an unsigned word. -/
theorem FieldType.value_uint16 (lo hi : UInt8) :
    FieldType.uint16.value [lo, hi] = (le16 lo hi).toNat := by
  simp [FieldType.value, FieldType.signed, toNat_le16]

/-- The value of a signed word. -/
theorem FieldType.value_int16 (lo hi : UInt8) :
    FieldType.int16.value [lo, hi] = (le16 lo hi).toInt16.toInt := by
  have hsigned : (le16 lo hi).toInt16.toInt = Int.bmod (le16 lo hi).toNat 65536 :=
    BitVec.toInt_eq_toNat_bmod _
  simp [FieldType.value, FieldType.signed, FieldType.size, hsigned, toNat_le16]

/-- The field of a parameter is the value of its bytes. -/
theorem Config.field_eq (cfg : Config) {id : UInt8} (hrange : ¬(id < 1 ∨ id > maxParmid)) :
    cfg.parms.field id = (parmType id).value (cfg.parmBytes id) := by
  have hu8 (i : Nat) (hi : i < 26) :
      FieldType.uint8.value ((cfg.toList.drop i).take 1) = cfg[i].toNat := by
    rw [cfg.take_one hi, FieldType.value_uint8]
  have hi8 (i : Nat) (hi : i < 26) :
      FieldType.int8.value ((cfg.toList.drop i).take 1) = cfg[i].toInt8.toInt := by
    rw [cfg.take_one hi, FieldType.value_int8]
  have hu16 (i : Nat) (hi : i + 1 < 26) :
      FieldType.uint16.value ((cfg.toList.drop i).take 2) = (le16 cfg[i] cfg[i + 1]).toNat := by
    rw [cfg.take_two hi, FieldType.value_uint16]
  have hi16 (i : Nat) (hi : i + 1 < 26) :
      FieldType.int16.value ((cfg.toList.drop i).take 2) =
        (le16 cfg[i] cfg[i + 1]).toInt16.toInt := by
    rw [cfg.take_two hi, FieldType.value_int16]
  have htable (i : Fin 14) (hi : 1 ≤ i.val) : id.toNat = i.val →
      cfg.parms.field id = (configFields.getD (i.val - 1) .uint8).value
        ((cfg.toList.drop (parmtable.getD i.val ⟨0, 0⟩).index).take
          (parmtable.getD i.val ⟨0, 0⟩).count) := by
    intro hid
    rw [Parms.field, hid]
    match i, hi with
    | 1, _ => exact (hu8 2 (by omega)).symm
    | 2, _ => exact (hu16 3 (by omega)).symm
    | 3, _ => exact (hi16 5 (by omega)).symm
    | 4, _ => exact (hu16 7 (by omega)).symm
    | 5, _ => exact (hi16 9 (by omega)).symm
    | 6, _ => exact (hu16 11 (by omega)).symm
    | 7, _ => exact (hi16 13 (by omega)).symm
    | 8, _ => exact (hu16 15 (by omega)).symm
    | 9, _ => exact (hu16 17 (by omega)).symm
    | 10, _ => exact (hu16 19 (by omega)).symm
    | 11, _ => exact (hi8 21 (by omega)).symm
    | 12, _ => exact (hi8 22 (by omega)).symm
    | 13, _ => exact (hu16 23 (by omega)).symm
  exact parmEntry_rule (P := fun n entry => id.toNat = n → cfg.parms.field id =
    (configFields.getD (n - 1) .uint8).value ((cfg.toList.drop entry.index).take entry.count))
    htable hrange rfl

/-- Blocks with the same bytes where a parameter lies have the same parameter. -/
theorem Config.parmBytes_congr {cfg cfg' : Config} {id : UInt8}
    (hrange : ¬(id < 1 ∨ id > maxParmid))
    (h : ∀ i (hi : i < 26), (parmEntry id).index ≤ i →
      i < (parmEntry id).index + (parmEntry id).count → cfg[i] = cfg'[i]) :
    cfg.parmBytes id = cfg'.parmBytes id := by
  obtain ⟨-, hinside, hcount⟩ := parmEntry_inside hrange
  have hfirst := h (parmEntry id).index (by omega) (Nat.le_refl _) (by omega)
  rcases hcount with hone | htwo
  · rw [Config.parmBytes, Config.parmBytes, hone, cfg.take_one (by omega), cfg'.take_one (by omega),
      hfirst]
  · have hsecond := h ((parmEntry id).index + 1) (by omega) (by omega) (by omega)
    rw [Config.parmBytes, Config.parmBytes, htwo, cfg.take_two (by omega), cfg'.take_two (by omega),
      hfirst, hsecond]

/-! ## Setting -/

/-- The block with the value bytes stored, before `cfg_store` fills in header and check byte. -/
def Config.written (cfg : Config) (id low high : UInt8) : Config :=
  let cfg := cfg.set8 (parmEntry id).index low
  if (parmEntry id).count = 2 then cfg.set8 ((parmEntry id).index + 1) high else cfg

/-- The id and the length that `cfg_set` accepts. -/
def Accepted (len id : UInt8) : Prop :=
  ¬(id < 1 ∨ id > maxParmid) ∧ (parmEntry id).count + 1 = len.toNat

/-- `cfg_set` stores what it accepts, and otherwise does nothing. -/
theorem cfgSet_cases (tail : Nat → UInt8) (s : Cfg) (len id low high : UInt8) :
    (Accepted len id ∧ cfgSet tail s len #v[id, low, high] =
        (true, cfgStore tail { s with gCfgParms := s.gCfgParms.written id low high })) ∨
      (¬Accepted len id ∧ cfgSet tail s len #v[id, low, high] = (false, s)) := by
  have hset : cfgSet tail s len #v[id, low, high] =
      if id < 1 ∨ id > maxParmid then (false, s)
      else if ((parmEntry id).count : Int) ≠ (len.toNat : Int) - 1 then (false, s)
      else (true, cfgStore tail { s with gCfgParms := s.gCfgParms.written id low high }) := rfl
  rw [hset]
  by_cases hrange : id < 1 ∨ id > maxParmid
  · exact .inr ⟨fun haccepted => haccepted.1 hrange, if_pos hrange⟩
  · rw [if_neg hrange]
    by_cases hcount : (parmEntry id).count + 1 = len.toNat
    · exact .inl ⟨⟨hrange, hcount⟩, if_neg (by omega)⟩
    · exact .inr ⟨fun haccepted => hcount haccepted.2, if_pos (by omega)⟩

/-- The block that `cfg_set` stores. -/
theorem Config.getElem_written (cfg : Config) (id low high : UInt8) {i : Nat} (hi : i < 26) :
    (cfg.written id low high)[i] =
      if (parmEntry id).index + 1 = i ∧ (parmEntry id).count = 2 then high
      else if (parmEntry id).index = i then low
      else cfg[i] := by
  unfold Config.written
  by_cases htwo : (parmEntry id).count = 2
  · simp only [htwo, if_true, and_true]
    rw [Config.getElem_set8, Config.getElem_set8]
  · simp only [htwo, if_false, and_false]
    rw [Config.getElem_set8]

/-- `cfg_store` changes header and check byte only. -/
theorem committed_getElem (tail : Nat → UInt8) (cfg : Config) {i : Nat} (hlow : 2 ≤ i)
    (hhigh : i < 25) : (committed tail cfg)[i] = cfg[i] := by
  rw [committed, Config.getElem_set8, if_neg (by omega), Config.getElem_set8, if_neg (by omega),
    Config.getElem_set8, if_neg (by omega)]

/-- The bytes of a parameter after it was set. -/
theorem parmBytes_written (tail : Nat → UInt8) (cfg : Config) (id low high : UInt8)
    (hrange : ¬(id < 1 ∨ id > maxParmid)) :
    (committed tail (cfg.written id low high)).parmBytes id =
      [low, high].take (parmEntry id).count := by
  obtain ⟨hlow, hinside, hcount⟩ := parmEntry_inside hrange
  rw [Config.parmBytes]
  rcases hcount with hone | htwo
  · rw [hone, Config.take_one _ (by omega), committed_getElem tail _ hlow (by omega),
      Config.getElem_written, if_neg (by omega), if_pos rfl]
    rfl
  · rw [htwo, Config.take_two _ (by omega), committed_getElem tail _ hlow (by omega),
      committed_getElem tail _ (by omega) (by omega), Config.getElem_written, if_neg (by omega),
      if_pos rfl, Config.getElem_written, if_pos ⟨rfl, htwo⟩]
    rfl

/-- The bytes of the other parameters stay. -/
theorem parmBytes_other (tail : Nat → UInt8) (cfg : Config) (id low high : UInt8)
    (hrange : ¬(id < 1 ∨ id > maxParmid)) {other : UInt8}
    (hother : ¬(other < 1 ∨ other > maxParmid)) (hne : other ≠ id) :
    (committed tail (cfg.written id low high)).parmBytes other = cfg.parmBytes other := by
  obtain ⟨hlow, hinside, -⟩ := parmEntry_inside hother
  obtain ⟨-, -, hcount⟩ := parmEntry_inside hrange
  have hapart := parmtable_disjoint hrange hother hne
  apply Config.parmBytes_congr hother
  intro i hi hfrom hto
  rw [committed_getElem tail _ (by omega) (by omega), Config.getElem_written, if_neg (by omega),
    if_neg (by omega)]

/-! ## Getting -/

/-- `cfg_get` on the memory at `p_buf`: the value returned, and the stores with their offsets. -/
def cfgGetBuf (s : Cfg) (len : UInt8) (pBuf : Nat → UInt8) : UInt8 × List (Nat × UInt8) :=
  let id := pBuf 0
  if id < 1 ∨ id > maxParmid then (0, [])
  else if (parmEntry id).count ≥ len.toNat then (0, [])
  else
    let cnt := (parmEntry id).count
    let idx := (parmEntry id).index
    let first := (1, (s.gCfgParms[idx]?).getD 0)
    let stores := if cnt = 2 then [first, (2, (s.gCfgParms[idx + 1]?).getD 0)] else [first]
    (UInt8.ofNat (cnt + 1), stores)

/-- Memory after some stores. -/
def poke (memory : Nat → UInt8) (stores : List (Nat × UInt8)) : Nat → UInt8 :=
  stores.foldl (fun memory store => Function.update memory store.1 store.2) memory

/-- The id and the buffer length that `cfg_get` accepts. -/
def Readable (len id : UInt8) : Prop :=
  ¬(id < 1 ∨ id > maxParmid) ∧ (parmEntry id).count < len.toNat

/-- `cfg_get` stores the bytes of the parameter behind the id, and returns how many bytes that makes
with the id; or it does nothing and returns zero. -/
theorem cfgGetBuf_cases (s : Cfg) (len : UInt8) (pBuf : Nat → UInt8) :
    (Readable len (pBuf 0) ∧ cfgGetBuf s len pBuf =
        (UInt8.ofNat ((parmEntry (pBuf 0)).count + 1),
          [1, 2].zip (s.gCfgParms.parmBytes (pBuf 0)))) ∨
      (¬Readable len (pBuf 0) ∧ cfgGetBuf s len pBuf = (0, [])) := by
  by_cases hrange : pBuf 0 < 1 ∨ pBuf 0 > maxParmid
  · exact .inr ⟨fun hreadable => hreadable.1 hrange, if_pos hrange⟩
  · by_cases hroom : (parmEntry (pBuf 0)).count < len.toNat
    · refine .inl ⟨⟨hrange, hroom⟩, ?_⟩
      obtain ⟨-, hinside, hcount⟩ := parmEntry_inside hrange
      simp only [cfgGetBuf, if_neg hrange]
      rw [if_neg (by omega)]
      rcases hcount with hone | htwo
      · rw [Config.parmBytes, hone, Config.take_one _ (by omega)]
        simp [Vector.getElem?_eq_getElem (show (parmEntry (pBuf 0)).index < 26 by omega)]
      · rw [Config.parmBytes, htwo, Config.take_two _ (by omega)]
        simp [Vector.getElem?_eq_getElem (show (parmEntry (pBuf 0)).index < 26 by omega),
          Vector.getElem?_eq_getElem (show (parmEntry (pBuf 0)).index + 1 < 26 by omega)]
    · refine .inr ⟨fun hreadable => hroom hreadable.2, ?_⟩
      simp only [cfgGetBuf, if_neg hrange]
      exact if_pos (by omega)

/-- `cfg_get` on memory stores what `cfgGet` says, behind the id. -/
theorem cfgGetBuf_eq (s : Cfg) (len : UInt8) (pBuf : Nat → UInt8) :
    cfgGetBuf s len pBuf =
      ((cfgGet s len (pBuf 0)).1, [1, 2].zip (cfgGet s len (pBuf 0)).2) := by
  rcases cfgGetBuf_cases s len pBuf with ⟨⟨hrange, hroom⟩, hget⟩ | ⟨hnot, hget⟩
  · obtain ⟨-, -, hcount⟩ := parmEntry_inside hrange
    rw [hget]
    simp only [cfgGet, if_neg hrange]
    rw [if_neg (by omega)]
    rcases hcount with hone | htwo
    · simp [Config.parmBytes, hone]
    · simp [Config.parmBytes, htwo]
  · rw [hget]
    by_cases hrange : pBuf 0 < 1 ∨ pBuf 0 > maxParmid
    · rw [cfgGet, if_pos hrange]
      rfl
    · have hroom : ¬(parmEntry (pBuf 0)).count < len.toNat := fun hroom => hnot ⟨hrange, hroom⟩
      simp only [cfgGet, if_neg hrange]
      rw [if_pos (by omega)]
      rfl

/-- The buffer after `cfg_get`: the id and the bytes of the parameter. -/
theorem poke_zip (memory : Nat → UInt8) (bytes : List UInt8) (hlength : bytes.length ≤ 2) {i : Nat}
    (hi : i < bytes.length + 1) :
    (memory 0 :: bytes)[i]? = some (poke memory ([1, 2].zip bytes) i) := by
  rcases bytes with _ | ⟨first, _ | ⟨second, _ | ⟨third, rest⟩⟩⟩
  · obtain rfl : i = 0 := by simpa using hi
    rfl
  · simp only [List.length_cons, List.length_nil] at hi
    match i, hi with
    | 0, _ | 1, _ => simp [poke]
  · simp only [List.length_cons, List.length_nil] at hi
    match i, hi with
    | 0, _ | 1, _ | 2, _ => simp [poke]
  · simp at hlength

/-- A parameter has the bytes its field has. -/
theorem length_parmBytes (cfg : Config) {id : UInt8} (hrange : ¬(id < 1 ∨ id > maxParmid)) :
    (cfg.parmBytes id).length = (parmEntry id).count := by
  obtain ⟨-, hinside, -⟩ := parmEntry_inside hrange
  simp [Config.parmBytes]
  omega

/-- What `cfg_get` returns when it accepts. -/
theorem toNat_count_add_one {id : UInt8} (hrange : ¬(id < 1 ∨ id > maxParmid)) :
    (UInt8.ofNat ((parmEntry id).count + 1)).toNat = (parmEntry id).count + 1 := by
  obtain ⟨-, -, hcount⟩ := parmEntry_inside hrange
  rw [UInt8.toNat_ofNat']
  omega

/-- `cfg_get` after an accepted `cfg_set` returns the id and the value bytes that were set. -/
theorem cfgGetBuf_written (tail : Nat → UInt8) (s : Cfg) {len id low high : UInt8}
    (h : Accepted len id) {room : UInt8} {pBuf : Nat → UInt8} (hid : pBuf 0 = id)
    (hroom : len ≤ room) :
    let get := cfgGetBuf (cfgStore tail { s with gCfgParms := s.gCfgParms.written id low high }) room pBuf
    get.1 = len ∧ ∀ i, i < len.toNat → [id, low, high][i]? = some (poke pBuf get.2 i) := by
  obtain ⟨hrange, hlen⟩ := h
  obtain ⟨-, -, hcount⟩ := parmEntry_inside hrange
  have hle := UInt8.le_iff_toNat_le.mp hroom
  intro get
  have hget : get = (UInt8.ofNat ((parmEntry id).count + 1),
      [1, 2].zip ([low, high].take (parmEntry id).count)) := by
    rcases cfgGetBuf_cases (cfgStore tail { s with gCfgParms := s.gCfgParms.written id low high }) room
      pBuf with ⟨-, hget⟩ | ⟨hnot, -⟩
    · rw [hid] at hget
      exact hget.trans (by rw [cfgStore_eq, parmBytes_written tail s.gCfgParms id low high hrange])
    · rw [hid] at hnot
      exact absurd ⟨hrange, by omega⟩ hnot
  rw [hget]
  refine ⟨?_, fun i hlt => ?_⟩
  · rw [← UInt8.toNat_inj, toNat_count_add_one hrange, hlen]
  · have hlength : ([low, high].take (parmEntry id).count).length = (parmEntry id).count := by
      simp
      omega
    have hpoke := poke_zip pBuf ([low, high].take (parmEntry id).count) (by omega) (i := i)
      (by omega)
    rwa [hid, ← List.take_succ_cons, List.getElem?_take_of_lt (by omega)] at hpoke

/-- Setting what `cfg_get` returned stores the bytes that are there. -/
theorem written_parmBytes (cfg : Config) (id low high : UInt8)
    (hrange : ¬(id < 1 ∨ id > maxParmid))
    (hfirst : (id :: cfg.parmBytes id)[1]? = some low)
    (hsecond : (parmEntry id).count = 2 →
      (id :: cfg.parmBytes id)[2]? = some high) :
    cfg.written id low high = cfg := by
  obtain ⟨-, hinside, hcount⟩ := parmEntry_inside hrange
  apply Vector.ext
  intro i hi
  rw [Config.getElem_written]
  split_ifs with hnext hindex
  · obtain ⟨hindex, htwo⟩ := hnext
    have hbyte := hsecond htwo
    rw [Config.parmBytes, htwo, Config.take_two _ (by omega)] at hbyte
    exact (Option.some.inj hbyte).symm.trans (getElem_congr_idx hindex)
  · rcases hcount with hone | htwo
    · rw [Config.parmBytes, hone, Config.take_one _ (by omega)] at hfirst
      exact (Option.some.inj hfirst).symm.trans (getElem_congr_idx hindex)
    · rw [Config.parmBytes, htwo, Config.take_two _ (by omega)] at hfirst
      exact (Option.some.inj hfirst).symm.trans (getElem_congr_idx hindex)
  · rfl

/-- Setting what `cfg_get` just returned changes no parameter. -/
theorem cfgSet_cfgGetBuf (tail : Nat → UInt8) (s : Cfg) (room : UInt8) (pBuf : Nat → UInt8) :
    let get := cfgGetBuf s room pBuf
    let buf := poke pBuf get.2
    (cfgSet tail s get.1 #v[buf 0, buf 1, buf 2]).2.gCfgParms.parms = s.gCfgParms.parms := by
  intro get buf
  rcases cfgSet_cases tail s get.1 (buf 0) (buf 1) (buf 2) with ⟨⟨hrange, hlen⟩, hset⟩ | ⟨-, hset⟩
  · rw [hset, cfgStore_eq]
    dsimp only
    rw [(committed_spec tail _).2]
    rcases cfgGetBuf_cases s room pBuf with ⟨⟨hrange', -⟩, hget⟩ | ⟨-, hget⟩
    · have hlength := length_parmBytes s.gCfgParms hrange'
      obtain ⟨-, -, hcount⟩ := parmEntry_inside hrange'
      have hpoke (i : Nat) (hi : i < (parmEntry (pBuf 0)).count + 1) :
          (pBuf 0 :: s.gCfgParms.parmBytes (pBuf 0))[i]? = some (buf i) := by
        have h := poke_zip pBuf (s.gCfgParms.parmBytes (pBuf 0)) (by omega) (i := i)
          (by omega)
        rw [h]
        show _ = some (poke pBuf get.2 i)
        rw [show get = _ from hget]
      have hid : pBuf 0 = buf 0 := Option.some.inj (hpoke 0 (by omega))
      rw [hid] at hpoke hcount
      rw [written_parmBytes s.gCfgParms (buf 0) (buf 1) (buf 2) hrange
        (hpoke 1 (by omega)) (fun htwo => hpoke 2 (Nat.lt_succ_of_le (Nat.le_of_eq htwo.symm)))]
    · rw [show get = _ from hget] at hlen
      simp at hlen
  · rw [hset]

/-! ## The laws -/

/-- The ids of the parameters. -/
def ParmId (id : UInt8) : Prop := 1 ≤ id ∧ id ≤ 13

/-- `cfg_set` and `cfg_get` reject the ids of no parameter. -/
theorem parmId_iff (id : UInt8) : ¬(id < 1 ∨ id > maxParmid) ↔ ParmId id := by
  rw [not_or, gt_iff_lt, UInt8.not_lt, UInt8.not_lt]
  rfl

/-- The size of a parameter in `parmtable` is that of its field. -/
theorem parmEntry_count {id : UInt8} (hrange : ¬(id < 1 ∨ id > maxParmid)) :
    (parmEntry id).count = (parmType id).size := by
  rw [parmtable_layout hrange]

/-- What `cfg_set` accepts, in terms of the field. -/
theorem accepted_iff (len id : UInt8) :
    Accepted len id ↔ ParmId id ∧ (len.toNat : Int) - 1 = (parmType id).size := by
  rw [Accepted, ← parmId_iff]
  refine and_congr_right fun hrange => ?_
  rw [parmEntry_count hrange]
  omega

/-- What `cfg_get` returns zero for, in terms of the field, and where it stores. -/
theorem cfgGetBuf_zero_iff (s : Cfg) (room : UInt8) (pBuf : Nat → UInt8) :
    ((cfgGetBuf s room pBuf).1 = 0 ↔
        ¬ParmId (pBuf 0) ∨ room.toNat ≤ (parmType (pBuf 0)).size) ∧
      ∀ store ∈ (cfgGetBuf s room pBuf).2, store.1 < room.toNat := by
  rcases cfgGetBuf_cases s room pBuf with ⟨⟨hrange, hroom⟩, hget⟩ | ⟨hnot, hget⟩
  · have hreturned := toNat_count_add_one hrange
    have hlength := length_parmBytes s.gCfgParms hrange
    obtain ⟨-, -, hcount⟩ := parmEntry_inside hrange
    have hsize := parmEntry_count hrange
    rw [hget]
    refine ⟨iff_of_false (fun hzero => ?_) (fun hor => ?_), fun store hstore => ?_⟩
    · rw [show UInt8.ofNat ((parmEntry (pBuf 0)).count + 1) = 0 from hzero] at hreturned
      simp at hreturned
    · rw [← parmId_iff] at hor
      rcases hor with hout | hfull
      · exact hout hrange
      · omega
    · obtain ⟨hoffset, -⟩ := List.of_mem_zip hstore
      rcases hcount with hone | htwo
      · rw [hone] at hlength hroom
        obtain ⟨byte, hbytes⟩ := List.length_eq_one_iff.mp hlength
        rw [hbytes] at hstore
        simp at hstore
        simp [hstore]
        exact hroom
      · rw [htwo] at hroom
        simp at hoffset
        omega
  · rw [hget]
    refine ⟨iff_of_true rfl ?_, fun store hstore => by simp at hstore⟩
    rw [← parmId_iff]
    by_cases hrange : pBuf 0 < 1 ∨ pBuf 0 > maxParmid
    · exact .inl (not_not_intro hrange)
    · have hsize := parmEntry_count hrange
      have hroom : ¬(parmEntry (pBuf 0)).count < room.toNat := fun hroom => hnot ⟨hrange, hroom⟩
      exact .inr (by omega)

/-- The laws of `cfg_set` and `cfg_get`, for every configuration, the payload bytes they read and
every length. The laws of `cfg_get` are about its stores; the commands use `cfgGet`, which has the
same result and the bytes of these stores. -/
theorem cfgSet_cfgGet_laws (tail : Nat → UInt8) (s : Cfg) (len id low high : UInt8) :
    let set := cfgSet tail s len #v[id, low, high]
    (set.1 = true ↔ ParmId id ∧ (len.toNat : Int) - 1 = (parmType id).size) ∧
      (set.1 = false → set.2 = s) ∧
      (set.1 = true →
        set.2.gCfgParms.parms.field id =
            (parmType id).value ([low, high].take (parmType id).size) ∧
          (∀ other, ParmId other → other ≠ id →
            set.2.gCfgParms.parms.field other = s.gCfgParms.parms.field other) ∧
          ∀ room pBuf, pBuf 0 = id → len ≤ room →
            let get := cfgGetBuf set.2 room pBuf
            get.1 = len ∧ ∀ i, i < len.toNat → [id, low, high][i]? = some (poke pBuf get.2 i)) ∧
      (∀ room pBuf,
        let get := cfgGetBuf s room pBuf
        let buf := poke pBuf get.2
        (get.1 = 0 ↔ ¬ParmId (pBuf 0) ∨ room.toNat ≤ (parmType (pBuf 0)).size) ∧
          (∀ store ∈ get.2, store.1 < room.toNat) ∧
          (cfgSet tail s get.1 #v[buf 0, buf 1, buf 2]).2.gCfgParms.parms =
            s.gCfgParms.parms) ∧
      ∀ (s' : Cfg) room pBuf, cfgGetBuf s' room pBuf =
        ((cfgGet s' room (pBuf 0)).1, [1, 2].zip (cfgGet s' room (pBuf 0)).2) := by
  intro set
  rw [← accepted_iff]
  have hlast (room : UInt8) (pBuf : Nat → UInt8) :=
    and_assoc.mp ⟨cfgGetBuf_zero_iff s room pBuf, cfgSet_cfgGetBuf tail s room pBuf⟩
  rcases cfgSet_cases tail s len id low high with ⟨haccepted, hset⟩ | ⟨hnot, hset⟩
  · have hrange := haccepted.1
    rw [show set = _ from hset]
    refine ⟨iff_of_true rfl haccepted, fun hfalse => by simp at hfalse, fun _ => ⟨?_, ?_, ?_⟩,
      hlast, cfgGetBuf_eq⟩
    · rw [Config.field_eq _ hrange, cfgStore_eq, parmBytes_written tail s.gCfgParms id low high hrange,
        parmEntry_count hrange]
    · intro other hid hne
      have hother := (parmId_iff other).mpr hid
      rw [Config.field_eq _ hother, Config.field_eq _ hother, cfgStore_eq,
        parmBytes_other tail s.gCfgParms id low high hrange hother hne]
    · intro room pBuf hid hroom
      exact cfgGetBuf_written tail s haccepted hid hroom
  · rw [show set = _ from hset]
    exact ⟨iff_of_false Bool.false_ne_true hnot, fun _ => rfl, fun htrue => by simp at htrue, hlast,
      cfgGetBuf_eq⟩

end BmsNode
