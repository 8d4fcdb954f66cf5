import BmsNode.Bytes.Prefix
import BmsNode.Firmware.Cfg
import BmsNode.Transition.Run

/-!
# Durability of the configuration

`Config.stored` is the meaning of an EEPROM image: the parameters in it when it is
valid, and the defaults otherwise. `cfg_load` puts that meaning into RAM, and every
other operation keeps RAM and EEPROM in agreement, so a power cycle changes no
parameter.
-/

namespace BmsNode

open Transition

/-! ## The configuration block -/

/-- A stored byte is read back, and every other byte stays. -/
theorem Config.getElem_set8 (cfg : Config) (idx : Nat) (value : UInt8) {i : Nat} (hi : i < 26) :
    (cfg.set8 idx value)[i] = if idx = i then value else cfg[i] := by
  simp [Config.set8, Vector.getElem_setIfInBounds]

/-- Two blocks have the same bytes from the first parameter up to an index. -/
def Config.SameTo (k : Nat) (cfg cfg' : Config) : Prop :=
  ∀ i (hi : i < 26), 2 ≤ i → i < k → cfg[i] = cfg'[i]

/-- A byte stored at the index in both is the same from there on. -/
theorem Config.SameTo.set8 {k : Nat} {cfg cfg' : Config} (h : Config.SameTo k cfg cfg')
    (value : UInt8) : Config.SameTo (k + 1) (cfg.set8 k value) (cfg'.set8 k value) := by
  intro i hi hlow hhigh
  rw [cfg.getElem_set8 k value hi, cfg'.getElem_set8 k value hi]
  by_cases hik : k = i
  · rw [if_pos hik, if_pos hik]
  · rw [if_neg hik, if_neg hik]
    exact h i hi hlow (by omega)

/-- Two bytes stored at the index in both are the same from there on. -/
theorem Config.SameTo.set16 {k : Nat} {cfg cfg' : Config} (h : Config.SameTo k cfg cfg')
    (value : UInt16) : Config.SameTo (k + 2) (cfg.set16 k value) (cfg'.set16 k value) :=
  (h.set8 _).set8 _

/-- The parameters are bytes 2 to 24 of the block. -/
theorem Config.SameTo.parms {cfg cfg' : Config} (h : Config.SameTo 25 cfg cfg') :
    cfg.parms = cfg'.parms := by
  have hbyte (i : Nat) (hi : i < 26) (hlow : 2 ≤ i) (hhigh : i < 25) : cfg[i] = cfg'[i] :=
    h i hi hlow hhigh
  simp only [Config.parms, Config.addr, Config.vscale, Config.voffset, Config.tscale,
    Config.toffset, Config.xscale, Config.xoffset, Config.shuntmax, Config.shuntmin,
    Config.shunttime, Config.temphi, Config.templo, Config.tempadj]
  simp [hbyte]

/-- Header and check byte are no parameters. -/
theorem Config.parms_set8 (cfg : Config) {idx : Nat} (value : UInt8) (hidx : idx < 2 ∨ idx = 25) :
    (cfg.set8 idx value).parms = cfg.parms := by
  apply Config.SameTo.parms
  intro i hi hlow hhigh
  rw [cfg.getElem_set8 idx value hi, if_neg (by omega)]

/-- The default values of the parameters. -/
def defaultParms : Parms :=
  { addr := 0, vscale := 4400, voffset := 0, tscale := 0, toffset := 0, xscale := 0, xoffset := 0
    shuntmax := 4100, shuntmin := 4000, shunttime := 300, temphi := 50, templo := 40
    tempadj := 0 }

/-- The defaults overwrite every parameter, whatever the block held. -/
theorem cfgDefaults_parms (cfg : Config) : (cfgDefaults cfg).parms = defaultParms := by
  have hstart : Config.SameTo 2 cfg (Vector.replicate 26 0) := fun i _ hlow hhigh => by omega
  have hvolts := (((hstart.set8 0).set16 4400).set16 0).set16 0
  have hsensors := (((hvolts.set16 0).set16 0).set16 0).set16 4100
  have hall := ((((hsensors.set16 4000).set16 300).set8 50).set8 40).set16 0
  calc (cfgDefaults cfg).parms = (cfgDefaults (Vector.replicate 26 0)).parms := hall.parms
    _ = defaultParms := by decide +kernel

/-! ## The meaning of an EEPROM image -/

/-- Type, length and check byte of a block are as `cfg_load` demands. -/
def Config.Valid (cfg : Config) : Prop :=
  cfg.type = cfgType2 ∧ cfg.len = cfgSize ∧ crc8 (cfg.toList.take 25) = cfg.crc

instance (cfg : Config) : Decidable cfg.Valid := inferInstanceAs (Decidable (_ ∧ _ ∧ _))

/-- The parameters an EEPROM image stands for. -/
def Config.stored (cfg : Config) : Parms := if cfg.Valid then cfg.parms else defaultParms

/-- With the right length byte the CRC covers the block up to its check byte, and no other memory.
-/
theorem cfgComputeCrc_sized (tail : Nat → UInt8) {cfg : Config} (h : cfg.len = cfgSize) :
    cfgComputeCrc tail cfg = crc8 (cfg.toList.take 25) := by
  have hbytes : (List.range 25).map (cfgByte tail cfg) = cfg.toList.take 25 := by
    apply List.ext_getElem
    · simp
    · intro i hi _
      have hlt : i < 26 := by
        simp at hi
        omega
      simp [cfgByte, hlt]
  rw [cfgComputeCrc, h, crc8, ← hbytes, List.foldl_map]
  rfl

/-- `cfg_load` accepts exactly the valid blocks. -/
theorem cfgLoad_check (tail : Nat → UInt8) (cfg : Config) :
    (cfg.type = cfgType2 ∧ cfg.len = cfgSize ∧ cfgComputeCrc tail cfg = cfg.crc) ↔ cfg.Valid := by
  constructor
  · rintro ⟨htype, hlen, hcrc⟩
    exact ⟨htype, hlen, by rw [← cfgComputeCrc_sized tail hlen, hcrc]⟩
  · rintro ⟨htype, hlen, hcrc⟩
    exact ⟨htype, hlen, by rw [cfgComputeCrc_sized tail hlen, hcrc]⟩

/-- `cfg_load` reads the parameters the EEPROM stands for, and leaves the EEPROM alone. -/
theorem cfgLoad_spec (tail : Nat → UInt8) (s : Cfg) :
    (cfgLoad tail s).2.gCfgParms.parms = s.eeprom.stored ∧
      (cfgLoad tail s).2.eeprom = s.eeprom := by
  simp only [cfgLoad, cfgLoad_check, Config.stored]
  split_ifs
  · exact ⟨rfl, rfl⟩
  · exact ⟨cfgDefaults_parms s.eeprom, rfl⟩

/-- The block `cfg_commit` writes, before a reset spoils its check byte. -/
def committed (tail : Nat → UInt8) (cfg : Config) : Config :=
  let cfg := (cfg.set8 0 cfgSize).set8 1 cfgType2
  cfg.set8 25 (cfgComputeCrc tail cfg)

/-- A committed block is valid and holds the parameters it was made from. -/
theorem committed_spec (tail : Nat → UInt8) (cfg : Config) :
    (committed tail cfg).Valid ∧ (committed tail cfg).parms = cfg.parms := by
  have hlen : ((cfg.set8 0 cfgSize).set8 1 cfgType2).len = cfgSize := by
    simp [Config.len, Config.getElem_set8]
  refine ⟨⟨?_, ?_, ?_⟩, ?_⟩
  · simp [committed, Config.type, Config.getElem_set8]
  · simp [committed, Config.len, Config.getElem_set8]
  · rw [committed, cfgComputeCrc_sized tail hlen]
    have htake := BufferPrefix.take_set_of_le ((cfg.set8 0 cfgSize).set8 1 cfgType2)
      (crc8 (((cfg.set8 0 cfgSize).set8 1 cfgType2).toList.take 25)) (Nat.le_refl 25)
    rw [Config.set8, htake]
    simp [Config.crc]
  · rw [committed, Config.parms_set8 _ _ (.inr rfl), Config.parms_set8 _ _ (.inl (by omega)),
      Config.parms_set8 _ _ (.inl (by omega))]

/-- `cfg_store` writes the committed block to RAM and EEPROM. -/
theorem cfgStore_eq (tail : Nat → UInt8) (s : Cfg) :
    cfgStore tail s =
      { gCfgParms := committed tail s.gCfgParms, eeprom := committed tail s.gCfgParms } := rfl

/-- A block with an inverted check byte is not valid. -/
theorem not_valid_inverted {cfg : Config} (h : cfg.Valid) : ¬(cfg.set8 25 (~~~cfg.crc)).Valid := by
  rintro ⟨-, -, hcrc⟩
  have htake := BufferPrefix.take_set_of_le cfg (~~~cfg.crc) (Nat.le_refl 25)
  rw [Config.set8, htake, h.2.2] at hcrc
  simp [Config.crc] at hcrc

/-- `cfg_reset` loads from a block with an inverted check byte. -/
theorem cfgReset_eq (tail : Nat → UInt8) (s : Cfg) :
    cfgReset tail s = (cfgLoad tail
      { gCfgParms := (committed tail s.gCfgParms).set8 25 (~~~(committed tail s.gCfgParms).crc)
        eeprom := (committed tail s.gCfgParms).set8 25 (~~~(committed tail s.gCfgParms).crc) }).2 := by
  simp only [cfgReset, cfgCommit, committed, if_true]

/-- `cfg_reset` leaves an invalid block in the EEPROM and the defaults in RAM. -/
theorem cfgReset_spec (tail : Nat → UInt8) (s : Cfg) :
    ¬(cfgReset tail s).eeprom.Valid ∧ (cfgReset tail s).gCfgParms.parms = defaultParms := by
  have hinvalid := not_valid_inverted (committed_spec tail s.gCfgParms).1
  rw [cfgReset_eq]
  generalize (committed tail s.gCfgParms).set8 25 (~~~(committed tail s.gCfgParms).crc) = image
    at hinvalid ⊢
  obtain ⟨hparms, heeprom⟩ := cfgLoad_spec tail { gCfgParms := image, eeprom := image }
  rw [hparms, heeprom]
  exact ⟨hinvalid, if_neg hinvalid⟩

/-! ## Operations and runs -/

/-- A call of the configuration module. -/
inductive CfgOp where
  | set (len : UInt8) (value : Vector UInt8 3)
  | store
  | reset
  | load
  deriving DecidableEq

/-- The effect of a call, with whatever lies behind the block in memory at that time. -/
def cfgStep (s : Cfg) (call : CfgOp × (Nat → UInt8)) : Cfg :=
  match call with
  | (.set len value, tail) => (cfgSet tail s len value).2
  | (.store, tail) => cfgStore tail s
  | (.reset, tail) => cfgReset tail s
  | (.load, tail) => (cfgLoad tail s).2

/-- RAM holds the parameters the EEPROM stands for. -/
def Durable (s : Cfg) : Prop := s.gCfgParms.parms = s.eeprom.stored

/-- After a load RAM and EEPROM agree. -/
theorem cfgLoad_durable (tail : Nat → UInt8) (s : Cfg) : Durable (cfgLoad tail s).2 := by
  obtain ⟨hparms, heeprom⟩ := cfgLoad_spec tail s
  rw [Durable, hparms, heeprom]

/-- After a store RAM and EEPROM agree. -/
theorem cfgStore_durable (tail : Nat → UInt8) (s : Cfg) : Durable (cfgStore tail s) := by
  rw [Durable, cfgStore_eq, Config.stored, if_pos (committed_spec tail s.gCfgParms).1]

/-- After a reset RAM and EEPROM agree. -/
theorem cfgReset_durable (tail : Nat → UInt8) (s : Cfg) : Durable (cfgReset tail s) := by
  obtain ⟨hinvalid, hparms⟩ := cfgReset_spec tail s
  rw [Durable, hparms, Config.stored, if_neg hinvalid]

/-- A rejected parameter changes nothing, an accepted one is stored. -/
theorem cfgSet_durable (tail : Nat → UInt8) {s : Cfg} (h : Durable s) (len : UInt8)
    (value : Vector UInt8 3) : Durable (cfgSet tail s len value).2 := by
  unfold cfgSet
  dsimp only
  split_ifs
  · exact h
  · exact h
  · exact cfgStore_durable tail _
  · exact cfgStore_durable tail _

/-- Every call keeps RAM and EEPROM in agreement. -/
theorem cfgStep_durable {s : Cfg} (h : Durable s) (call : CfgOp × (Nat → UInt8)) :
    Durable (cfgStep s call) := by
  obtain ⟨op, tail⟩ := call
  cases op with
  | set len value => exact cfgSet_durable tail h len value
  | store => exact cfgStore_durable tail s
  | reset => exact cfgReset_durable tail s
  | load => exact cfgLoad_durable tail s

/-- From a load of any EEPROM image on, after any calls, a power cycle yields the parameters RAM
held just before it; and a `cfg_reset` at that point makes them the defaults, a power cycle after it
included. -/
theorem cfg_powerCycle (tail : Nat → UInt8) (s : Cfg) (calls : List (CfgOp × (Nat → UInt8))) :
    let t := run cfgStep (cfgLoad tail s).2 calls
    (∀ tail' ram, (cfgLoad tail' { t with gCfgParms := ram }).2.gCfgParms.parms =
        t.gCfgParms.parms) ∧
      (∀ tail', (cfgReset tail' t).gCfgParms.parms = defaultParms) := by
  intro t
  have hdurable : Durable t :=
    run_invariant_always (P := Durable) (fun _ call h => cfgStep_durable h call) calls
      (cfgLoad_durable tail s)
  refine ⟨fun tail' ram => ?_, fun tail' => (cfgReset_spec tail' t).2⟩
  rw [(cfgLoad_spec tail' { t with gCfgParms := ram }).1]
  exact hdurable.symm

end BmsNode
