import BmsNode.Bytes.Word
import BmsNode.Config.Durability

/-!
# The loop of `cfg_compute_crc`

`cfgComputeCrc` folds over the bytes below the length byte. Here the same loop runs as
it stands in the source, with an 8-bit index and a bound that is an `int`, and keeps
the indices it reads. `cfgLoadReads` and `cfgCommitReads` are `cfg_load` and
`cfg_commit` with that loop in place of its result.
-/

namespace BmsNode

/-- The loop of `cfg_compute_crc` from an index on: the CRC and the indices read, or nothing when it
does not end within `fuel` turns. -/
def cfgCrcLoop (tail : Nat → UInt8) (cfg : Config) :
    Nat → UInt8 → UInt8 → Option (UInt8 × List Nat)
  | 0, _, _ => none
  | fuel + 1, idx, crc =>
      if (idx.toNat : Int) < (cfg.len.toNat : Int) - 1 then do
        let (crc, reads) ← cfgCrcLoop tail cfg fuel (idx + 1)
          (crc8CcittUpdate crc (cfgByte tail cfg idx.toNat))
        pure (crc, idx.toNat :: reads)
      else pure (crc, [])

/-- `cfg_load` with the indices its CRC reads. -/
def cfgLoadReads (tail : Nat → UInt8) (s : Cfg) (fuel : Nat) :
    Option ((Bool × Cfg) × List Nat) := do
  let cfg := s.eeprom
  let (crc, reads) ← cfgCrcLoop tail cfg fuel 0 0
  if cfg.type = cfgType2 ∧ cfg.len = cfgSize ∧ crc = cfg.crc then
    pure ((true, { s with gCfgParms := cfg }), reads)
  else pure ((false, { s with gCfgParms := cfgDefaults cfg }), reads)

/-- `cfg_commit` with the indices its CRCs read. -/
def cfgCommitReads (tail : Nat → UInt8) (reset : Bool) (s : Cfg) (fuel : Nat) :
    Option (Cfg × List Nat) := do
  let cfg := (s.gCfgParms.set8 0 cfgSize).set8 1 cfgType2
  let (crc, reads) ← cfgCrcLoop tail cfg fuel 0 0
  let cfg := cfg.set8 25 crc
  let cfg := if reset then cfg.set8 25 (~~~cfg.crc) else cfg
  let s : Cfg := { gCfgParms := cfg, eeprom := cfg }
  if reset then
    let (loaded, more) ← cfgLoadReads tail s fuel
    pure (loaded.2, reads ++ more)
  else pure (s, reads)

/-- A call returns, and every index read is below `sizeof(config_t)`. -/
def InBlock {α : Type} (call : Nat → Option (α × List Nat)) : Prop :=
  ∃ fuel value reads, call fuel = some (value, reads) ∧ ∀ idx ∈ reads, idx < cfgSize.toNat

/-! ## What the loop does -/

/-- The loop ends when it has a turn for each index up to its bound, and one more. It then has read
these indices in order. -/
theorem cfgCrcLoop_eq (tail : Nat → UInt8) (cfg : Config) (fuel : Nat) (idx crc : UInt8)
    (hidx : idx.toNat ≤ cfg.len.toNat - 1) :
    cfgCrcLoop tail cfg fuel idx crc =
      let reads := List.range' idx.toNat (cfg.len.toNat - 1 - idx.toNat)
      if reads.length < fuel then
        some (reads.foldl (fun crc idx => crc8CcittUpdate crc (cfgByte tail cfg idx)) crc, reads)
      else none := by
  induction fuel generalizing idx crc with
  | zero => simp [cfgCrcLoop]
  | succ fuel ih =>
      have hbound := cfg.len.toNat_lt
      by_cases hmore : idx.toNat < cfg.len.toNat - 1
      · have hnext := Word.toNat_add_one (b := idx) (by omega)
        have hreads : List.range' idx.toNat (cfg.len.toNat - 1 - idx.toNat) =
            idx.toNat :: List.range' (idx + 1).toNat (cfg.len.toNat - 1 - (idx + 1).toNat) := by
          rw [hnext, ← List.range'_succ]
          congr 1
          omega
        rw [cfgCrcLoop, if_pos (by omega), ih _ _ (by omega), hreads]
        simp only [List.length_cons, Nat.add_lt_add_iff_right, List.foldl_cons]
        split_ifs <;> rfl
      · rw [cfgCrcLoop, if_neg (by omega), show cfg.len.toNat - 1 - idx.toNat = 0 by omega]
        simp

/-- With 255 turns the loop computes what `cfgComputeCrc` says, and reads the indices below the
length byte less one; with fewer it may not end. -/
theorem cfgCrcLoop_zero (tail : Nat → UInt8) (cfg : Config) (fuel : Nat) :
    cfgCrcLoop tail cfg fuel 0 0 =
      if cfg.len.toNat - 1 < fuel then
        some (cfgComputeCrc tail cfg, List.range (cfg.len.toNat - 1))
      else none := by
  rw [cfgCrcLoop_eq tail cfg fuel 0 0 (by simp)]
  simp [cfgComputeCrc, List.range_eq_range']

/-- `cfg_load` with its reads is `cfg_load`. -/
theorem cfgLoadReads_eq (tail : Nat → UInt8) (s : Cfg) (fuel : Nat) :
    cfgLoadReads tail s fuel =
      if s.eeprom.len.toNat - 1 < fuel then
        some (cfgLoad tail s, List.range (s.eeprom.len.toNat - 1))
      else none := by
  simp only [cfgLoadReads, cfgCrcLoop_zero, cfgLoad]
  split_ifs <;> simp_all

/-- `cfg_commit` with its reads is `cfg_commit`: its blocks have the length byte it stores first. -/
theorem cfgCommitReads_eq (tail : Nat → UInt8) (reset : Bool) (s : Cfg) {fuel : Nat}
    (hfuel : 25 < fuel) :
    cfgCommitReads tail reset s fuel = some (cfgCommit tail reset s,
      List.range 25 ++ if reset then List.range 25 else []) := by
  have hlen : ((s.gCfgParms.set8 0 cfgSize).set8 1 cfgType2).len.toNat - 1 = 25 := by
    simp [Config.len, Config.getElem_set8, cfgSize]
  have himage (crc crc' : UInt8) :
      ((((s.gCfgParms.set8 0 cfgSize).set8 1 cfgType2).set8 25 crc).set8 25 crc').len.toNat - 1 =
        25 := by
    simp [Config.len, Config.getElem_set8, cfgSize]
  cases reset with
  | false => simp [cfgCommitReads, cfgCommit, cfgCrcLoop_zero, hlen, hfuel]
  | true => simp [cfgCommitReads, cfgCommit, cfgCrcLoop_zero, cfgLoadReads_eq, hlen, himage, hfuel]

/-- `cfg_load` stays inside the block exactly when the stored length byte is at most one above the
size of the block. -/
theorem cfgLoad_inBlock_iff (tail : Nat → UInt8) (s : Cfg) :
    InBlock (cfgLoadReads tail s) ↔ s.eeprom.len ≤ 27 := by
  have hle : s.eeprom.len ≤ 27 ↔ s.eeprom.len.toNat ≤ 27 := UInt8.le_iff_toNat_le
  rw [hle]
  constructor
  · rintro ⟨fuel, value, reads, hcall, hreads⟩
    rw [cfgLoadReads_eq] at hcall
    split_ifs at hcall with hfuel
    obtain ⟨-, rfl⟩ : cfgLoad tail s = value ∧ List.range (s.eeprom.len.toNat - 1) = reads := by
      simpa using hcall
    -- the last index read is the length byte less two
    by_contra hlong
    have hlast := hreads (s.eeprom.len.toNat - 2) (List.mem_range.mpr (by omega))
    simp only [cfgSize, UInt8.reduceToNat] at hlast
    omega
  · intro hshort
    refine ⟨27, cfgLoad tail s, List.range (s.eeprom.len.toNat - 1), ?_, fun idx hidx => ?_⟩
    · rw [cfgLoadReads_eq, if_pos (by omega)]
    · have hlt := List.mem_range.mp hidx
      simp only [cfgSize, UInt8.reduceToNat]
      omega

/-- `cfg_commit` stays inside the block, the load after a reset included. -/
theorem cfgCommit_inBlock (tail : Nat → UInt8) (reset : Bool) (s : Cfg) :
    InBlock (cfgCommitReads tail reset s) := by
  refine ⟨26, _, _, cfgCommitReads_eq tail reset s (by omega), fun idx hidx => ?_⟩
  have hlt : idx < 25 := by
    cases reset <;> simpa using hidx
  simp only [cfgSize, UInt8.reduceToNat]
  omega

/-- For every EEPROM image and whatever lies behind the block: the CRC loop of `cfg_load` always
ends, it reads only inside the block exactly when the stored length byte is at most 27, and the
loops of every `cfg_commit` end and read only inside the block. -/
theorem crc_inBlock_iff (tail : Nat → UInt8) (s : Cfg) (reset : Bool) :
    (cfgLoadReads tail s 256).isSome = true ∧
      (InBlock (cfgLoadReads tail s) ↔ s.eeprom.len ≤ 27) ∧
      InBlock (cfgCommitReads tail reset s) := by
  refine ⟨?_, cfgLoad_inBlock_iff tail s, cfgCommit_inBlock tail reset s⟩
  have hlen := s.eeprom.len.toNat_lt
  rw [cfgLoadReads_eq, if_pos (by omega)]
  rfl

/-- An erased EEPROM is read past the end of the block. -/
theorem crc_erased :
    ¬InBlock (cfgLoadReads (fun _ => 0)
      { gCfgParms := Vector.replicate 26 0, eeprom := Vector.replicate 26 0xFF }) := by
  rw [cfgLoad_inBlock_iff]
  decide

end BmsNode
