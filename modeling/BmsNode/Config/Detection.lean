import BmsNode.Bytes.Check
import BmsNode.Config.Durability

/-!
# Which configuration blocks are loaded

`cfg_load` accepts the valid blocks and no others. A block that `cfg_store` wrote is
valid, and by `crc8_detects` no block is that differs from it in an odd number of bits
or within one byte.
-/

namespace BmsNode

/-- The check byte is the last byte of the block. -/
theorem Config.toList_eq (cfg : Config) : cfg.toList = cfg.toList.take 25 ++ [cfg.crc] := by
  have hlength : cfg.toList.length = 26 := by simp
  have hlast : cfg.toList.drop 25 = [cfg.crc] := by
    rw [List.drop_eq_getElem_cons (by omega), List.drop_eq_nil_of_le (by omega)]
    rfl
  rw [← hlast, List.take_append_drop]

/-- `cfg_load` reports whether the block is valid. -/
theorem cfgLoad_iff (tail : Nat → UInt8) (s : Cfg) :
    (cfgLoad tail s).1 = true ↔ s.eeprom.Valid := by
  rw [← cfgLoad_check tail, cfgLoad]
  split_ifs with hvalid
  · exact iff_of_true rfl hvalid
  · exact iff_of_false not_false hvalid

/-- A corrupted block is not valid. -/
theorem not_valid_corrupted {written image : Config} (hvalid : written.Valid)
    (h : Odd (flippedBits written.toList image.toList) ∨
      (WithinOneByte written.toList image.toList ∧ image ≠ written)) : ¬image.Valid := by
  have hwritten : written.toList = written.toList.take 25 ++ [crc8 (written.toList.take 25)] := by
    rw [hvalid.2.2]
    exact written.toList_eq
  have hlength : (image.toList.take 25).length = (written.toList.take 25).length := by simp
  have hne (himage : image ≠ written) : image.toList ≠ written.toList :=
    fun heq => himage (Vector.toList_inj.mp heq)
  have hdetects := @crc8_detects _ _ image.crc hlength
  rw [← hwritten, ← image.toList_eq] at hdetects
  intro himage
  refine hdetects ?_ himage.2.2.symm
  rcases h with hodd | ⟨hbyte, hother⟩
  · exact .inl hodd
  · exact .inr (.inl ⟨hbyte, hne hother⟩)

/-- For every EEPROM image, `cfg_load` returns true exactly when type, length and check byte are
right, and then the parameters are the stored ones; otherwise they are the defaults. An image that
differs from one written by `cfg_store` in an odd number of bits, or within one byte, is rejected.
-/
theorem cfgLoad_accepts (tail : Nat → UInt8) (s : Cfg) :
    ((cfgLoad tail s).1 = true ↔
        s.eeprom.type = 2 ∧ s.eeprom.len = 26 ∧ s.eeprom.crc = crc8 (s.eeprom.toList.take 25)) ∧
      ((cfgLoad tail s).1 = true → (cfgLoad tail s).2.gCfgParms.parms = s.eeprom.parms) ∧
      ((cfgLoad tail s).1 = false → (cfgLoad tail s).2.gCfgParms.parms = defaultParms) ∧
      ∀ tail' t, let written := (cfgStore tail' t).eeprom
        Odd (flippedBits written.toList s.eeprom.toList) ∨
          (WithinOneByte written.toList s.eeprom.toList ∧ s.eeprom ≠ written) →
        (cfgLoad tail s).1 = false := by
  have hparms := (cfgLoad_spec tail s).1
  refine ⟨?_, fun htrue => ?_, fun hfalse => ?_, fun tail' t h => ?_⟩
  · rw [cfgLoad_iff, Config.Valid, eq_comm (a := crc8 _)]
    rfl
  · rw [hparms, Config.stored, if_pos ((cfgLoad_iff tail s).mp htrue)]
  · have hinvalid : ¬s.eeprom.Valid := fun hvalid => by
      rw [(cfgLoad_iff tail s).mpr hvalid] at hfalse
      cases hfalse
    rw [hparms, Config.stored, if_neg hinvalid]
  · have hinvalid := not_valid_corrupted (committed_spec tail' t.gCfgParms).1 h
    rw [← cfgLoad_iff tail s] at hinvalid
    simpa using hinvalid

end BmsNode
