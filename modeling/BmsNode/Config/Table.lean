import BmsNode.Config.Durability

/-!
# The parameter table

What `cfg_set` and `cfg_get` do for an id depends on its entry of `parmtable`. The facts
about all entries are decided once, and carried over by `parmEntry_rule`.
-/

namespace BmsNode

/-- What holds of all thirteen entries holds of the entry of an accepted id. -/
theorem parmEntry_rule {P : Nat → ParmEntry → Prop}
    (htable : ∀ id : Fin 14, 1 ≤ id.val → P id.val (parmtable.getD id.val ⟨0, 0⟩)) {id : UInt8}
    (hrange : ¬(id < 1 ∨ id > maxParmid)) : P id.toNat (parmEntry id) := by
  rw [not_or, UInt8.not_lt, gt_iff_lt, UInt8.not_lt, UInt8.le_iff_toNat_le,
    UInt8.le_iff_toNat_le] at hrange
  have hmax : id.toNat < 14 := Nat.lt_succ_of_le hrange.2
  exact htable ⟨id.toNat, hmax⟩ hrange.1

/-- Every entry lies inside the block, behind the header, and is one or two bytes long. -/
theorem parmEntry_inside {id : UInt8} (hrange : ¬(id < 1 ∨ id > maxParmid)) :
    2 ≤ (parmEntry id).index ∧ (parmEntry id).index + (parmEntry id).count ≤ 25 ∧
      ((parmEntry id).count = 1 ∨ (parmEntry id).count = 2) :=
  parmEntry_rule (P := fun _ entry => 2 ≤ entry.index ∧ entry.index + entry.count ≤ 25 ∧
    (entry.count = 1 ∨ entry.count = 2)) (by decide) hrange

/-- Only the address is stored at the address's index. -/
theorem parmEntry_addr {id : UInt8} (hrange : ¬(id < 1 ∨ id > maxParmid)) :
    (parmEntry id).index = 2 ↔ id = 1 := by
  have hindex : (parmEntry id).index = 2 ↔ id.toNat = 1 :=
    parmEntry_rule (P := fun id entry => entry.index = 2 ↔ id = 1) (by decide) hrange
  rw [hindex, ← UInt8.toNat_inj]
  rfl

/-- `cfg_set` reads the value bytes covered by `len` only, once it can read the id. -/
theorem cfgSet_congr (tail : Nat → UInt8) (s : Cfg) {len : UInt8} {value value' : Vector UInt8 3}
    (hlen : 1 ≤ len.toNat) (h : ∀ i (hi : i < 3), i < len.toNat → value[i] = value'[i]) :
    cfgSet tail s len value = cfgSet tail s len value' := by
  have hid : value[0] = value'[0] := h 0 (by omega) hlen
  unfold cfgSet
  simp only [hid]
  split_ifs with hrange hcount htwo
  · rfl
  · rfl
  · have h1 : value[1] = value'[1] := h 1 (by omega) (by omega)
    have h2 : value[2] = value'[2] := h 2 (by omega) (by omega)
    rw [h1, h2]
  · obtain ⟨-, -, hone⟩ := parmEntry_inside hrange
    have h1 : value[1] = value'[1] := h 1 (by omega) (by omega)
    rw [h1]

/-- `cfg_store` keeps the address. -/
theorem cfgStore_addr (tail : Nat → UInt8) (s : Cfg) :
    (cfgStore tail s).gCfgParms.addr = s.gCfgParms.addr :=
  congrArg Parms.addr (committed_spec tail s.gCfgParms).2

/-- `cfg_set` changes the address only by the address parameter. -/
theorem cfgSet_addr (tail : Nat → UInt8) (s : Cfg) (len id low high : UInt8) :
    (cfgSet tail s len #v[id, low, high]).2.gCfgParms.addr =
      if len = 2 ∧ id = 1 then low else s.gCfgParms.addr := by
  have hvalue : #v[id, low, high][0] = id ∧ #v[id, low, high][1] = low := ⟨rfl, rfl⟩
  simp only [cfgSet, hvalue.1, hvalue.2]
  by_cases hrange : id < 1 ∨ id > maxParmid
  · have hother : ¬(len = 2 ∧ id = 1) := by
      rintro ⟨-, rfl⟩
      exact absurd hrange (by decide)
    rw [if_pos hrange, if_neg hother]
  obtain ⟨hlow, hhigh, hcount⟩ := parmEntry_inside hrange
  rw [if_neg hrange]
  by_cases hlen : ((parmEntry id).count : Int) ≠ (len.toNat : Int) - 1
  · have hother : ¬(len = 2 ∧ id = 1) := by
      rintro ⟨rfl, rfl⟩
      exact hlen rfl
    rw [if_pos hlen, if_neg hother]
  rw [if_neg hlen]
  simp only [cfgStore_addr]
  -- an accepted parameter: only id 1 is stored at the byte of the address
  by_cases hid : id = 1
  · subst hid
    have hone : (parmEntry 1).count = 1 := rfl
    have htwo : len = 2 := by
      rw [← UInt8.toNat_inj]
      show len.toNat = 2
      omega
    rw [if_neg (by omega), if_pos ⟨htwo, rfl⟩]
    exact (Config.getElem_set8 _ _ _ _).trans (if_pos rfl)
  · have hindex : (parmEntry id).index ≠ 2 := fun h => hid ((parmEntry_addr hrange).mp h)
    have hkeep (cfg : Config) {idx : Nat} (byte : UInt8) (hidx : idx ≠ 2) :
        (cfg.set8 idx byte).addr = cfg.addr :=
      (Config.getElem_set8 _ _ _ _).trans (if_neg hidx)
    have hother : ¬(len = 2 ∧ id = 1) := fun hboth => hid hboth.2
    rw [if_neg hother]
    split_ifs
    · rw [hkeep _ _ (by omega), hkeep _ _ hindex]
    · rw [hkeep _ _ hindex]

/-- What `cfg_get` writes behind the id byte has the length it returns. -/
theorem cfgGet_length (s : Cfg) (id : UInt8) :
    ((cfgGet s 12 id).2.length + 1 =
      (if (cfgGet s 12 id).1 = 0 then (1 : UInt8) else (cfgGet s 12 id).1).toNat) ∧
    (cfgGet s 12 id).2.length ≤ 2 := by
  by_cases hrange : id < 1 ∨ id > maxParmid
  · simp only [cfgGet, if_pos hrange]
    decide
  obtain ⟨-, hhigh, hcount⟩ := parmEntry_inside hrange
  have hroom : ¬(parmEntry id).count ≥ (12 : UInt8).toNat := by
    show ¬12 ≤ _
    omega
  simp only [cfgGet, if_neg hrange, if_neg hroom]
  rcases hcount with hone | htwo
  · simp [hone]
    omega
  · simp [htwo]
    omega

end BmsNode
