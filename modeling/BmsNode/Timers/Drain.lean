import BmsNode.Lists.Polling
import BmsNode.Timers.Integrity
import Mathlib.Data.List.Count
import Mathlib.Logic.Function.Iterate

/-!
# Draining the timers

A client that calls `tmr_process` until it returns `NULL`, with the tick count standing
still. Each call starts at the head of the list, so a periodic timer that lags behind
hides the timers after it until it has caught up. `Tmr.serve` is what `tmr_process` does
with one timer, which makes it an instance of `Polling.poll`; `turns_spec` counts how
often a timer is returned, and `tmr_process_drains` is the result on the memory that the
pointers link.
-/

namespace BmsNode

open LinkedList Polling Transition

/-! ## One timer -/

/-- What `tmr_process` does with a timer it comes to: nothing before it expires, and then a periodic
timer is refreshed and a one-shot removed. -/
def Tmr.serve (ticks : UInt16) (tmr : Tmr) : Option (Option Tmr) :=
  if tmrExpired ticks tmr.timeout then some (if tmr.periodic ≠ 0 then some tmr.refresh else none)
  else none

/-- How often a timer is returned before it is no longer expired: once for a one-shot, and once for
each period that has begun since its timeout for a periodic one. -/
def Tmr.turns (ticks : UInt16) (tmr : Tmr) : Nat :=
  if tmrExpired ticks tmr.timeout then
    if tmr.periodic = 0 then 1 else (ticks - tmr.timeout).toNat / tmr.periodic.toNat + 1
  else 0

/-- What is left of a timer after its turns. -/
def Tmr.drained (ticks : UInt16) (tmr : Tmr) : Option Tmr :=
  if tmrExpired ticks tmr.timeout ∧ tmr.periodic = 0 then none
  else some (Tmr.refresh^[tmr.turns ticks] tmr)

/-- A refresh is one turn. -/
theorem Tmr.turns_refresh {ticks : UInt16} {tmr : Tmr}
    (hexpired : tmrExpired ticks tmr.timeout = true) (hperiodic : tmr.periodic ≠ 0)
    (hperiod : tmr.periodic.toNat ≤ 32767) : tmr.turns ticks = tmr.refresh.turns ticks + 1 := by
  have hpos : 0 < tmr.periodic.toNat :=
    Nat.pos_of_ne_zero fun hzero => hperiodic (UInt16.toNat_inj.mp hzero)
  have hlag : (ticks - tmr.refresh.timeout).toNat = _ :=
    Word.toNat_sub_add ticks tmr.timeout tmr.periodic
  have hsame : tmr.refresh.periodic = tmr.periodic := rfl
  have hhalf : (ticks - tmr.timeout).toNat < 32768 := by
    rw [tmrExpired, decide_eq_true_iff, UInt16.lt_iff_toNat_lt] at hexpired
    exact hexpired
  rw [Tmr.turns, if_pos hexpired, if_neg hperiodic, Tmr.turns, hsame, if_neg hperiodic]
  by_cases hmore : tmr.periodic.toNat ≤ (ticks - tmr.timeout).toNat
  · -- the timer is still expired after the refresh
    rw [if_pos hmore] at hlag
    have hagain : tmrExpired ticks tmr.refresh.timeout = true := by
      rw [tmrExpired, decide_eq_true_iff, UInt16.lt_iff_toNat_lt, hlag]
      exact Nat.lt_of_le_of_lt (Nat.sub_le ..) hhalf
    rw [if_pos hagain, hlag, Nat.div_eq_sub_div hpos hmore]
  · rw [if_neg hmore] at hlag
    have hnever : ¬tmrExpired ticks tmr.refresh.timeout = true := by
      rw [tmrExpired, decide_eq_true_iff, UInt16.lt_iff_toNat_lt, hlag]
      show ¬_ < 32768
      omega
    rw [if_neg hnever, Nat.div_eq_of_lt (Nat.lt_of_not_le hmore)]

/-- A timer with a period below half the range of the counter comes to an end after its turns. -/
theorem Tmr.turns_spec (ticks : UInt16) (tmr : Tmr) (hperiod : tmr.periodic.toNat ≤ 32767) :
    Turns (Tmr.serve ticks) tmr (tmr.turns ticks) (tmr.drained ticks) := by
  induction hturns : tmr.turns ticks generalizing tmr with
  | zero =>
      have hidle : ¬tmrExpired ticks tmr.timeout = true := by
        intro hexpired
        rw [Tmr.turns, if_pos hexpired] at hturns
        split_ifs at hturns
      have hdrained : tmr.drained ticks = some tmr := by
        rw [Tmr.drained, if_neg (fun h => hidle h.1), hturns]
        rfl
      rw [hdrained]
      exact .idle (if_neg hidle)
  | succ turns ih =>
      have hexpired : tmrExpired ticks tmr.timeout = true := by
        by_contra hidle
        rw [Tmr.turns, if_neg hidle] at hturns
        omega
      by_cases hperiodic : tmr.periodic = 0
      · have hone : turns = 0 := by
          rw [Tmr.turns, if_pos hexpired, if_pos hperiodic] at hturns
          omega
        rw [hone, Tmr.drained, if_pos ⟨hexpired, hperiodic⟩]
        refine .done ?_
        rw [Tmr.serve, if_pos hexpired, if_neg (not_not.mpr hperiodic)]
      · have hrefresh := Tmr.turns_refresh hexpired hperiodic hperiod
        have hrest := ih tmr.refresh hperiod (by omega)
        have hdrained : tmr.drained ticks = tmr.refresh.drained ticks := by
          rw [Tmr.drained, if_neg (fun h => hperiodic h.2), Tmr.drained,
            if_neg (fun h => hperiodic h.2), hrefresh, Function.iterate_succ_apply]
        rw [hdrained]
        refine .again ?_ hrest
        rw [Tmr.serve, if_pos hexpired, if_pos hperiodic]

/-- A timer is served at its address. -/
theorem Tmr.serve_ptr {ticks : UInt16} {tmr left : Tmr} (h : tmr.serve ticks = some (some left)) :
    left.ptr = tmr.ptr := by
  rw [Tmr.serve] at h
  split_ifs at h with hexpired hperiodic
  · obtain rfl : tmr.refresh = left := by simpa using h
    rfl
  · simp at h

/-! ## The list -/

/-- `tmr_process` polls the list of timers. -/
theorem tmrProcess_eq_poll (ticks : UInt16) (tmrlist : List Tmr) :
    (tmrProcess ticks tmrlist).1.map Tmr.ptr = (poll (Tmr.serve ticks) tmrlist).1.map Tmr.ptr ∧
      (tmrProcess ticks tmrlist).2 = (poll (Tmr.serve ticks) tmrlist).2 := by
  induction tmrlist with
  | nil => exact ⟨rfl, rfl⟩
  | cons tmr rest ih =>
      by_cases hexpired : tmrExpired ticks tmr.timeout = true
      · by_cases hperiodic : tmr.periodic = 0
        · simp [tmrProcess, poll, Tmr.serve, hexpired, hperiodic]
        · simp [tmrProcess, poll, Tmr.serve, hexpired, hperiodic, Tmr.refresh]
      · simp only [tmrProcess, poll, Tmr.serve, if_neg hexpired]
        exact ⟨ih.1, congrArg _ ih.2⟩

/-- Refreshing a timer only moves its timeout on, by one period each time. -/
theorem Tmr.refresh_iterate (n : Nat) (tmr : Tmr) :
    Tmr.refresh^[n] tmr =
      { tmr with timeout := tmr.timeout + UInt16.ofNat n * tmr.periodic } := by
  induction n generalizing tmr with
  | zero => simp
  | succ n ih =>
      rw [Function.iterate_succ_apply, ih, Tmr.refresh]
      have hmove : tmr.timeout + tmr.periodic + UInt16.ofNat n * tmr.periodic =
          tmr.timeout + UInt16.ofNat (n + 1) * tmr.periodic := by
        rw [UInt16.ofNat_add, UInt16.add_mul, UInt16.ofNat_one, UInt16.one_mul, UInt16.add_assoc,
          UInt16.add_comm tmr.periodic]
      rw [← hmove]

/-- Draining keeps the caller's members of a timer. -/
theorem Tmr.drained_members {ticks : UInt16} {tmr left : Tmr} (h : tmr.drained ticks = some left) :
    left.addr = tmr.addr ∧ left.periodic = tmr.periodic ∧ left.id = tmr.id := by
  rw [Tmr.drained] at h
  split_ifs at h
  rw [← Option.some.inj h, Tmr.refresh_iterate]
  exact ⟨rfl, rfl, rfl⟩

/-- Draining keeps the timers that are not returned one-shots, in their order. -/
theorem map_drained (ticks : UInt16) (tmrlist : List Tmr) :
    (tmrlist.filterMap (Tmr.drained ticks)).map (fun tmr => (tmr.addr, tmr.periodic, tmr.id)) =
      (tmrlist.filter fun tmr => ¬(tmrExpired ticks tmr.timeout ∧ tmr.periodic = 0)).map
        fun tmr => (tmr.addr, tmr.periodic, tmr.id) := by
  induction tmrlist with
  | nil => rfl
  | cons tmr rest ih =>
      by_cases hgone : tmrExpired ticks tmr.timeout ∧ tmr.periodic = 0
      · have hdrained : tmr.drained ticks = none := if_pos hgone
        rw [List.filterMap_cons_none hdrained, ih, List.filter_cons_of_neg (by simp [hgone])]
      · have hdrained : tmr.drained ticks = some (Tmr.refresh^[tmr.turns ticks] tmr) :=
          if_neg hgone
        obtain ⟨haddr, hperiodic, hid⟩ := Tmr.drained_members hdrained
        rw [List.filterMap_cons_some hdrained, List.filter_cons_of_pos (by simp only [hgone]; rfl),
          List.map_cons, List.map_cons, ih, haddr, hperiodic, hid]

/-! ## The memory -/

/-- Call `tmr_process` until it returns `NULL`, for a number of calls at most: the timers returned,
in order, and the memory afterwards. -/
def TmrHeap.drain (fuel : Nat) : Nat → TmrHeap → Option (List TmrAddr × TmrHeap)
  | 0, _ => none
  | calls + 1, heap =>
      match heap.tmrProcess fuel with
      | none => none
      | some (none, heap) => some ([], heap)
      | some (some p_tmr, heap) =>
          (drain fuel calls heap).map fun (returned, last) => (p_tmr :: returned, last)

/-- Draining the memory drains the list it holds. -/
theorem TmrHeap.Holds.drain {heap : TmrHeap} {timers : TmrState} {fuel calls : Nat}
    (h : heap.Holds timers) (hfuel : timers.tmrlist.length < fuel) {returned : List Nat}
    {left : List Tmr}
    (hdrain : Polling.drain (Tmr.serve timers.systick) Tmr.ptr calls timers.tmrlist =
      some (returned, left)) :
    ∃ last, heap.drain fuel calls = some (returned.map TmrAddr.tmr, last) ∧
      last.Holds { timers with tmrlist := left } := by
  induction calls generalizing heap timers returned left with
  | zero => cases hdrain
  | succ calls ih =>
      obtain ⟨after, hprocess, hafter⟩ := h.tmrProcess hfuel
      obtain ⟨hresult, hlist⟩ := tmrProcess_eq_poll timers.systick timers.tmrlist
      have hlength := length_poll_le (Tmr.serve timers.systick) timers.tmrlist
      rw [TmrState.result, hresult] at hprocess
      rw [TmrState.step, hlist] at hafter
      rw [Polling.drain] at hdrain
      cases hpoll : poll (Tmr.serve timers.systick) timers.tmrlist with
      | mk served jobs =>
          rw [hpoll] at hprocess hafter hdrain hlength
          cases served with
          | none =>
              obtain ⟨rfl, rfl⟩ : [] = returned ∧ jobs = left := by simpa using hdrain
              exact ⟨after, by rw [TmrHeap.drain, hprocess]; rfl, hafter⟩
          | some tmr =>
              obtain ⟨⟨others, left'⟩, hrest, heq⟩ := Option.map_eq_some_iff.mp hdrain
              obtain ⟨rfl, rfl⟩ : tmr.ptr :: others = returned ∧ left' = left := by simpa using heq
              obtain ⟨last, hlast, hholds⟩ := ih hafter (Nat.lt_of_le_of_lt hlength hfuel) hrest
              refine ⟨last, ?_, hholds⟩
              rw [TmrHeap.drain, hprocess]
              show (TmrHeap.drain fuel calls after).map _ = _
              rw [hlast]
              rfl

/-- The pointers to the timers of a list are distinct. -/
theorem TmrHeap.Holds.nodup_ptr {heap : TmrHeap} {timers : TmrState} (h : heap.Holds timers) :
    (timers.tmrlist.map Tmr.ptr).Nodup := by
  have hnodup := h.linked.nodup
  rw [TmrState.nodes, show Tmr.addr = TmrAddr.tmr ∘ Tmr.ptr from rfl, ← List.map_map] at hnodup
  exact hnodup.of_map _

/-- Draining the timers ends and starves none. With periods of at most 32767 ticks, calling
`tmr_process` at a tick returns finitely many timers and then `NULL`: every expired one-shot once,
every expired periodic timer once more than the periods that fit into its lag, and no other timer.
The list is then the one before without the returned one-shots, and nothing in it is expired. The
timeout of a timer that stays has moved on by one period for each return, so that of a timer that
was not expired is unchanged. -/
theorem tmr_process_drains {heap : TmrHeap} {timers : TmrState} {fuel : Nat}
    (h : heap.Holds timers) (hfuel : timers.tmrlist.length < fuel)
    (hperiod : ∀ tmr ∈ timers.tmrlist, tmr.periodic.toNat ≤ 32767) :
    let expired (tmr : Tmr) := tmrExpired timers.systick tmr.timeout
    let lag (tmr : Tmr) := (timers.systick - tmr.timeout).toNat
    ∃ returned last left, heap.drain fuel (returned.length + 1) = some (returned, last) ∧
      (∀ tmr ∈ timers.tmrlist, returned.count tmr.addr =
        if expired tmr then if tmr.periodic = 0 then 1 else lag tmr / tmr.periodic.toNat + 1
        else 0) ∧
      (∀ p_tmr ∈ returned, ∃ tmr ∈ timers.tmrlist, p_tmr = tmr.addr) ∧
      last.Holds { timers with tmrlist := left } ∧
      left.map (fun tmr => (tmr.addr, tmr.periodic, tmr.id)) =
        (timers.tmrlist.filter fun tmr => ¬(expired tmr ∧ tmr.periodic = 0)).map
          (fun tmr => (tmr.addr, tmr.periodic, tmr.id)) ∧
      (∀ tmr ∈ left, expired tmr = false) ∧
      (∀ tmr ∈ timers.tmrlist, ¬(expired tmr ∧ tmr.periodic = 0) →
        { tmr with
          timeout := tmr.timeout + UInt16.ofNat (returned.count tmr.addr) * tmr.periodic } ∈
            left) ∧
      ∀ tmr ∈ timers.tmrlist, expired tmr = false → tmr ∈ left := by
  intro expired lag
  have hturns : ∀ tmr ∈ timers.tmrlist,
      Turns (Tmr.serve timers.systick) tmr (tmr.turns timers.systick)
        (tmr.drained timers.systick) :=
    fun tmr hmem => tmr.turns_spec timers.systick (hperiod tmr hmem)
  let returned := timers.tmrlist.flatMap fun tmr =>
    List.replicate (tmr.turns timers.systick) tmr.ptr
  have hdrain : Polling.drain _ _ (returned.length + 1) _ = some (returned, _) :=
    drain_eq (fun _ _ => Tmr.serve_ptr) hturns
  obtain ⟨last, hlast, hholds⟩ := h.drain hfuel hdrain
  have hcount : ∀ tmr ∈ timers.tmrlist,
      (returned.map TmrAddr.tmr).count tmr.addr = tmr.turns timers.systick := by
    intro tmr hmem
    have hinj : Function.Injective TmrAddr.tmr := fun _ _ heq => TmrAddr.tmr.inj heq
    rw [Tmr.addr, List.count_map_of_injective _ _ hinj, count_turns h.nodup_ptr hmem]
  refine ⟨returned.map TmrAddr.tmr, last, _, ?_, hcount, ?_, hholds,
    map_drained timers.systick timers.tmrlist, ?_, ?_, ?_⟩
  · rw [List.length_map]
    exact hlast
  · intro p_tmr hmem
    obtain ⟨ptr, hptr, rfl⟩ := List.mem_map.mp hmem
    obtain ⟨tmr, htmr, hsame⟩ := List.mem_flatMap.mp hptr
    exact ⟨tmr, htmr, by rw [List.eq_of_mem_replicate hsame]; rfl⟩
  · intro left hmem
    obtain ⟨tmr, htmr, hdrained⟩ := List.mem_filterMap.mp hmem
    have hidle := (hturns tmr htmr).idle_last left hdrained
    by_contra hexpired
    rw [Tmr.serve, if_pos (by simpa using hexpired)] at hidle
    cases hidle
  · intro tmr hmem hstays
    rw [hcount tmr hmem, ← Tmr.refresh_iterate]
    exact List.mem_filterMap.mpr ⟨tmr, hmem, if_neg hstays⟩
  · intro tmr hmem hidle
    have hrunning : ¬tmrExpired timers.systick tmr.timeout = true := by simpa using hidle
    have hdrained : tmr.drained timers.systick = some tmr := by
      rw [Tmr.drained, if_neg (fun hgone => hrunning hgone.1), Tmr.turns, if_neg hrunning]
      rfl
    exact List.mem_filterMap.mpr ⟨tmr, hmem, hdrained⟩

/-- Three timers at tick 10: a periodic one whose timeout was before the counter wrapped, an expired
one-shot, and one that is not expired. -/
def laggingTimers : TmrState where
  systick := 10
  tmrlist := [⟨0, 65530, 4, 1⟩, ⟨1, 8, 0, 2⟩, ⟨2, 20, 32767, 3⟩]

/-- The memory of these timers, in link order. -/
def laggingTmrHeap : TmrHeap where
  systick := 10
  p_next
    | .tmrlist => some (.tmr 0)
    | .tmr 0 => some (.tmr 1)
    | .tmr 1 => some (.tmr 2)
    | .tmr _ => none
  timeout
    | .tmr 0 => 65530
    | .tmr 1 => 8
    | _ => 20
  periodic
    | .tmr 0 => 4
    | .tmr 1 => 0
    | _ => 32767
  id
    | .tmr 0 => 1
    | .tmr 1 => 2
    | _ => 3

/-- The periodic timer lags 16 ticks and is returned five times, the one-shot once. -/
theorem tmr_process_drains_lagging :
    ∃ returned last, laggingTmrHeap.drain 4 (returned.length + 1) = some (returned, last) ∧
      returned.count (.tmr 0) = 5 ∧ returned.count (.tmr 1) = 1 ∧ returned.count (.tmr 2) = 0 := by
  have hholds : laggingTmrHeap.Holds laggingTimers := by
    refine ⟨rfl, ⟨rfl, rfl, rfl, rfl⟩, ?_⟩
    simp [laggingTimers, laggingTmrHeap, Tmr.addr]
  obtain ⟨returned, last, -, hdrain, hcount, -⟩ :=
    @tmr_process_drains _ _ 4 hholds (by decide) (by decide +kernel)
  refine ⟨returned, last, hdrain, ?_, ?_, ?_⟩
  · exact (hcount ⟨0, 65530, 4, 1⟩ (by decide +kernel)).trans (by decide +kernel)
  · exact (hcount ⟨1, 8, 0, 2⟩ (by decide +kernel)).trans (by decide +kernel)
  · exact (hcount ⟨2, 20, 32767, 3⟩ (by decide +kernel)).trans (by decide +kernel)

end BmsNode
