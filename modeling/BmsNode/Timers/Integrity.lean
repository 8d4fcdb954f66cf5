import BmsNode.Firmware.TmrHeap
import BmsNode.Lists.Linked
import BmsNode.Timers.Operations
import BmsNode.Transition.Run
import Mathlib.Data.List.Nodup

/-!
# Integrity of the timer list

The chain of `p_next` links that `tmr.c` maintains is at all times a finite list of
distinct timers that ends in `NULL`, whatever the callers' records held before their
first use. `TmrHeap.Holds` relates that memory to the list model of the module: the
links visit its timers in order and the records hold their members. One lemma for each
operation says that it does not run out of fuel and keeps the relation, so the list model
used by the rest of the development is what the pointers compute.
-/

namespace BmsNode

open LinkedList Transition

/-! ## The list operations -/

variable {Addr : Type} [DecidableEq Addr]

/-- The loop of `list_remove`, by induction on the nodes still ahead: it ends, the node is out of
the list behind `p_prev`, and no other link has changed. -/
theorem listRemoveLoop_linked {p_next : Addr → Option Addr} {p_prev p_node : Addr}
    {nodes : List Addr} {fuel : Nat} (h : Linked p_next (p_next p_prev) nodes)
    (hprev : p_prev ∉ nodes) (hne : p_prev ≠ p_node) (hfuel : nodes.length < fuel) :
    ∃ links, listRemoveLoop p_next p_node fuel p_prev (p_next p_prev) = some links ∧
      Linked links (links p_prev) (nodes.erase p_node) ∧
      (∀ other, other ∉ p_prev :: nodes → links other = p_next other) ∧
      (p_node ∉ nodes → links = p_next) := by
  induction nodes generalizing p_prev fuel with
  | nil =>
      cases fuel with
      | zero => exact absurd hfuel (Nat.not_lt_zero _)
      | succ fuel =>
          have hnull : p_next p_prev = none := h
          refine ⟨p_next, ?_, h, fun _ _ => rfl, fun _ => rfl⟩
          rw [hnull]
          rfl
  | cons first rest ih =>
      cases fuel with
      | zero => exact absurd hfuel (Nat.not_lt_zero _)
      | succ fuel =>
          have hfirst : p_next p_prev = some first := h.1
          rw [List.length_cons] at hfuel
          by_cases heq : first = p_node
          · subst heq
            refine ⟨_, by rw [hfirst]; exact if_pos rfl, ?_, ?_, ?_⟩
            · rw [List.erase_cons_head, Function.update_of_ne hne, Function.update_self]
              exact h.unlink hprev
            · intro other hout
              rw [List.mem_cons, List.mem_cons, not_or, not_or] at hout
              rw [Function.update_of_ne hout.2.1, Function.update_of_ne hout.1]
            · intro hnot
              exact absurd (List.mem_cons_self ..) hnot
          · have hrest : first ∉ rest := (List.nodup_cons.mp h.nodup).1
            obtain ⟨links, hloop, hlinked, hframe, hkeep⟩ :=
              ih h.2 hrest heq (Nat.lt_of_succ_lt_succ hfuel)
            -- `p_prev` lies before the part of the list the rest of the loop walks
            have hbehind : links p_prev = some first := by
              rw [← hfirst]
              exact hframe p_prev hprev
            refine ⟨links, by rw [hfirst]; exact (if_neg heq).trans hloop, ?_, ?_, ?_⟩
            · rw [List.erase_cons_tail (by simpa using heq), hbehind]
              exact ⟨rfl, hlinked⟩
            · intro other hout
              exact hframe other fun hmem => hout (List.mem_cons_of_mem _ hmem)
            · intro hnot
              exact hkeep fun hmem => hnot (List.mem_cons_of_mem _ hmem)

/-! ## The relation to the list model -/

/-- The address of a timer's record. -/
def Tmr.addr (tmr : Tmr) : TmrAddr := .tmr tmr.ptr

/-- The addresses of the scheduled timers, in list order. -/
def TmrState.nodes (timers : TmrState) : List TmrAddr := timers.tmrlist.map Tmr.addr

/-- The memory holds the scheduled timers, linked in list order. -/
structure TmrHeap.Holds (heap : TmrHeap) (timers : TmrState) : Prop where
  systick : heap.systick = timers.systick
  linked : Linked heap.p_next (heap.p_next .tmrlist) timers.nodes
  members : ∀ tmr ∈ timers.tmrlist, heap.timeout tmr.addr = tmr.timeout ∧
    heap.periodic tmr.addr = tmr.periodic ∧ heap.id tmr.addr = tmr.id

/-- The list head is not a timer. -/
theorem TmrState.tmrlist_notMem (timers : TmrState) : TmrAddr.tmrlist ∉ timers.nodes := by
  intro hmem
  obtain ⟨tmr, -, hptr⟩ := List.mem_map.mp hmem
  cases hptr

/-- Unscheduling removes the timer's address. -/
theorem TmrState.nodes_tmrUnschedule (timers : TmrState) (ptr : Nat) :
    (tmrUnschedule timers.tmrlist ptr).map Tmr.addr = timers.nodes.erase (.tmr ptr) := by
  have hinj : Function.Injective TmrAddr.tmr := fun _ _ heq => TmrAddr.tmr.inj heq
  calc (tmrUnschedule timers.tmrlist ptr).map Tmr.addr
      = ((tmrUnschedule timers.tmrlist ptr).map Tmr.ptr).map TmrAddr.tmr := by
        rw [List.map_map]; rfl
    _ = ((timers.tmrlist.map Tmr.ptr).map TmrAddr.tmr).erase (.tmr ptr) := by
        rw [map_ptr_tmrUnschedule, List.map_erase hinj]
    _ = timers.nodes.erase (.tmr ptr) := by
        rw [List.map_map]; rfl

/-- Removing a timer from the list unlinks it and writes no member but links. -/
theorem TmrHeap.Holds.listRemove {heap : TmrHeap} {timers : TmrState} {fuel : Nat}
    (h : heap.Holds timers) (hfuel : timers.tmrlist.length < fuel) (ptr : Nat) :
    ∃ links, listRemove fuel heap.p_next .tmrlist (.tmr ptr) = some links ∧
      Linked links (links .tmrlist) (timers.nodes.erase (.tmr ptr)) ∧
      (.tmr ptr ∉ timers.nodes → links = heap.p_next) := by
  have hlength : timers.nodes.length < fuel := by
    rw [TmrState.nodes, List.length_map]
    exact hfuel
  have hne : TmrAddr.tmrlist ≠ .tmr ptr := by
    intro heq
    cases heq
  obtain ⟨links, hloop, hlinked, -, hkeep⟩ :=
    listRemoveLoop_linked h.linked timers.tmrlist_notMem hne hlength
  exact ⟨links, hloop, hlinked, hkeep⟩

/-- `tmr_unschedule` ends, takes the timer out of the list and changes nothing if it is not in. -/
theorem TmrHeap.Holds.tmrUnschedule {heap : TmrHeap} {timers : TmrState} {fuel : Nat}
    (h : heap.Holds timers) (hfuel : timers.tmrlist.length < fuel) (ptr : Nat) :
    ∃ after, heap.tmrUnschedule fuel (.tmr ptr) = some after ∧
      after.Holds (timers.step (.unschedule ptr)) ∧
      (.tmr ptr ∉ timers.nodes → after = heap) := by
  obtain ⟨links, hremove, hlinked, hkeep⟩ := h.listRemove hfuel ptr
  refine ⟨{ heap with p_next := links }, ?_, ⟨h.systick, ?_, ?_⟩, ?_⟩
  · rw [TmrHeap.tmrUnschedule, hremove]
    rfl
  · show Linked links (links .tmrlist) ((BmsNode.tmrUnschedule timers.tmrlist ptr).map Tmr.addr)
    rw [timers.nodes_tmrUnschedule]
    exact hlinked
  · intro tmr hmem
    exact h.members tmr (List.mem_of_mem_eraseP hmem)
  · intro hnot
    rw [hkeep hnot]

/-- `tmr_schedule` ends and puts the timer, filled in, at the front. -/
theorem TmrHeap.Holds.tmrSchedule {heap : TmrHeap} {timers : TmrState} {fuel : Nat}
    (h : heap.Holds timers) (hfuel : timers.tmrlist.length < fuel) (ptr : Nat) (id : UInt8)
    (duration : UInt16) (periodic : Bool) :
    ∃ after, heap.tmrSchedule fuel (.tmr ptr) id duration periodic = some after ∧
      after.Holds (timers.step (.schedule ptr id duration periodic)) := by
  obtain ⟨rest, hremove, hrest, -⟩ := h.tmrUnschedule hfuel ptr
  rw [TmrHeap.tmrSchedule, hremove, Option.map_some]
  -- the address is out of the list behind it, since `tmr_unschedule` has just removed it
  have hout : TmrAddr.tmr ptr ∉ (timers.step (.unschedule ptr)).nodes := by
    show TmrAddr.tmr ptr ∉ (BmsNode.tmrUnschedule timers.tmrlist ptr).map Tmr.addr
    rw [timers.nodes_tmrUnschedule]
    exact h.linked.nodup.not_mem_erase
  refine ⟨_, rfl, ⟨hrest.systick, ?_, ?_⟩⟩
  · have hhead : TmrAddr.tmrlist ∉ .tmr ptr :: (timers.step (.unschedule ptr)).nodes := by
      intro hmem
      rcases List.mem_cons.mp hmem with heq | hmem
      · cases heq
      · exact TmrState.tmrlist_notMem _ hmem
    have hfirst : listAdd rest.p_next .tmrlist (.tmr ptr) .tmrlist = some (TmrAddr.tmr ptr) := by
      unfold listAdd
      exact Function.update_self ..
    show Linked (listAdd rest.p_next .tmrlist (.tmr ptr))
      (listAdd rest.p_next .tmrlist (.tmr ptr) .tmrlist)
      (.tmr ptr :: (timers.step (.unschedule ptr)).nodes)
    rw [hfirst]
    exact hrest.linked.insert hhead hout
  · intro tmr hmem
    rcases List.mem_cons.mp hmem with rfl | hmem
    · refine ⟨?_, ?_, ?_⟩
      · show Function.update _ _ _ _ = _
        rw [hrest.systick]
        exact Function.update_self ..
      · exact Function.update_self ..
      · exact Function.update_self ..
    · have hne : tmr.addr ≠ .tmr ptr := by
        intro heq
        exact hout (heq ▸ List.mem_map_of_mem hmem)
      have hmembers := hrest.members tmr hmem
      refine ⟨?_, ?_, ?_⟩
      · exact (Function.update_of_ne hne ..).trans hmembers.1
      · exact (Function.update_of_ne hne ..).trans hmembers.2.1
      · exact (Function.update_of_ne hne ..).trans hmembers.2.2

/-- The loop of `tmr_process` stops at the first expired timer ahead of it, or at the end. -/
theorem TmrHeap.tmrProcessLoop_eq {heap : TmrHeap} {tmrlist : List Tmr} {start : Option TmrAddr}
    {limit fuel : Nat} (hlinked : Linked heap.p_next start (tmrlist.map Tmr.addr))
    (hmembers : ∀ tmr ∈ tmrlist, heap.timeout tmr.addr = tmr.timeout)
    (hfuel : tmrlist.length < fuel) :
    heap.tmrProcessLoop limit fuel start =
      match tmrlist.find? fun tmr => tmrExpired heap.systick tmr.timeout with
      | none => some (none, heap)
      | some tmr => heap.tmrProcessExpired limit tmr.addr := by
  induction tmrlist generalizing start fuel with
  | nil =>
      cases fuel with
      | zero => exact absurd hfuel (Nat.not_lt_zero _)
      | succ fuel =>
          have hnull : start = none := hlinked
          rw [hnull]
          rfl
  | cons tmr rest ih =>
      cases fuel with
      | zero => exact absurd hfuel (Nat.not_lt_zero _)
      | succ fuel =>
          rw [hlinked.1, List.find?_cons]
          show (if tmrExpired heap.systick (heap.timeout tmr.addr) then _ else _) = _
          rw [hmembers tmr (List.mem_cons_self ..)]
          cases tmrExpired heap.systick tmr.timeout with
          | true => rfl
          | false =>
              exact ih hlinked.2 (fun other hmem => hmembers other (List.mem_cons_of_mem _ hmem))
                (Nat.lt_of_succ_lt_succ hfuel)

/-- Refreshing a timer keeps every address of the list. -/
theorem map_addr_refresh (before after : List Tmr) (tmr : Tmr) :
    (before ++ tmr.refresh :: after).map Tmr.addr = (before ++ tmr :: after).map Tmr.addr := by
  rw [List.map_append, List.map_append]
  rfl

/-- The other timers of a list of distinct addresses are at other addresses. -/
theorem addr_ne_of_nodup {before after : List Tmr} {tmr other : Tmr}
    (hnodup : ((before ++ tmr :: after).map Tmr.addr).Nodup) (hmem : other ∈ before ++ after) :
    other.addr ≠ tmr.addr := by
  rw [List.map_append, List.map_cons, List.nodup_middle, List.nodup_cons, ← List.map_append]
    at hnodup
  intro heq
  exact hnodup.1 (heq ▸ List.mem_map_of_mem hmem)

/-- In a list of distinct addresses, removing the address of a timer removes that timer. -/
theorem erase_map_addr {before after : List Tmr} {tmr : Tmr}
    (hnodup : ((before ++ tmr :: after).map Tmr.addr).Nodup) :
    ((before ++ tmr :: after).map Tmr.addr).erase tmr.addr = (before ++ after).map Tmr.addr := by
  rw [List.map_append, List.map_cons] at hnodup
  have hout : tmr.addr ∉ before.map Tmr.addr := fun hmem =>
    (List.nodup_append.mp hnodup).2.2 _ hmem _ (List.mem_cons_self ..) rfl
  rw [List.map_append, List.map_cons, List.erase_append_right _ hout, List.erase_cons_head,
    List.map_append]

/-- Storing the next timeout of a periodic timer refreshes it in place. -/
theorem TmrHeap.Holds.refresh {heap : TmrHeap} {timers : TmrState} {before after : List Tmr}
    {tmr : Tmr} (h : heap.Holds timers) (hsplit : timers.tmrlist = before ++ tmr :: after) :
    TmrHeap.Holds
      { heap with
        timeout := Function.update heap.timeout tmr.addr (tmr.timeout + tmr.periodic) }
      { timers with tmrlist := before ++ tmr.refresh :: after } := by
  have hnodes : timers.nodes = (before ++ tmr :: after).map Tmr.addr := by
    rw [TmrState.nodes, hsplit]
  have hnodup := h.linked.nodup
  rw [hnodes] at hnodup
  refine ⟨h.systick, ?_, ?_⟩
  · show Linked heap.p_next (heap.p_next .tmrlist) ((before ++ tmr.refresh :: after).map Tmr.addr)
    rw [map_addr_refresh, ← hnodes]
    exact h.linked
  · intro other hmem
    have hcases : other = tmr.refresh ∨ other ∈ before ++ after := by
      simpa [or_left_comm] using hmem
    rcases hcases with rfl | hother
    · have hmembers := h.members tmr (by simp [hsplit])
      exact ⟨Function.update_self .., hmembers.2⟩
    · have hmembers := h.members other (by
        rw [hsplit]
        exact List.mem_append.mpr ((List.mem_append.mp hother).imp_right (List.mem_cons_of_mem _)))
      refine ⟨?_, hmembers.2⟩
      exact (Function.update_of_ne (addr_ne_of_nodup hnodup hother) ..).trans hmembers.1

/-- Unlinking a one-shot timer takes it out of the list. -/
theorem TmrHeap.Holds.remove {heap : TmrHeap} {timers : TmrState} {before after : List Tmr}
    {tmr : Tmr} {links : TmrAddr → Option TmrAddr} (h : heap.Holds timers)
    (hsplit : timers.tmrlist = before ++ tmr :: after)
    (hlinked : Linked links (links .tmrlist) (timers.nodes.erase tmr.addr)) :
    TmrHeap.Holds { heap with p_next := links } { timers with tmrlist := before ++ after } := by
  have hnodes : timers.nodes = (before ++ tmr :: after).map Tmr.addr := by
    rw [TmrState.nodes, hsplit]
  have hnodup := h.linked.nodup
  rw [hnodes] at hnodup hlinked
  refine ⟨h.systick, ?_, ?_⟩
  · show Linked links (links .tmrlist) ((before ++ after).map Tmr.addr)
    rw [← erase_map_addr hnodup]
    exact hlinked
  · intro other hother
    apply h.members other
    rw [hsplit]
    exact List.mem_append.mpr ((List.mem_append.mp hother).imp_right (List.mem_cons_of_mem _))

/-- `tmr_process` ends, returns the timer the list model returns and keeps the relation. -/
theorem TmrHeap.Holds.tmrProcess {heap : TmrHeap} {timers : TmrState} {fuel : Nat}
    (h : heap.Holds timers) (hfuel : timers.tmrlist.length < fuel) :
    ∃ after, heap.tmrProcess fuel = some ((timers.result .process).map TmrAddr.tmr, after) ∧
      after.Holds (timers.step .process) := by
  have hloop : heap.tmrProcess fuel = _ :=
    TmrHeap.tmrProcessLoop_eq h.linked (fun tmr hmem => (h.members tmr hmem).1) hfuel
  rw [h.systick] at hloop
  rw [hloop, TmrState.result, TmrState.step]
  cases hfind : timers.tmrlist.find? fun tmr => tmrExpired timers.systick tmr.timeout with
  | none =>
      rw [tmrProcess_of_none hfind]
      exact ⟨heap, rfl, h⟩
  | some tmr =>
      obtain ⟨before, after, hsplit, hprocess⟩ := tmrProcess_of_some hfind
      have hmembers := h.members tmr (by simp [hsplit])
      show ∃ after, heap.tmrProcessExpired fuel tmr.addr = _ ∧ _
      rw [hprocess, TmrHeap.tmrProcessExpired, hmembers.1, hmembers.2.1]
      by_cases hperiodic : tmr.periodic ≠ 0
      · rw [if_pos hperiodic, if_pos hperiodic]
        exact ⟨_, rfl, h.refresh hsplit⟩
      · rw [if_neg hperiodic, if_neg hperiodic]
        obtain ⟨links, hremove, hlinked, -⟩ := h.listRemove hfuel tmr.ptr
        refine ⟨{ heap with p_next := links }, ?_, h.remove hsplit hlinked⟩
        show (BmsNode.listRemove fuel heap.p_next .tmrlist (.tmr tmr.ptr)).map _ = _
        rw [hremove]
        rfl

/-! ## Runs of the timer module on its memory -/

/-- An operation on the memory, with the pointer it returns. -/
def TmrHeap.perform (fuel : Nat) (heap : TmrHeap) : TmrOp → Option (Option TmrAddr × TmrHeap)
  | .tick => some (none, { heap with systick := heap.systick + 1 })
  | .schedule ptr id duration periodic =>
      (heap.tmrSchedule fuel (.tmr ptr) id duration periodic).map fun heap => (none, heap)
  | .unschedule ptr => (heap.tmrUnschedule fuel (.tmr ptr)).map fun heap => (none, heap)
  | .process => heap.tmrProcess fuel

/-- The order the list is to have after an operation: scheduling moves a timer to the front,
unscheduling removes it, and processing removes the timer it returns if that is a one-shot. -/
def TmrHeap.nextOrder (heap : TmrHeap) (order : List TmrAddr) :
    TmrOp → Option TmrAddr → List TmrAddr
  | .tick, _ => order
  | .schedule ptr _ _ _, _ => .tmr ptr :: order.erase (.tmr ptr)
  | .unschedule ptr, _ => order.erase (.tmr ptr)
  | .process, none => order
  | .process, some p_tmr => if heap.periodic p_tmr = 0 then order.erase p_tmr else order

/-- An operation on the memory together with the order to expect, which the result of the operation
decides and the links play no part in. -/
def TmrHeap.watch (fuel : Nat) (state : TmrHeap × List TmrAddr) (op : TmrOp) :
    Option (TmrHeap × List TmrAddr) :=
  (state.1.perform fuel op).map fun (result, heap) =>
    (heap, state.1.nextOrder state.2 op result)

/-- Every operation ends, returns what the list model returns and keeps the relation. -/
theorem TmrHeap.Holds.perform {heap : TmrHeap} {timers : TmrState} {fuel : Nat}
    (h : heap.Holds timers) (hfuel : timers.tmrlist.length < fuel) (op : TmrOp) :
    ∃ after, heap.perform fuel op = some ((timers.result op).map TmrAddr.tmr, after) ∧
      after.Holds (timers.step op) := by
  cases op with
  | tick =>
      refine ⟨_, rfl, ⟨?_, h.linked, h.members⟩⟩
      show heap.systick + 1 = timers.systick + 1
      rw [h.systick]
  | schedule ptr id duration periodic =>
      obtain ⟨after, hschedule, hafter⟩ := h.tmrSchedule hfuel ptr id duration periodic
      refine ⟨after, ?_, hafter⟩
      rw [TmrHeap.perform, hschedule]
      rfl
  | unschedule ptr =>
      obtain ⟨after, hunschedule, hafter, -⟩ := h.tmrUnschedule hfuel ptr
      refine ⟨after, ?_, hafter⟩
      rw [TmrHeap.perform, hunschedule]
      rfl
  | process => exact h.tmrProcess hfuel

/-- The order to expect is the order of the list model. -/
theorem TmrHeap.Holds.nextOrder {heap : TmrHeap} {timers : TmrState} (h : heap.Holds timers)
    (op : TmrOp) :
    heap.nextOrder timers.nodes op ((timers.result op).map TmrAddr.tmr) =
      (timers.step op).nodes := by
  cases op with
  | tick => rfl
  | schedule ptr id duration periodic =>
      show _ :: _ = _ :: (BmsNode.tmrUnschedule timers.tmrlist ptr).map Tmr.addr
      rw [timers.nodes_tmrUnschedule]
      rfl
  | unschedule ptr => exact (timers.nodes_tmrUnschedule ptr).symm
  | process =>
      rw [TmrState.result, TmrState.step]
      cases hfind : timers.tmrlist.find? fun tmr => tmrExpired timers.systick tmr.timeout with
      | none =>
          rw [tmrProcess_of_none hfind]
          rfl
      | some tmr =>
          obtain ⟨before, after, hsplit, hprocess⟩ := tmrProcess_of_some hfind
          have hnodes : timers.nodes = (before ++ tmr :: after).map Tmr.addr := by
            rw [TmrState.nodes, hsplit]
          have hnodup := h.linked.nodup
          rw [hnodes] at hnodup ⊢
          rw [hprocess]
          by_cases hperiodic : tmr.periodic ≠ 0
          · rw [if_pos hperiodic]
            show (if heap.periodic tmr.addr = 0 then _ else _) =
              (before ++ tmr.refresh :: after).map Tmr.addr
            rw [(h.members tmr (by simp [hsplit])).2.1, if_neg hperiodic, map_addr_refresh]
          · rw [if_neg hperiodic]
            show (if heap.periodic tmr.addr = 0 then (List.map _ _).erase tmr.addr else _) =
              (before ++ after).map Tmr.addr
            rw [(h.members tmr (by simp [hsplit])).2.1, if_pos (not_not.mp hperiodic),
              erase_map_addr hnodup]

/-- An operation lengthens the list by at most one. -/
theorem TmrState.length_step (timers : TmrState) (op : TmrOp) :
    (timers.step op).tmrlist.length ≤ timers.tmrlist.length + 1 := by
  cases op with
  | tick => exact Nat.le_succ _
  | schedule ptr id duration periodic =>
      exact Nat.succ_le_succ List.length_eraseP_le
  | unschedule ptr => exact Nat.le_succ_of_le List.length_eraseP_le
  | process =>
      rw [TmrState.step]
      cases hfind : timers.tmrlist.find? fun tmr => tmrExpired timers.systick tmr.timeout with
      | none =>
          rw [tmrProcess_of_none hfind]
          exact Nat.le_succ _
      | some tmr =>
          obtain ⟨before, after, hsplit, hprocess⟩ := tmrProcess_of_some hfind
          rw [hprocess, hsplit]
          split
          · simp only [List.length_append, List.length_cons]
            omega
          · simp only [List.length_append, List.length_cons]
            omega

/-- A run on the memory follows the list model: it does not run out of fuel, and ends in a memory
that holds the timers of the list model in the order to expect. -/
theorem TmrHeap.Holds.follow {heap : TmrHeap} {timers : TmrState} {fuel : Nat} (ops : List TmrOp)
    (h : heap.Holds timers) (hfuel : timers.tmrlist.length + ops.length < fuel) :
    ∃ last, follow (TmrHeap.watch fuel) (heap, timers.nodes) ops =
        some (last, (run TmrState.step timers ops).nodes) ∧
      last.Holds (run TmrState.step timers ops) ∧
      (run TmrState.step timers ops).tmrlist.length < fuel := by
  induction ops generalizing heap timers with
  | nil => exact ⟨heap, rfl, h, hfuel⟩
  | cons op ops ih =>
      rw [List.length_cons] at hfuel
      have hroom : timers.tmrlist.length < fuel := by omega
      have hnext : (timers.step op).tmrlist.length + ops.length < fuel := by
        have hlength := timers.length_step op
        omega
      obtain ⟨after, hperform, hafter⟩ := h.perform hroom op
      obtain ⟨last, hfollow, hlast⟩ := ih hafter hnext
      refine ⟨last, ?_, hlast⟩
      have hwatch : TmrHeap.watch fuel (heap, timers.nodes) op =
          some (after, (timers.step op).nodes) := by
        rw [TmrHeap.watch, hperform, ← h.nextOrder op]
        rfl
      rw [Transition.follow, hwatch]
      exact hfollow

/-- `tmr_init` leaves an empty list, whatever the records hold. -/
theorem TmrHeap.tmrInit_holds (garbage : TmrHeap) :
    garbage.tmrInit.Holds { systick := garbage.systick, tmrlist := [] } := by
  refine ⟨rfl, ?_, ?_⟩
  · show Function.update garbage.p_next .tmrlist none .tmrlist = none
    exact Function.update_self ..
  · intro tmr hmem
    cases hmem

/-- Integrity of the timer list: after any operations, the links visit distinct timers in the order
the operations give them and end in `NULL`, and unscheduling an absent timer changes nothing. Any
fuel above the number of operations is enough for every loop. -/
theorem tmrlist_integrity (garbage : TmrHeap) (ops : List TmrOp) {fuel : Nat}
    (hfuel : ops.length < fuel) :
    ∃ heap order, follow (TmrHeap.watch fuel) (garbage.tmrInit, []) ops = some (heap, order) ∧
      Linked heap.p_next (heap.p_next .tmrlist) order ∧ order.Nodup ∧
      (∀ p_tmr ∈ order, ∃ ptr, p_tmr = .tmr ptr) ∧
      ∀ ptr, .tmr ptr ∉ order → heap.tmrUnschedule fuel (.tmr ptr) = some heap := by
  have hroom : ([] : List Tmr).length + ops.length < fuel := by
    rw [List.length_nil]
    omega
  obtain ⟨heap, hfollow, hholds, hlength⟩ := garbage.tmrInit_holds.follow ops hroom
  refine ⟨heap, _, hfollow, hholds.linked, hholds.linked.nodup, ?_, ?_⟩
  · intro p_tmr hmem
    obtain ⟨tmr, -, hptr⟩ := List.mem_map.mp hmem
    exact ⟨tmr.ptr, hptr.symm⟩
  · intro ptr hout
    obtain ⟨after, hunschedule, -, hkeep⟩ := hholds.tmrUnschedule hlength ptr
    rw [hunschedule, hkeep hout]

/-- A record whose caller never initialized it, linked to itself. -/
def garbageTmrHeap : TmrHeap where
  systick := 65535
  p_next := some
  timeout _ := 0
  periodic _ := 7
  id _ := 9

/-- Two timers, one of them scheduled again and returned at the tick. -/
theorem tmrlist_integrity_two :
    let ops := [.schedule 1 1 1 false, .schedule 2 2 1 true, .schedule 1 1 1 false, .tick,
      .process, .unschedule 1]
    ∃ heap order,
      follow (TmrHeap.watch 7) (garbageTmrHeap.tmrInit, []) ops = some (heap, order) ∧
      Linked heap.p_next (heap.p_next .tmrlist) order ∧ order.Nodup ∧
      (∀ p_tmr ∈ order, ∃ ptr, p_tmr = .tmr ptr) ∧
      ∀ ptr, .tmr ptr ∉ order → heap.tmrUnschedule 7 (.tmr ptr) = some heap :=
  tmrlist_integrity garbageTmrHeap _ (by decide)

end BmsNode
