import Mathlib.Data.List.Basic
import Mathlib.Logic.Function.Basic

/-!
# Singly linked lists over raw links

A memory of nodes in which `next node` is the link stored in `node`, `none` being the
null link. `Linked next start nodes` says that following the links from `start` visits
exactly `nodes` and ends at a null link. Such a list never visits a node twice, and the
two pointer operations on it, a store after a node and an unlink of the node after a
node, are lemmas about `Function.update`.
-/

namespace LinkedList

variable {ν : Type*} {next next' : ν → Option ν}

/-- The nodes visited from a link, in order, up to the null link. -/
def Linked (next : ν → Option ν) : Option ν → List ν → Prop
  | start, [] => start = none
  | start, node :: rest => start = some node ∧ Linked next (next node) rest

/-- A link has one list of nodes behind it. -/
theorem Linked.unique {start : Option ν} {nodes others : List ν}
    (h : Linked next start nodes) (hother : Linked next start others) : nodes = others := by
  induction nodes generalizing start others with
  | nil =>
      cases others with
      | nil => rfl
      | cons other others =>
          have hnull : start = none := h
          rw [hnull] at hother
          exact absurd hother.1 (by simp)
  | cons node rest ih =>
      cases others with
      | nil =>
          have hnull : start = none := hother
          rw [hnull] at h
          exact absurd h.1 (by simp)
      | cons other others =>
          have heq : node = other := Option.some.inj (h.1.symm.trans hother.1)
          subst heq
          rw [ih h.2 hother.2]

/-- What lies behind a node of the list. -/
theorem Linked.behind {start : Option ν} {before after : List ν} {node : ν}
    (h : Linked next start (before ++ node :: after)) : Linked next (next node) after := by
  induction before generalizing start with
  | nil => exact h.2
  | cons first before ih => exact ih h.2

/-- A node met twice would have two lists behind it, of different lengths. -/
theorem Linked.nodup {start : Option ν} {nodes : List ν} (h : Linked next start nodes) :
    nodes.Nodup := by
  induction nodes generalizing start with
  | nil => exact List.nodup_nil
  | cons node rest ih =>
      rw [List.nodup_cons]
      refine ⟨?_, ih h.2⟩
      intro hmem
      obtain ⟨before, after, hsplit⟩ := List.append_of_mem hmem
      have hrest := h.2
      rw [hsplit] at hrest
      have heq := h.2.unique hrest.behind
      have hlength := congrArg List.length (hsplit.symm.trans heq)
      rw [List.length_append, List.length_cons] at hlength
      omega

/-- Only the links of the nodes visited matter. -/
theorem Linked.congr {start : Option ν} {nodes : List ν}
    (hsame : ∀ node ∈ nodes, next' node = next node) (h : Linked next start nodes) :
    Linked next' start nodes := by
  induction nodes generalizing start with
  | nil => exact h
  | cons node rest ih =>
      refine ⟨h.1, ?_⟩
      rw [hsame node (List.mem_cons_self ..)]
      exact ih (fun other hmem => hsame other (List.mem_cons_of_mem _ hmem)) h.2

variable [DecidableEq ν]

/-- A store into a node outside the list leaves the list alone. -/
theorem Linked.update {start : Option ν} {nodes : List ν} {node : ν} (link : Option ν)
    (h : Linked next start nodes) (hout : node ∉ nodes) :
    Linked (Function.update next node link) start nodes := by
  apply h.congr
  intro other hmem
  apply Function.update_of_ne
  rintro rfl
  exact hout hmem

/-- Linking a new node behind `head` puts it first. -/
theorem Linked.insert {head node : ν} {nodes : List ν} (h : Linked next (next head) nodes)
    (hhead : head ∉ node :: nodes) (hnode : node ∉ nodes) :
    Linked (Function.update (Function.update next node (next head)) head (some node))
      (some node) (node :: nodes) := by
  refine ⟨rfl, ?_⟩
  have hne : node ≠ head := fun heq => hhead (heq ▸ List.mem_cons_self ..)
  have hbehind : Function.update (Function.update next node (next head)) head (some node) node =
      next head := by
    rw [Function.update_of_ne hne, Function.update_self]
  rw [hbehind]
  exact (h.update _ hnode).update _ fun hmem => hhead (List.mem_cons_of_mem _ hmem)

/-- Passing over the node behind `prev`, whose own link is cleared, unlinks it. -/
theorem Linked.unlink {prev node : ν} {rest : List ν} (h : Linked next (next prev) (node :: rest))
    (hprev : prev ∉ node :: rest) :
    Linked (Function.update (Function.update next prev (next node)) node none) (next node) rest := by
  have hnode : node ∉ rest := (List.nodup_cons.mp h.nodup).1
  exact (h.2.update _ fun hmem => hprev (List.mem_cons_of_mem _ hmem)).update _ hnode

end LinkedList
