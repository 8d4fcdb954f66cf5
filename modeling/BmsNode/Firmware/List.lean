import Mathlib.Logic.Function.Basic

/-!
# The linked list module

A model of `list.c` on a memory of links: `p_next p` is the `p_next` member of the
`struct list_node` at `p`, and `none` is `NULL`. The loop of `list_remove` runs on fuel
and has no result when the fuel does not suffice.
-/

namespace BmsNode

variable {Addr : Type} [DecidableEq Addr]

/-- `list_add`. -/
def listAdd (p_next : Addr → Option Addr) (p_head p_node : Addr) : Addr → Option Addr :=
  let p_next := Function.update p_next p_node (p_next p_head)
  Function.update p_next p_head (some p_node)

/-- The loop of `list_remove`, at the link `next` of the node `p_prev`. -/
def listRemoveLoop (p_next : Addr → Option Addr) (p_node : Addr) :
    Nat → Addr → Option Addr → Option (Addr → Option Addr)
  | 0, _, _ => none
  | _ + 1, _, none => some p_next
  | fuel + 1, p_prev, some next =>
      if next = p_node then
        let p_next := Function.update p_next p_prev (p_next p_node)
        some (Function.update p_next p_node none)
      else listRemoveLoop p_next p_node fuel next (p_next next)

/-- `list_remove`. -/
def listRemove (fuel : Nat) (p_next : Addr → Option Addr) (p_head p_node : Addr) :
    Option (Addr → Option Addr) :=
  listRemoveLoop p_next p_node fuel p_head (p_next p_head)

/-- `list_iter`. -/
def listIter (p_next : Addr → Option Addr) : Option Addr → Option Addr
  | none => none
  | some p_node => p_next p_node

end BmsNode
