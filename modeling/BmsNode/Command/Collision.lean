import BmsNode.Command.FrameOnly
import BmsNode.Packet.Receive

/-!
# One packet, one reacting node

All nodes on a bus receive the same packet, each in a buffer with its own remains of
earlier ones. With distinct UIDs and distinct addresses the addressing rules pick at
most one of them, and every other node is quiet.
-/

namespace BmsNode

/-- Processing the packet in the buffer has no outside effect: no packet is sent, no test mode
function called and no reset requested, and configuration, EEPROM, test mode and shunt stay. -/
structure Quiet (p : Platform) (n : Node) (buf : RxBuf) : Prop where
  calls : (cmdProcess p (n.deliver buf)).2.calls = n.calls
  cfg : (cmdProcess p (n.deliver buf)).2.cfg = n.cfg
  rig : (cmdProcess p (n.deliver buf)).2.rig = n.rig
  swrr : (cmdProcess p (n.deliver buf)).2.swrr = n.swrr

/-- A node that is not addressed is quiet. -/
theorem quiet_of_not_addressed {p : Platform} {n : Node} {buf : RxBuf}
    (h : ¬Addressed p buf n) : Quiet p n buf := by
  obtain ⟨q, c, heq, -⟩ := cmdProcess_deliver p n buf
  rw [cmdDispatch_not_addressed h] at heq
  constructor <;> rw [heq] <;> rfl

/-- Buffers that hold the same packet have the same frame. -/
theorem sameFrame_of_frame {other buf : RxBuf} (h : other.frame = buf.frame) :
    SameFrame other buf := by
  simp only [RxBuf.frame, Frame.mk.injEq] at h
  obtain ⟨hflags, haddr, hcmd, hlen, hpayload⟩ := h
  intro i hi hframe
  match i with
  | 0 => exact hflags
  | 1 => exact haddr
  | 2 => exact hcmd
  | 3 => exact hlen
  | k + 4 =>
      rw [hlen] at hpayload
      have hget := congrArg (fun bytes => bytes[k]?) hpayload
      simp only [List.getElem?_take, List.getElem?_drop] at hget
      rw [if_pos (by omega), if_pos (by omega)] at hget
      simpa [Nat.add_comm 4 k, hi] using hget

/-- Distinct UIDs and distinct addresses: two nodes addressed by one packet are the same, if an ADDR
packet holds a whole UID. -/
theorem addressed_unique {ι : Type*} {plat : ι → Platform} {nodes : ι → Node} {bufs : ι → RxBuf}
    (huid : Function.Injective fun i => (plat i).uid)
    (haddr : Function.Injective fun i => (nodes i).nodeid) {i j : ι}
    (hframe : (bufs i).frame = (bufs j).frame)
    (hlen : (bufs j).cmd = Cmd.addr → (bufs j).len = 4)
    (hi : Addressed (plat i) (bufs i) (nodes i)) (hj : Addressed (plat j) (bufs j) (nodes j)) :
    i = j := by
  have hsame := sameFrame_of_frame hframe
  obtain ⟨haddrEq, hcmd, -⟩ := hsame.header
  unfold Addressed at hi hj
  by_cases hc : (bufs j).cmd = Cmd.addr
  · -- both hold the UID that the packet carries
    rw [hcmd, if_pos hc] at hi
    rw [if_pos hc] at hj
    apply huid
    have hbyte (k : Fin 12) (hk : k.val < 4) : (bufs i).payload k = (bufs j).payload k :=
      hsame.payload (by rw [hlen hc]; exact hk)
    calc (plat i).uid = (bufs i).uid := hi
      _ = (bufs j).uid := by
        simp only [RxBuf.uid, hbyte 0 (by decide), hbyte 1 (by decide), hbyte 2 (by decide),
          hbyte 3 (by decide)]
      _ = (plat j).uid := hj.symm
  · rw [hcmd, if_neg hc] at hi
    rw [if_neg hc] at hj
    exact haddr (hi.1.symm.trans (haddrEq.trans hj.1))

/-- For any number of nodes with distinct UIDs and distinct addresses, and any packet they all
receive, an ADDR packet with its 4 payload bytes, there is a node such that every other one is
quiet. -/
theorem bus_collisionFree {ι : Type*} [Nonempty ι] (plat : ι → Platform) (nodes : ι → Node)
    (bufs : ι → RxBuf) (f : Frame) (huid : Function.Injective fun i => (plat i).uid)
    (haddr : Function.Injective fun i => (nodes i).nodeid) (hframe : ∀ i, (bufs i).frame = f)
    (hlen : f.cmd = Cmd.addr → f.len = 4) :
    ∃ i, ∀ j, j ≠ i → Quiet (plat j) (nodes j) (bufs j) := by
  have hlen' (i : ι) : (bufs i).cmd = Cmd.addr → (bufs i).len = 4 := by
    have hcmd : (bufs i).frame.cmd = f.cmd := by rw [hframe i]
    have hlenEq : (bufs i).frame.len = f.len := by rw [hframe i]
    exact fun h => hlenEq.trans (hlen (hcmd.symm.trans h))
  by_cases hsome : ∃ i, Addressed (plat i) (bufs i) (nodes i)
  · obtain ⟨i, hi⟩ := hsome
    refine ⟨i, fun j hne => quiet_of_not_addressed fun hj => hne ?_⟩
    exact addressed_unique huid haddr ((hframe j).trans (hframe i).symm) (hlen' i) hj hi
  · obtain ⟨i⟩ := ‹Nonempty ι›
    exact ⟨i, fun j _ => quiet_of_not_addressed fun hj => hsome ⟨j, hj⟩⟩

/-- Two boards that differ in their UID. -/
def twoBoards (i : Fin 2) : Platform := { benchBoard with uid := i.val.toUInt32 }

/-- Two nodes at the addresses 1 and 2. -/
def twoNodes (i : Fin 2) : Node := freshNode (twoBoards i) (i.val.toUInt8 + 1)

/-- The boards and the nodes are distinct. -/
theorem twoNodes_distinct :
    (Function.Injective fun i => (twoBoards i).uid) ∧
      Function.Injective fun i => (twoNodes i).nodeid := by
  refine ⟨fun i j => ?_, fun i j => ?_⟩
  · revert i j
    decide +kernel
  · revert i j
    decide +kernel

/-- A FACTORY packet for address 1 makes one of the two nodes react at most. -/
theorem bus_collisionFree_two :
    ∃ i : Fin 2, ∀ j, j ≠ i → Quiet (twoBoards j) (twoNodes j)
      #v[0, 1, 12, 0, 0, 0, 0, 0, 0, 0, 0, 0, 0, 0, 0, 0] :=
  bus_collisionFree twoBoards twoNodes (fun _ => #v[0, 1, 12, 0, 0, 0, 0, 0, 0, 0, 0, 0, 0, 0, 0, 0])
    ⟨0, 1, 12, 0, []⟩ twoNodes_distinct.1 twoNodes_distinct.2 (fun _ => by decide +kernel)
    (fun h => absurd h (by decide))

end BmsNode
