import BmsNode.Machine.Bus

/-!
# Giving the nodes their addresses

No address is needed for ADDR: it is matched by UID alone, and so is its reply when the
other nodes hear it. A controller that knows the UIDs can therefore give every node an
address on a bus whose nodes have none yet, or share one. Afterwards the addresses are
what it wants, and the bus is the array of servers of `Machine.Bus`.
-/

namespace BmsNode

open Transition Broadcast

/-! ## The packet -/

/-- The ADDR packet that gives the node with a UID an address. -/
def addrPacket (uid : UInt32) (addr : UInt8) : Frame :=
  { flags := 0, addr := addr, cmd := Cmd.addr, len := 4, payload := bytes32 uid }

/-- The reply that carries the same as the packet. -/
def Frame.echo (f : Frame) : Frame := { f with flags := pktFlagReply }

/-- It is a packet. -/
theorem addrPacket_fits (uid : UInt32) (addr : UInt8) : (addrPacket uid addr).Fits := by
  have hmax : (4 : UInt8).toNat ≤ 12 := by decide
  exact ⟨rfl, hmax⟩

/-- The bytes of a word make the word. -/
theorem le32_bytes32 (w : UInt32) :
    le32 w.toUInt8 (w >>> 8).toUInt8 (w >>> 16).toUInt8 (w >>> 24).toUInt8 = w := by
  apply UInt32.toNat_inj.mp
  have hw := w.toNat_lt
  rw [toNat_le32, UInt32.toNat_toUInt8, UInt32.toNat_toUInt8, UInt32.toNat_toUInt8,
    UInt32.toNat_toUInt8, UInt32.toNat_shiftRight, UInt32.toNat_shiftRight,
    UInt32.toNat_shiftRight]
  simp only [Nat.shiftRight_eq_div_pow, UInt32.reduceToNat, Nat.reduceMod, Nat.reducePow]
  omega

section Packet

variable {uid : UInt32} {addr : UInt8} {buf : RxBuf}

/-- What a node reads from the received packet. -/
theorem RxBuf.load_addrPacket (uid : UInt32) (addr : UInt8) (buf : RxBuf) :
    (buf.load (addrPacket uid addr)).cmd = Cmd.addr ∧
      (buf.load (addrPacket uid addr)).addr = addr ∧
      [(buf.load (addrPacket uid addr)).payload 0, (buf.load (addrPacket uid addr)).payload 1,
        (buf.load (addrPacket uid addr)).payload 2, (buf.load (addrPacket uid addr)).payload 3] =
          bytes32 uid := by
  obtain ⟨haddr, hcmd, -⟩ := buf.load_header (addrPacket uid addr)
  have hload (k : Fin 12) (hk : k.val < 4) := buf.load_payload (addrPacket uid addr) (i := k) hk
  refine ⟨hcmd, haddr, ?_⟩
  rw [hload 0 (by decide), hload 1 (by decide), hload 2 (by decide), hload 3 (by decide)]
  rfl

/-- Its UID. -/
theorem RxBuf.uid_addrPacket : (buf.load (addrPacket uid addr)).uid = uid := by
  have hbytes := (RxBuf.load_addrPacket uid addr buf).2.2
  simp only [bytes32, List.cons.injEq, and_true] at hbytes
  obtain ⟨h0, h1, h2, h3⟩ := hbytes
  rw [RxBuf.uid, h0, h1, h2, h3, le32_bytes32]

/-- It is for the node with the UID. -/
theorem addressed_addrPacket {p : Platform} {n : Node} :
    Addressed p (buf.load (addrPacket uid addr)) n ↔ p.uid = uid := by
  rw [Addressed, if_pos (RxBuf.load_addrPacket uid addr buf).1]
  show p.uid = (buf.load (addrPacket uid addr)).uid ↔ p.uid = uid
  rw [RxBuf.uid_addrPacket]

namespace Registers

/-- The address after ADDR. -/
theorem nodeid_write_addr (r : Registers) (addr high : UInt8) :
    (r.write 2 1 addr high).nodeid = addr := by
  rw [write_addr, nodeid, Function.update_self, Int.toNat_natCast, UInt8.ofNat_toNat]

/-- Writing a register again. -/
theorem write_twice (r : Registers) (len id low high : UInt8) :
    (r.write len id low high).write len id low high = r.write len id low high := by
  unfold write
  split_ifs
  · exact Function.update_idem ..
  · rfl

/-- The server with the UID takes the address and echoes the packet, and the others ignore it. -/
theorem serve_addrPacket (p : Platform) (seen : Readings) (r : Registers) :
    r.serve p.identity seen (buf.load (addrPacket uid addr)) =
      if p.uid = uid then (r.write 2 1 addr 0, some (addrPacket uid addr).echo)
      else (r, none) := by
  obtain ⟨hcmd, haddr, hpayload⟩ := RxBuf.load_addrPacket uid addr buf
  rw [serve, if_pos hcmd, RxBuf.uid_addrPacket, haddr, hpayload, hcmd]
  show (if p.uid = uid then
      (r.write 2 1 addr 0, some ((r.write 2 1 addr 0).answer Cmd.addr (bytes32 uid)))
    else (r, none)) = _
  rw [answer, nodeid_write_addr]
  rfl

end Registers

end Packet

/-! ## The bus -/

section Bus

variable {ι : Type*} {plat : ι → Platform} {nodes : ι → Node} {r : ι → Registers}

/-- A bus is one with one responder when the packet is ADDR: its reply carries the same UID. -/
theorem addrPacket_rules (huid : Function.Injective fun i => (plat i).uid) (i : ι)
    (addr : UInt8) :
    Rules (nodeReact plat) otherWork (addrPacket (plat i).uid addr) i
      (fun j n => n.cfg = (nodes j).cfg ∧ n.pkt.rxbuf = (nodes j).pkt.rxbuf)
      (fun j n => n.cfg = (nodes j).cfg)
      (fun f => ∀ j, j ≠ i → ∀ (other : RxBuf) n, ¬Addressed (plat j) (other.load f) n) where
  work_fresh := fun _ _ _ hfresh => hfresh
  work_idle := fun _ _ _ hidle => hidle
  silent := by
    rintro j n hj ⟨hcfg, -⟩
    have hother : ¬Addressed (plat j) (n.pkt.rxbuf.load (addrPacket (plat i).uid addr)) n :=
      fun h => hj (huid (addressed_addrPacket.mp h))
    obtain ⟨hsilent, hsame⟩ := nodeReact_not_addressed hother
    exact ⟨hsilent, hsame.trans hcfg⟩
  answers := by
    rintro n -
    have hself : Addressed (plat i) (n.pkt.rxbuf.load (addrPacket (plat i).uid addr)) n :=
      addressed_addrPacket.mpr rfl
    obtain ⟨sending, addr', b0, b1, b2, b3, hsent, hframe, hbytes⟩ := nodeReact_addr hself rfl
    rw [hsent]
    refine ⟨Nat.le_refl 1, fun f hf j hj other n => ?_⟩
    rw [List.mem_singleton.mp hf, hframe]
    exact addr_not_addressed huid hj hbytes other n
  ignore := by
    intro j n f hj hcfg hanswer
    obtain ⟨hsilent, hsame⟩ := nodeReact_not_addressed (hanswer j hj n.pkt.rxbuf n)
    exact ⟨hsilent, hsame.trans hcfg⟩

variable [DecidableEq ι]

/-- What ADDR does to the servers. -/
theorem busServe_addrPacket (huid : Function.Injective fun i => (plat i).uid) (i : ι)
    (addr : UInt8) :
    busServe plat r (addrPacket (plat i).uid addr) =
      Function.update r i ((r i).write 2 1 addr 0) := by
  funext j
  rw [busServe, Registers.serveFrame, Registers.serve_addrPacket]
  by_cases hj : j = i
  · subst hj
    rw [if_pos rfl, Function.update_self]
  · have hother : (plat j).uid ≠ (plat i).uid := fun h => hj (huid h)
    rw [if_neg hother, Function.update_of_ne hj]

/-- What ADDR packets for some nodes do to the servers, each with the address planned for it. -/
theorem run_addrPackets (huid : Function.Injective fun i => (plat i).uid) (addr : ι → UInt8)
    (order : List ι) :
    run (busServe plat) r (order.map fun i => addrPacket (plat i).uid (addr i)) =
      fun i => if i ∈ order then (r i).write 2 1 (addr i) 0 else r i := by
  induction order generalizing r with
  | nil => simp
  | cons first order ih =>
      rw [List.map_cons, run_cons, ih, busServe_addrPacket huid]
      funext i
      by_cases hi : i = first
      · subst hi
        rw [Function.update_self, Registers.write_twice]
        simp
      · rw [Function.update_of_ne hi]
        simp [hi]

/-- A round with ADDR: the node with the UID echoes it, and no other node sends anything. -/
theorem Mirrors.addr_round (h : Mirrors nodes r) (huid : Function.Injective fun i => (plat i).uid)
    (i : ι) (addr : UInt8) {actions : List (Broadcast.Action ι Node)}
    (hdrained : Meets (Broadcast.step (nodeReact plat) otherWork) Drained
      (start nodes (addrPacket (plat i).uid addr)) actions) :
    let packet := addrPacket (plat i).uid addr
    let last := run (Broadcast.step (nodeReact plat) otherWork) (start nodes packet) actions
    last.Quiet → Mirrors last.parties (busServe plat r packet) ∧
      AnsweredByOne plat r packet last ∧
      last.frames = [packet.echo] := by
  intro packet last hquiet
  obtain ⟨hnext, hanswered, -, seen, buf, -, hframes⟩ :=
    h.round (addrPacket_fits _ addr) (fun _ => rfl)
      (fun j hj buf haddressed => hj (huid (addressed_addrPacket.mp haddressed)))
      (addrPacket_rules huid i addr) hdrained hquiet
  rw [Registers.serve_addrPacket, if_pos rfl] at hframes
  exact ⟨hnext, hanswered, hframes⟩

/-- A packet that gives a node an address, or an orderly one. -/
def Planned (plat : ι → Platform) (r : ι → Registers) (f : Frame) : Prop :=
  (∃ i addr, f = addrPacket (plat i).uid addr) ∨ Orderly plat r f

/-- A round ends well: the answer of one server went out, and ADDR is echoed. -/
def EndsWell (plat : ι → Platform) (r : ι → Registers) (f : Frame) (s : State ι Node Frame) :
    Prop :=
  AnsweredByOne plat r f s ∧ ∀ i addr, f = addrPacket (plat i).uid addr → s.frames = [f.echo]

/-- A round with either of them. -/
theorem Planned.round [Nonempty ι] {f : Frame} (h : Planned plat r f) (hmirrors : Mirrors nodes r)
    (huid : Function.Injective fun i => (plat i).uid)
    {actions : List (Broadcast.Action ι Node)}
    (hdrained : Meets (Broadcast.step (nodeReact plat) otherWork) Drained (start nodes f)
      actions) :
    let last := run (Broadcast.step (nodeReact plat) otherWork) (start nodes f) actions
    last.Quiet → Mirrors last.parties (busServe plat r f) ∧ EndsWell plat r f last := by
  intro last hquiet
  by_cases hassigns : ∃ i addr, f = addrPacket (plat i).uid addr
  · obtain ⟨i, addr, rfl⟩ := hassigns
    obtain ⟨hnext, hanswered, hframes⟩ := hmirrors.addr_round huid i addr hdrained hquiet
    exact ⟨hnext, hanswered, fun _ _ _ => hframes⟩
  · obtain ⟨hnext, hanswered⟩ := (h.resolve_left hassigns).round hmirrors huid hdrained hquiet
    exact ⟨hnext, hanswered, fun i addr hf => absurd ⟨i, addr, hf⟩ hassigns⟩

/-- Commissioning: on a bus of nodes with distinct UIDs, whatever their addresses are, rounds with
ADDR packets for all of them, in any order and with repetitions, give every node the address
planned for it and change no other parameter. With the nodes' transmit rings empty whenever they
handle a packet, the echo of its node goes out for each of these packets, and nothing else. From
then on the bus is an array of register servers for any packets that are orderly at the new
addresses. -/
theorem bus_commissioned [Nonempty ι] (huid : Function.Injective fun i => (plat i).uid)
    (hdurable : ∀ i, Durable (nodes i).cfg) (addr : ι → UInt8) {order : List ι}
    (hall : ∀ i, i ∈ order) {later : List Frame} {last : ι → Node}
    {rounds : List (Frame × State ι Node Frame)}
    (hrounds : Rounds (nodeReact plat) otherWork Drained nodes rounds last)
    (hframes : rounds.map Prod.fst =
      order.map (fun i => addrPacket (plat i).uid (addr i)) ++ later)
    (hlater : Meets (busServe plat) (Orderly plat)
      (fun i => (nodes i).registers.write 2 1 (addr i) 0) later) :
    let assigned := fun i => (nodes i).registers.write 2 1 (addr i) 0
    (∀ i, (assigned i).nodeid = addr i ∧ ∀ id, id ≠ 1 → assigned i id = (nodes i).registers id) ∧
      Mirrors last (run (busServe plat) assigned later) ∧
      ∀ done f s rest, rounds = done ++ (f, s) :: rest →
        EndsWell plat
          (run (busServe plat) (fun i => (nodes i).registers) (done.map Prod.fst)) f s := by
  intro assigned
  have hmirrors : Mirrors nodes fun i => (nodes i).registers := ⟨fun _ => rfl, hdurable⟩
  have hassigned : run (busServe plat) (fun i => (nodes i).registers)
      (order.map fun i => addrPacket (plat i).uid (addr i)) = assigned := by
    rw [run_addrPackets huid]
    funext i
    exact if_pos (hall i)
  have hplanned : Meets (busServe plat) (Planned plat) (fun i => (nodes i).registers)
      (rounds.map Prod.fst) := by
    rw [hframes, meets_append, hassigned]
    constructor
    · rw [meets_iff]
      intro done f rest hsplit
      have hmem : f ∈ order.map fun i => addrPacket (plat i).uid (addr i) := by
        rw [hsplit]
        simp
      obtain ⟨i, -, rfl⟩ := List.mem_map.mp hmem
      exact .inl ⟨i, addr i, rfl⟩
    · rw [meets_iff] at hlater ⊢
      exact fun done f rest hsplit => .inr (hlater done f rest hsplit)
  obtain ⟨hlast, hgood⟩ :=
    hrounds.refines (fun _ _ _ _ h hok hdrained => hok.round h huid hdrained) hmirrors hplanned
  rw [hframes, run_append, hassigned] at hlast
  exact ⟨fun i => ⟨Registers.nodeid_write_addr .., fun id hid =>
    (nodes i).registers.write_other _ _ _ hid.symm⟩, hlast, hgood⟩

end Bus

/-- Two nodes without an address. -/
def freshNodes (i : Fin 2) : Node := freshNode (twoBoards i) 0

/-- The addresses planned for them. -/
def plannedAddr (i : Fin 2) : UInt8 := i.val.toUInt8 + 1

/-- A round in which the two nodes first send what is left and then process what they have in a
given order. -/
def roundInOrder (nodes : Fin 2 → Node) (f : Frame) (order : List (Fin 2)) :
    State (Fin 2) Node Frame :=
  run (Broadcast.step (nodeReact twoBoards) otherWork) (start nodes f)
    (((List.finRange 2).map fun i => .other i (freshNodes i)) ++ order.map .process)

/-- ADDR gives the first of them the address 1 and then the second one the address 2. Afterwards
they have these addresses. -/
theorem bus_commissioned_two :
    let assigned := fun i => (freshNodes i).registers.write 2 1 (plannedAddr i) 0
    let first := roundInOrder freshNodes (addrPacket 0 1) [0, 1, 1]
    let second := roundInOrder first.parties (addrPacket 1 2) [0, 1, 0]
    (∀ i, (assigned i).nodeid = plannedAddr i ∧
        ∀ id, id ≠ 1 → assigned i id = (freshNodes i).registers id) ∧
      Mirrors second.parties (run (busServe twoBoards) assigned []) ∧
      ∀ done f s rest, [(addrPacket 0 1, first), (addrPacket 1 2, second)] =
          done ++ (f, s) :: rest →
        EndsWell twoBoards
          (run (busServe twoBoards) (fun i => (freshNodes i).registers) (done.map Prod.fst))
          f s := by
  intro assigned first second
  have hquiet (s : State (Fin 2) Node Frame) (h : ∀ i : Fin 2, s.inbox i = []) : s.Quiet := h
  have hrounds : Rounds (nodeReact twoBoards) otherWork Drained freshNodes
      [(addrPacket 0 1, first), (addrPacket 1 2, second)] second.parties :=
    .round _ _ (by decide +kernel) (hquiet first (by decide +kernel))
      (.round _ _ (by decide +kernel) (hquiet second (by decide +kernel)) (.none _))
  have hall : ∀ i : Fin 2, i ∈ [0, 1] := by decide
  exact bus_commissioned twoNodes_distinct.1 (fun i => cfgStore_durable (twoBoards i).tail _)
    plannedAddr hall hrounds rfl trivial

end BmsNode
