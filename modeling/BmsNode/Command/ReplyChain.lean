import BmsNode.Command.Collision
import BmsNode.Command.Replies
import BmsNode.Serial.Queue
import BmsNode.Transition.Broadcast

/-!
# Replies on the bus

The nodes as parties on a broadcast bus. No handler looks at the reply flag, so a reply
is kept from being answered by its address alone. `answeredOnce_iff` says for which
packets of the controller that is enough: SETPARM can give a node the address of
another one, and a short ADDR packet can match several nodes.
-/

namespace BmsNode

open Transition Broadcast

/-! ## The bus -/

/-- A node receives a packet and processes it. What it sends goes out if the transmit ring takes the
whole packet, which `cmd_process` reports. A reset restarts the firmware. -/
def nodeReact {ι : Type*} (plat : ι → Platform) (i : ι) (n : Node) (f : Frame) :
    Node × List (Sending Frame) :=
  let (ret, n') := cmdProcess (plat i) (n.deliver (n.pkt.rxbuf.load f))
  let sendings := (sentFrames n n').map fun r => ⟨r, ret⟩
  (if Call.reset ∈ n'.calls.drop n.calls.length then (boot (plat i) n'.cfg.eeprom).node else n',
    sendings)

/-- What a node does between two packets: everything but its configuration and the bytes in its
receive buffer can change. -/
def otherWork (n n' : Node) : Node :=
  { n' with cfg := n.cfg, pkt := { n'.pkt with rxbuf := n.pkt.rxbuf } }

/-- The bus after some actions, from a packet of the controller on. -/
def busRun {ι : Type*} [DecidableEq ι] (plat : ι → Platform) (nodes : ι → Node) (f : Frame)
    (actions : List (Broadcast.Action ι Node)) : State ι Node Frame :=
  run (Broadcast.step (nodeReact plat) otherWork) (start nodes f) actions

/-- SETPARM gives a node the address of another one. -/
def AddressClash {ι : Type*} (nodes : ι → Node) (f : Frame) : Prop :=
  f.cmd = Cmd.setparm ∧ f.addr ≠ 0 ∧ ∃ i j, i ≠ j ∧ (nodes i).nodeid = f.addr ∧
    (nodes j).nodeid ≠ 0 ∧ f.payload = [1, (nodes j).nodeid]

/-- Two nodes take an ADDR packet for their own. -/
def DoubleMatch {ι : Type*} (plat : ι → Platform) (nodes : ι → Node) (f : Frame) : Prop :=
  f.cmd = Cmd.addr ∧ ∃ i j, i ≠ j ∧
    Addressed (plat i) ((nodes i).pkt.rxbuf.load f) (nodes i) ∧
    Addressed (plat j) ((nodes j).pkt.rxbuf.load f) (nodes j)

/-! ## A packet in the buffer -/

/-- The header of a received packet. -/
theorem RxBuf.load_header (buf : RxBuf) (f : Frame) :
    (buf.load f).addr = f.addr ∧ (buf.load f).cmd = f.cmd ∧ (buf.load f).len = f.len := by
  refine ⟨?_, ?_, ?_⟩ <;>
    simp [RxBuf.load, RxBuf.addr, RxBuf.cmd, RxBuf.len, Frame.body]

/-- The payload of a received packet. -/
theorem RxBuf.load_payload (buf : RxBuf) (f : Frame) {i : Fin 12} (hi : i.val < f.payload.length) :
    (buf.load f).payload i = f.payload[i.val] := by
  have hget : f.body[4 + i.val]? = some f.payload[i.val] := by
    rw [Frame.body, List.getElem?_append_right (by simp)]
    simp [hi]
  simp [RxBuf.load, RxBuf.payload, hget]

/-- Whom a packet is for depends on a node's address only. -/
theorem Addressed.congr {p : Platform} {buf : RxBuf} {n n' : Node} (h : n.cfg = n'.cfg) :
    Addressed p buf n ↔ Addressed p buf n' := by
  simp only [Addressed, Node.nodeid, Node.conf, h]

section React

variable {ι : Type*} {plat : ι → Platform} {i : ι} {n : Node} {f : Frame}

/-- The packet module does not count for what was sent. -/
theorem sentFrames_withPkt (n n' : Node) (q : Pkt) (c : CmdTimer) :
    sentFrames n (n'.withPkt q c) = sentFrames n n' := rfl

/-- What a node sends is what the handler of the packet sends. -/
theorem nodeReact_sent (plat : ι → Platform) (i : ι) (n : Node) (f : Frame) :
    ((nodeReact plat i n f).2.map (·.frame)) =
    sentFrames n (cmdDispatch (plat i) (n.pkt.rxbuf.load f) n).2 := by
  obtain ⟨q, c, hprocess, -⟩ := cmdProcess_deliver (plat i) n (n.pkt.rxbuf.load f)
  simp only [nodeReact, hprocess, sentFrames_withPkt, List.map_map]
  exact List.map_id _

/-- A node that is not addressed stays silent and keeps its configuration. -/
theorem nodeReact_not_addressed (h : ¬Addressed (plat i) (n.pkt.rxbuf.load f) n) :
    (nodeReact plat i n f).2 = [] ∧ (nodeReact plat i n f).1.cfg = n.cfg := by
  obtain ⟨q, c, hprocess, -⟩ := cmdProcess_deliver (plat i) n (n.pkt.rxbuf.load f)
  rw [cmdDispatch_not_addressed h] at hprocess
  have hcalls : (n.withPkt q c).calls.drop n.calls.length = [] := by simp [Node.withPkt]
  have hframes : sentFrames n n = [] := Silent.sentFrames (Silent.of_calls rfl)
  simp only [nodeReact, hprocess, hcalls, sentFrames_withPkt, hframes, List.not_mem_nil, if_false,
    List.map_nil]
  exact ⟨trivial, rfl⟩

/-- What an addressed node sends, for any command but ADDR. -/
theorem nodeReact_repliesOnce (h : Addressed (plat i) (n.pkt.rxbuf.load f) n)
    (hcmd : f.cmd ≠ Cmd.addr) :
    (nodeReact plat i n f).2 = [] ∨ ∃ r, (nodeReact plat i n f).2 = [r] ∧
      Reply (n.pkt.rxbuf.load f) (replyAddr (n.pkt.rxbuf.load f)) r.frame := by
  have hsent := nodeReact_sent plat i n f
  obtain hnone | ⟨r, hone, hreply⟩ :=
    cmdDispatch_repliesOnce h (by rw [(n.pkt.rxbuf.load_header f).2.1]; exact hcmd)
  · rw [hnone, List.map_eq_nil_iff] at hsent
    exact .inl hsent
  · rw [hone, List.map_eq_singleton_iff] at hsent
    obtain ⟨sending, hlist, hframe⟩ := hsent
    exact .inr ⟨sending, hlist, hframe ▸ hreply⟩

/-- What an addressed node sends for ADDR: a frame with its UID. -/
theorem nodeReact_addr (h : Addressed (plat i) (n.pkt.rxbuf.load f) n) (hcmd : f.cmd = Cmd.addr) :
    ∃ r addr b0 b1 b2 b3, (nodeReact plat i n f).2 = [r] ∧
      r.frame = ⟨pktFlagReply, addr, Cmd.addr, 4, [b0, b1, b2, b3]⟩ ∧
      (plat i).uid = le32 b0 b1 b2 b3 := by
  have hcmd' : (n.pkt.rxbuf.load f).cmd = Cmd.addr := by
    rw [(n.pkt.rxbuf.load_header f).2.1, hcmd]
  have hsent := nodeReact_sent plat i n f
  obtain ⟨addr, hone⟩ := cmdDispatch_addr_sent h hcmd'
  rw [hone, List.map_eq_singleton_iff] at hsent
  obtain ⟨sending, hlist, hframe⟩ := hsent
  rw [Addressed, if_pos hcmd'] at h
  exact ⟨sending, addr, _, _, _, _, hlist, hframe, h⟩

/-- What an addressed node sends for SETPARM, which goes out if the transmit ring has room. -/
theorem nodeReact_setparm (plat : ι → Platform) (i : ι) (haddr : f.addr = n.nodeid) (hzero : n.nodeid ≠ 0)
    (hcmd : f.cmd = Cmd.setparm) :
    ∃ param, (nodeReact plat i n f).2 =
      [⟨⟨pktFlagReply, replyAddr (n.pkt.rxbuf.load f), Cmd.setparm, 1, [param]⟩,
        decide ((bufCnt n.ser).toNat + 11 ≤ 31)⟩] := by
  obtain ⟨q, c, hprocess, -⟩ := cmdProcess_deliver (plat i) n (n.pkt.rxbuf.load f)
  obtain ⟨haddr', hcmd', -⟩ := n.pkt.rxbuf.load_header f
  rw [cmdDispatch_setparm hzero (haddr'.trans haddr) (hcmd'.trans hcmd)] at hprocess
  simp only [nodeReact]
  generalize n.pkt.rxbuf.load f = buf at haddr' hcmd' hprocess ⊢
  obtain ⟨cfg, hsend⟩ := cmdSetparm_eq (plat i) (haddr'.trans haddr) (hcmd'.trans hcmd)
  have hsent : sentFrames n (cmdSetparm (plat i) buf n).2 =
      [⟨pktFlagReply, replyAddr buf, Cmd.setparm, 1, [buf.payload 0]⟩] := by
    rw [hsend]
    exact Silent.send (Silent.of_calls rfl) _ _ _ rfl
  have hout : (cmdSetparm (plat i) buf n).1 = decide ((bufCnt n.ser).toNat + 11 ≤ 31) := by
    rw [hsend, Bool.eq_iff_iff, decide_eq_true_iff]
    exact pktSend_iff n.txpkt n.ser _ _ _ _ 1 (by decide)
  refine ⟨buf.payload 0, ?_⟩
  simp only [hprocess, sentFrames_withPkt, hsent, hout, List.map_cons, List.map_nil]

end React

/-! ## Whom a reply is for -/

section Inert

variable {ι : Type*} {plat : ι → Platform} {nodes : ι → Node} {f : Frame}

/-- The address in the reply to a packet that sets the address. -/
theorem replyAddr_load (hf : f.Fits) (hcmd : f.cmd = Cmd.setparm) {addr : UInt8}
    (hpayload : f.payload = [1, addr]) (buf : RxBuf) : replyAddr (buf.load f) = addr := by
  obtain ⟨-, hcmd', hlen'⟩ := buf.load_header f
  have hlen : f.len = 2 := by
    have hlength := hf.length
    rw [hpayload] at hlength
    exact UInt8.toNat_inj.mp hlength.symm
  have h0 : (buf.load f).payload 0 = 1 := by
    rw [buf.load_payload f (i := 0) (by simp [hpayload])]
    simp [hpayload]
  have h1 : (buf.load f).payload 1 = addr := by
    rw [buf.load_payload f (i := 1) (by simp [hpayload])]
    simp [hpayload]
  rw [replyAddr, if_pos ⟨hcmd'.trans hcmd, hlen'.trans hlen, h0⟩, h1]

/-- A reply is for no other node, unless SETPARM has just given its sender the other's address. -/
theorem reply_not_addressed (hf : f.Fits) (haddr : Function.Injective fun i => (nodes i).nodeid)
    (hclash : ¬AddressClash nodes f) (hcmd : f.cmd ≠ Cmd.addr) {i j : ι} (hij : j ≠ i) {buf : RxBuf}
    (hi : Addressed (plat i) (buf.load f) (nodes i)) {r : Frame}
    (hr : Reply (buf.load f) (replyAddr (buf.load f)) r) (other : RxBuf) :
    ¬Addressed (plat j) (other.load r) (nodes j) := by
  obtain ⟨haddrF, hcmdF, hlenF⟩ := buf.load_header f
  obtain ⟨haddrR, hcmdR, -⟩ := other.load_header r
  have hrcmd : r.cmd = f.cmd := hr.cmd.trans hcmdF
  rw [Addressed, if_neg (by rw [hcmdF]; exact hcmd), haddrF, hcmdF] at hi
  rw [Addressed, if_neg (by rw [hcmdR, hrcmd]; exact hcmd), haddrR, hcmdR, hrcmd, hr.addr]
  rintro ⟨hsame, huid⟩
  rw [replyAddr] at hsame
  split_ifs at hsame with hset
  · -- SETPARM of the address: the packet would have caused a clash
    obtain ⟨hset, hlen, h0⟩ := hset
    rw [hcmdF] at hset
    have hlength : f.payload.length = 2 := by
      rw [hf.length, ← hlenF, hlen]
      rfl
    have hnonzero (k : ι) (hk : (nodes k).nodeid = 0 → f.cmd = Cmd.uid) : (nodes k).nodeid ≠ 0 := by
      intro hzero
      rw [hk hzero] at hset
      exact absurd hset (by decide)
    have hpayload : f.payload = [1, (nodes j).nodeid] := by
      rw [buf.load_payload f (i := 0) (by omega)] at h0
      rw [buf.load_payload f (i := 1) (by simp [hlength])] at hsame
      obtain ⟨id, addr, hlist⟩ := List.length_eq_two.mp hlength
      simp only [hlist] at h0 hsame ⊢
      exact congrArg₂ (fun id addr => [id, addr]) h0 hsame
    refine hclash ⟨hset, ?_, i, j, hij.symm, hi.1.symm, hnonzero j huid, hpayload⟩
    rw [hi.1]
    exact hnonzero i hi.2
  · rw [haddrF] at hsame
    exact hij (haddr (hsame.symm.trans hi.1))

/-- The reply to ADDR is for no other node. -/
theorem addr_not_addressed (huid : Function.Injective fun i => (plat i).uid) {i j : ι}
    (hij : j ≠ i) {addr b0 b1 b2 b3 : UInt8} (hi : (plat i).uid = le32 b0 b1 b2 b3) (other : RxBuf)
    (n : Node) : ¬Addressed (plat j)
      (other.load ⟨pktFlagReply, addr, Cmd.addr, 4, [b0, b1, b2, b3]⟩) n := by
  obtain ⟨-, hcmd, -⟩ := other.load_header ⟨pktFlagReply, addr, Cmd.addr, 4, [b0, b1, b2, b3]⟩
  have hload (k : Fin 12) (hk : k.val < 4) := other.load_payload
    ⟨pktFlagReply, addr, Cmd.addr, 4, [b0, b1, b2, b3]⟩ (i := k) hk
  rw [Addressed, if_pos hcmd, RxBuf.uid, hload 0 (by decide), hload 1 (by decide),
    hload 2 (by decide), hload 3 (by decide)]
  exact fun hj => hij (huid (hj.trans hi.symm))

/-- A bus on which one node at most is addressed is a bus with one responder: the others keep their
configuration, and no reply of the responder is for one of them. -/
theorem responder_rules (hf : f.Fits) (huid : Function.Injective fun i => (plat i).uid)
    (haddr : Function.Injective fun i => (nodes i).nodeid) (hclash : ¬AddressClash nodes f) {i : ι}
    (hothers : ∀ j, j ≠ i → ¬Addressed (plat j) ((nodes j).pkt.rxbuf.load f) (nodes j)) :
    Rules (nodeReact plat) otherWork f i
      (fun j n => n.cfg = (nodes j).cfg ∧ n.pkt.rxbuf = (nodes j).pkt.rxbuf)
      (fun j n => n.cfg = (nodes j).cfg)
      (fun r => ∀ j, j ≠ i → ∀ other : RxBuf, ¬Addressed (plat j) (other.load r) (nodes j)) where
  work_fresh := fun _ _ _ hfresh => hfresh
  work_idle := fun _ _ _ hidle => hidle
  silent := by
    rintro j n hj ⟨hcfg, hbuf⟩
    have hskip : ¬Addressed (plat j) (n.pkt.rxbuf.load f) n := by
      rw [Addressed.congr hcfg, hbuf]
      exact hothers j hj
    obtain ⟨hsilent, hsame⟩ := nodeReact_not_addressed hskip
    exact ⟨hsilent, hsame.trans hcfg⟩
  answers := by
    rintro n ⟨hcfg, -⟩
    by_cases hi : Addressed (plat i) (n.pkt.rxbuf.load f) n
    · by_cases hcmd : f.cmd = Cmd.addr
      · obtain ⟨r, addr, b0, b1, b2, b3, hsent, hframe, hbytes⟩ := nodeReact_addr hi hcmd
        rw [hsent]
        refine ⟨by simp, fun r' hr' j hj other => ?_⟩
        rw [List.mem_singleton.mp hr', hframe]
        exact addr_not_addressed huid hj hbytes other (nodes j)
      · rcases nodeReact_repliesOnce hi hcmd with hsent | ⟨r, hsent, hreply⟩
        · simp [hsent]
        · rw [hsent]
          refine ⟨by simp, fun r' hr' j hj other => ?_⟩
          rw [List.mem_singleton.mp hr']
          rw [Addressed.congr hcfg] at hi
          exact reply_not_addressed hf haddr hclash hcmd hj hi hreply other
    · simp [(nodeReact_not_addressed hi).1]
  ignore := by
    intro j n r hj hcfg hanswer
    have hskip : ¬Addressed (plat j) (n.pkt.rxbuf.load r) n := by
      rw [Addressed.congr hcfg]
      exact hanswer j hj n.pkt.rxbuf
    obtain ⟨hsilent, hsame⟩ := nodeReact_not_addressed hskip
    exact ⟨hsilent, hsame.trans hcfg⟩

/-- Without two nodes that take an ADDR packet for their own there is a node such that no other one
is addressed. -/
theorem exists_responder [Nonempty ι] (haddr : Function.Injective fun i => (nodes i).nodeid)
    (hmatch : ¬DoubleMatch plat nodes f) :
    ∃ i, ∀ j, j ≠ i → ¬Addressed (plat j) ((nodes j).pkt.rxbuf.load f) (nodes j) := by
  by_cases hsome : ∃ i, Addressed (plat i) ((nodes i).pkt.rxbuf.load f) (nodes i)
  · obtain ⟨i, hi⟩ := hsome
    refine ⟨i, fun j hne hj => ?_⟩
    by_cases hcmd : f.cmd = Cmd.addr
    · exact hmatch ⟨hcmd, i, j, hne.symm, hi, hj⟩
    · obtain ⟨haddrI, hcmdI, -⟩ := (nodes i).pkt.rxbuf.load_header f
      obtain ⟨haddrJ, hcmdJ, -⟩ := (nodes j).pkt.rxbuf.load_header f
      rw [Addressed, if_neg (by rwa [hcmdI]), haddrI] at hi
      rw [Addressed, if_neg (by rwa [hcmdJ]), haddrJ] at hj
      exact hne (haddr (hj.1.symm.trans hi.1))
  · obtain ⟨i⟩ := ‹Nonempty ι›
    exact ⟨i, fun j _ hj => hsome ⟨j, hj⟩⟩

end Inert

/-! ## Runs -/

section Runs

variable {ι : Type*} [DecidableEq ι] {plat : ι → Platform} {nodes : ι → Node} {f : Frame}

/-- A reply to SETPARM that carries another node's address is answered by that node. -/
theorem AddressClash.answered (h : AddressClash nodes f) (hf : f.Fits)
    (haddr : Function.Injective fun i => (nodes i).nodeid) :
    ∃ actions, ¬AnsweredOnce (busRun plat nodes f actions) := by
  obtain ⟨hcmd, hzero, i, j, hij, hi, hj, hpayload⟩ := h
  -- the first node with an empty transmit ring
  let ready : Node := { nodes i with ser := serFlush (nodes i).ser }
  have hready : otherWork (nodes i) ready = ready := rfl
  obtain ⟨param, hfirst⟩ := nodeReact_setparm plat i (n := ready) hi.symm
    (hi.trans_ne hzero) hcmd
  have hempty : bufCnt ready.ser = 0 := bufCnt_serFlush (nodes i).ser
  have hroom : decide ((bufCnt ready.ser).toNat + 11 ≤ 31) = true := by
    rw [hempty]
    decide
  rw [hroom, replyAddr_load hf hcmd hpayload] at hfirst
  -- the second node keeps silent on the packet, and answers the reply
  have hskip : ¬Addressed (plat j) ((nodes j).pkt.rxbuf.load f) (nodes j) := by
    obtain ⟨haddr', hcmd', -⟩ := (nodes j).pkt.rxbuf.load_header f
    rw [Addressed, if_neg (by rw [hcmd', hcmd]; decide), haddr']
    exact fun h => hij (haddr (hi.trans h.1))
  obtain ⟨hsilent, hcfg⟩ := nodeReact_not_addressed hskip
  have hnodeid : (nodeReact plat j (nodes j) f).1.nodeid = (nodes j).nodeid := by
    rw [Node.nodeid, Node.conf, hcfg]
    rfl
  obtain ⟨param', hsecond⟩ := nodeReact_setparm plat j (n := (nodeReact plat j (nodes j) f).1)
    (f := ⟨pktFlagReply, (nodes j).nodeid, Cmd.setparm, 1, [param]⟩) hnodeid.symm
    (hnodeid.trans_ne hj) rfl
  refine ⟨[.other i ready, .process i, .process j, .process j], fun hanswered => ?_⟩
  have hlog := hanswered.1
  simp [busRun, Broadcast.step, start, hready, hij.symm, hfirst, hsilent, hsecond] at hlog

/-- An ADDR packet that two nodes take for their own is answered twice. -/
theorem DoubleMatch.answered (h : DoubleMatch plat nodes f) :
    ∃ actions, ¬AnsweredOnce (busRun plat nodes f actions) := by
  obtain ⟨hcmd, i, j, hij, hi, hj⟩ := h
  obtain ⟨r, -, -, -, -, -, hfirst, -⟩ := nodeReact_addr hi hcmd
  obtain ⟨r', -, -, -, -, -, hsecond, -⟩ := nodeReact_addr hj hcmd
  refine ⟨[.process i, .process j], fun hanswered => ?_⟩
  have hlog := hanswered.2
  simp [busRun, Broadcast.step, start, hij.symm, hfirst, hsecond] at hlog

/-- For any number of nodes with distinct UIDs and distinct addresses, in every run from a packet of
the controller no node sends while it processes another node's frame, and one frame is sent at most,
exactly when the packet neither gives a node the address of another one nor is an ADDR packet that
two nodes take for their own. -/
theorem answeredOnce_iff (plat : ι → Platform) (nodes : ι → Node) (hf : f.Fits)
    (huid : Function.Injective fun i => (plat i).uid)
    (haddr : Function.Injective fun i => (nodes i).nodeid) :
    (∀ actions, AnsweredOnce (busRun plat nodes f actions)) ↔
      ¬AddressClash nodes f ∧ ¬DoubleMatch plat nodes f := by
  constructor
  · intro hall
    refine ⟨fun hclash => ?_, fun hmatch => ?_⟩
    · obtain ⟨actions, hnot⟩ := hclash.answered hf haddr
      exact hnot (hall actions)
    · obtain ⟨actions, hnot⟩ := hmatch.answered
      exact hnot (hall actions)
  · rintro ⟨hclash, hmatch⟩ actions
    cases actions with
    | nil => exact ⟨by simp [busRun, start], by simp [busRun, start]⟩
    | cons action actions =>
        have hnode : Nonempty ι := by
          cases action with
          | process i => exact ⟨i⟩
          | other i _ => exact ⟨i⟩
        obtain ⟨i, hothers⟩ := exists_responder haddr hmatch
        exact responder_invariant (responder_rules hf huid haddr hclash hothers)
          (fun _ => ⟨rfl, rfl⟩) (action :: actions)

end Runs

/-- A PING for address 1 on a bus of two nodes. -/
theorem answeredOnce_ping :
    AnsweredOnce (busRun twoBoards twoNodes ⟨0, 1, 1, 0, []⟩
      [.process 1, .process 0, .process 1, .process 1]) :=
  (answeredOnce_iff twoBoards twoNodes ⟨rfl, by decide⟩ twoNodes_distinct.1
    twoNodes_distinct.2).mpr
    ⟨fun h => absurd h.1 (by decide), fun h => absurd h.1 (by decide)⟩ _

/-- SETPARM gives the node at address 1 the address 2, whose node answers the reply. -/
theorem busRun_addressClash :
    (Function.Injective fun i => (twoBoards i).uid) ∧
      (Function.Injective fun i => (twoNodes i).nodeid) ∧
      ¬AnsweredOnce (busRun twoBoards twoNodes ⟨0, 1, 9, 2, [1, 2]⟩
        [.process 0, .process 1, .process 1]) := by
  refine ⟨twoNodes_distinct.1, twoNodes_distinct.2, ?_⟩
  decide +kernel

end BmsNode
