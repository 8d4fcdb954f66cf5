import BmsNode.Command.Addressing
import BmsNode.Config.Table
import BmsNode.Packet.RoundTrip

/-!
# What a node sends

A node sends at most one frame for a packet it processes. The frame carries the reply
flag and the command of the packet, and the node's address at that moment: the address
of the packet, unless SETPARM has just changed it. To send is here to hand a frame to
`pkt_send`; that the transmit ring takes it and that it goes out is shown in
`Machine.ReplyRoom` and `Machine.Transmission`.
-/

namespace BmsNode

/-! ## Sent frames -/

/-- The frame of a call of `pkt_send`. -/
def Call.frame? : Call → Option Frame
  | .pktSend flags addr cmd payload =>
      some { flags := flags, addr := addr, cmd := cmd, len := UInt8.ofNat payload.length
             payload := payload }
  | _ => none

/-- The frames handed to `pkt_send` between a state of a node and a later one, also those that it
did not queue. -/
def sentFrames (n n' : Node) : List Frame := (n'.calls.drop n.calls.length).filterMap Call.frame?

/-- Nothing was handed to `pkt_send` up to a later state. -/
def Silent (n n' : Node) : Prop :=
  ∃ calls, n'.calls = n.calls ++ calls ∧ calls.filterMap Call.frame? = []

/-- Without a call nothing is handed to it. -/
theorem Silent.of_calls {n n' : Node} (h : n'.calls = n.calls) : Silent n n' :=
  ⟨[], by simpa using h, rfl⟩

/-- There are no frames of a silent node. -/
theorem Silent.sentFrames {n n' : Node} (h : Silent n n') : sentFrames n n' = [] := by
  obtain ⟨calls, hcalls, hnone⟩ := h
  rw [BmsNode.sentFrames, hcalls, List.drop_left, hnone]

/-- A silent node that then calls `pkt_send` has handed it one frame. -/
theorem Silent.send {n n' : Node} (h : Silent n n') (flags addr cmd : UInt8)
    {payload : List UInt8} {len : UInt8} (hlen : payload.length = len.toNat) :
    BmsNode.sentFrames n (n'.send flags addr cmd payload len).2 = [⟨flags, addr, cmd, len, payload⟩] := by
  obtain ⟨calls, hcalls, hnone⟩ := h
  have htake : payload.take len.toNat = payload := by rw [← hlen, List.take_length]
  simp [BmsNode.sentFrames, Node.send, hcalls, List.append_assoc, hnone, Call.frame?, htake, hlen]

/-! ## Replies -/

/-- A frame that replies to the packet in a buffer. -/
structure Reply (buf : RxBuf) (addr : UInt8) (r : Frame) : Prop where
  flags : r.flags = pktFlagReply
  addr : r.addr = addr
  cmd : r.cmd = buf.cmd
  fits : r.Fits

/-- At most one reply to the packet in a buffer is sent. -/
def RepliesOnce (buf : RxBuf) (addr : UInt8) (n n' : Node) : Prop :=
  sentFrames n n' = [] ∨ ∃ r, sentFrames n n' = [r] ∧ Reply buf addr r

/-- A silent node that then sends has replied. -/
theorem Silent.reply {n n' : Node} (h : Silent n n') {buf : RxBuf} {addr cmd : UInt8}
    (hcmd : cmd = buf.cmd) {payload : List UInt8} {len : UInt8}
    (hlen : payload.length = len.toNat) (hmax : len.toNat ≤ 12) :
    RepliesOnce buf addr n (n'.send pktFlagReply addr cmd payload len).2 :=
  .inr ⟨_, h.send pktFlagReply addr cmd hlen, rfl, rfl, hcmd, hlen, hmax⟩

/-- The address in the reply to a packet: SETPARM of the address answers from the new one. -/
def replyAddr (buf : RxBuf) : UInt8 :=
  if buf.cmd = Cmd.setparm ∧ buf.len = 2 ∧ buf.payload 0 = 1 then buf.payload 1 else buf.addr

/-- Other commands are answered from the address of the packet. -/
theorem replyAddr_of_ne {buf : RxBuf} (h : buf.cmd ≠ Cmd.setparm) : replyAddr buf = buf.addr :=
  if_neg fun hset => h hset.1

/-- SETPARM changes the configuration and sends from the address that is then the node's. -/
theorem cmdSetparm_eq (p : Platform) {buf : RxBuf} {n : Node} (haddr : buf.addr = n.nodeid)
    (hcmd : buf.cmd = Cmd.setparm) : ∃ cfg, cmdSetparm p buf n =
      Node.send { n with cfg := cfg } pktFlagReply (replyAddr buf) Cmd.setparm [buf.payload 0] 1 := by
  have hnew : replyAddr buf = (cfgSet p.tail n.cfg buf.len
      #v[buf.payload 0, buf.payload 1, buf.payload 2]).2.gCfgParms.addr := by
    rw [cfgSet_addr, replyAddr, haddr]
    by_cases hset : buf.len = 2 ∧ buf.payload 0 = 1
    · rw [if_pos ⟨hcmd, hset⟩]
      exact (if_pos hset).symm
    · rw [if_neg fun h => hset h.2]
      exact (if_neg hset).symm
  rw [hnew]
  simp only [cmdSetparm]
  generalize (cfgSet p.tail n.cfg buf.len _).2 = cfg
  exact ⟨cfg, rfl⟩

/-- A test function is started or stopped before the acknowledgement, and nothing is sent by that.
-/
theorem cmdTestmode_eq (pkt : RxBuf) (n : Node) :
    ∃ before, Silent n before ∧ before.ser = n.ser ∧ cmdTestmode pkt n = cmdAck pkt before := by
  refine ⟨_, ?_, ?_, rfl⟩
  · split_ifs
    · exact ⟨[.testmodeOff], rfl, rfl⟩
    · exact ⟨[.testmodeOn _ _ _], rfl, rfl⟩
    · exact ⟨[.testmodeOn _ _ _], rfl, rfl⟩
    · exact Silent.of_calls rfl
  · split_ifs <;> rfl

/-- Every command addressed to a node is replied to once at most. -/
theorem cmdSwitch_repliesOnce (p : Platform) {buf : RxBuf} {n : Node} (haddr : buf.addr = n.nodeid) :
    RepliesOnce buf (replyAddr buf) n (cmdSwitch p buf n).2 := by
  have hself : Silent n n := Silent.of_calls rfl
  have hother (hcmd : buf.cmd ≠ Cmd.setparm) : n.nodeid = replyAddr buf :=
    haddr.symm.trans (replyAddr_of_ne hcmd).symm
  refine cmdSwitch_rule (P := fun handler => RepliesOnce buf (replyAddr buf) n (handler n).2) p buf
    ?ack ?dfu ?uid ?adcraw ?status ?getparm ?setparm ?testmode ?factory (.inl hself.sentFrames)
  case ack =>
    intro hcmd
    rw [replyAddr_of_ne (by obtain hcmd | hcmd | hcmd := hcmd <;> rw [hcmd] <;> decide)]
    exact hself.reply rfl rfl (by decide)
  case dfu =>
    intro _
    exact .inl (Silent.sentFrames ⟨[.reset], rfl, rfl⟩)
  case uid =>
    intro hcmd
    rw [← hother (by rw [hcmd]; decide)]
    exact hself.reply hcmd.symm rfl (by decide)
  case adcraw =>
    intro hcmd
    rw [← hother (by rw [hcmd]; decide)]
    exact hself.reply hcmd.symm (by simp [bytes16]) (by decide)
  case status =>
    intro hcmd
    rw [← hother (by rw [hcmd]; decide)]
    obtain ⟨timeout, pld, hlength, hstatus⟩ := cmdStatus_eq p n
    rw [hstatus]
    exact Silent.reply (Silent.of_calls rfl) hcmd.symm hlength (by decide)
  case getparm =>
    intro hcmd
    rw [← hother (by rw [hcmd]; decide)]
    obtain ⟨hlength, hmax⟩ := cfgGet_length n.cfg (buf.payload 0)
    simp only [cmdGetparm]
    exact hself.reply hcmd.symm hlength (by omega)
  case setparm =>
    intro hcmd
    obtain ⟨cfg, hsend⟩ := cmdSetparm_eq p haddr hcmd
    rw [hsend]
    exact Silent.reply (Silent.of_calls rfl) hcmd.symm rfl (by decide)
  case testmode =>
    intro hcmd
    rw [replyAddr_of_ne (by rw [hcmd]; decide)]
    obtain ⟨before, hsilent, -, htestmode⟩ := cmdTestmode_eq buf n
    rw [htestmode]
    exact hsilent.reply rfl rfl (by decide)
  case factory =>
    intro hcmd
    rw [replyAddr_of_ne (by rw [hcmd]; decide)]
    simp only [cmdFactory]
    generalize cfgReset _ _ = cfg
    exact Silent.reply (Silent.of_calls rfl) rfl rfl (by decide)

/-- Every packet addressed to a node is replied to once at most. ADDR is apart. -/
theorem cmdDispatch_repliesOnce {p : Platform} {buf : RxBuf} {n : Node} (h : Addressed p buf n)
    (hcmd : buf.cmd ≠ Cmd.addr) : RepliesOnce buf (replyAddr buf) n (cmdDispatch p buf n).2 := by
  rw [cmdDispatch_addressed h, if_neg hcmd]
  rw [Addressed, if_neg hcmd] at h
  split_ifs with hzero
  · have huid : buf.cmd = Cmd.uid := h.2 hzero
    rw [replyAddr_of_ne (by rw [huid]; decide), h.1]
    exact (Silent.of_calls rfl).reply huid.symm rfl (by decide)
  · exact cmdSwitch_repliesOnce p h.1

/-- An ADDR packet with the UID of a node is replied to with that UID. -/
theorem cmdDispatch_addr_sent {p : Platform} {buf : RxBuf} {n : Node} (h : Addressed p buf n)
    (hcmd : buf.cmd = Cmd.addr) : ∃ addr, sentFrames n (cmdDispatch p buf n).2 =
      [⟨pktFlagReply, addr, Cmd.addr, 4,
        [buf.payload 0, buf.payload 1, buf.payload 2, buf.payload 3]⟩] := by
  rw [cmdDispatch_addressed h, if_pos hcmd]
  rw [Addressed, if_pos hcmd] at h
  simp only [cmdAddr]
  rw [if_pos (show p.uid = le32 _ _ _ _ from h)]
  generalize cfgStore _ _ = cfg
  exact ⟨_, Silent.send (Silent.of_calls rfl) _ _ _ rfl⟩

end BmsNode
