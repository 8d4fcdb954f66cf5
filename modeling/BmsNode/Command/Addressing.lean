import BmsNode.Machine.Effects

/-!
# Which node a packet is for

`cmd_process` on a packet in the receive buffer is its dispatch on the buffer's bytes:
handlers do not read the packet module themselves. `Addressed` collects the three
addressing rules of the dispatch. A node that is not addressed is left as it was.
-/

namespace BmsNode

/-! ## The packet module is read through the buffer only -/

/-- The node with other contents of its packet module and reception timeout. -/
def Node.withPkt (n : Node) (pkt : Pkt) (cmd : CmdTimer) : Node := { n with pkt := pkt, cmd := cmd }

/-- A handler does not read the packet module. -/
def PktBlind (handler : Node → Bool × Node) : Prop :=
  ∀ n q c, handler (n.withPkt q c) = ((handler n).1, (handler n).2.withPkt q c)

/-- Sending does not read the packet module. -/
theorem send_pktBlind (flags addr cmd : UInt8) (payload : List UInt8) (len : UInt8) :
    PktBlind fun n => n.send flags addr cmd payload len := fun _ _ _ => rfl

/-- Acknowledging does not read the packet module. -/
theorem cmdAck_pktBlind (pkt : RxBuf) : PktBlind (cmdAck pkt) :=
  send_pktBlind pktFlagReply pkt.addr pkt.cmd [] 0

/-- `cmd_uid` does not read the packet module. -/
theorem cmdUid_pktBlind (p : Platform) : PktBlind (cmdUid p) := fun n q c =>
  send_pktBlind pktFlagReply n.nodeid Cmd.uid _ 8 n q c

/-- `cmd_adcraw` does not read the packet module. -/
theorem cmdAdcraw_pktBlind : PktBlind cmdAdcraw := fun n q c =>
  send_pktBlind pktFlagReply n.nodeid Cmd.adcraw _ 8 n q c

/-- `cmd_getparm` does not read the packet module. -/
theorem cmdGetparm_pktBlind (pkt : RxBuf) : PktBlind (cmdGetparm pkt) := by
  intro n q c
  have hcfg : (n.withPkt q c).cfg = n.cfg := rfl
  simp only [cmdGetparm, hcfg]
  generalize cfgGet _ _ _ = value
  exact send_pktBlind _ _ _ _ _ n q c

/-- `cmd_status` does not read the packet module. -/
theorem cmdStatus_pktBlind (p : Platform) : PktBlind (cmdStatus p) := by
  intro n q c
  have hread : shuntGetStatus (n.withPkt q c).systick (n.withPkt q c).rig.shunt =
      shuntGetStatus n.systick n.rig.shunt := rfl
  obtain ⟨timeout, hstatus⟩ := shuntGetStatus_eq n.systick n.rig.shunt
  simp only [cmdStatus, hread, hstatus]
  exact send_pktBlind _ _ _ _ _
    { n with rig := { n.rig with shunt := { n.rig.shunt with shuntTimeout := timeout } } } q c

/-- `cmd_setparm` does not read the packet module. -/
theorem cmdSetparm_pktBlind (p : Platform) (pkt : RxBuf) : PktBlind (cmdSetparm p pkt) := by
  intro n q c
  have hcfg : (n.withPkt q c).cfg = n.cfg := rfl
  simp only [cmdSetparm, hcfg]
  generalize (cfgSet _ _ _ _).2 = cfg
  exact send_pktBlind _ _ _ _ _ { n with cfg := cfg } q c

/-- The FACTORY case does not read the packet module. -/
theorem cmdFactory_pktBlind (p : Platform) (pkt : RxBuf) : PktBlind (cmdFactory p pkt) := by
  intro n q c
  have hcfg : (n.withPkt q c).cfg = n.cfg := rfl
  simp only [cmdFactory, hcfg]
  generalize cfgReset _ _ = cfg
  exact cmdAck_pktBlind pkt { n with cfg := cfg } q c

/-- `cmd_testmode` does not read the packet module. -/
theorem cmdTestmode_pktBlind (pkt : RxBuf) : PktBlind (cmdTestmode pkt) := by
  intro n q c
  have hoff : (n.withPkt q c).testOff = n.testOff.withPkt q c := rfl
  have hon (testfunc val0 val1 : UInt8) : (n.withPkt q c).testOn testfunc val0 val1 =
      (n.testOn testfunc val0 val1).withPkt q c := rfl
  simp only [cmdTestmode, hoff, hon]
  split_ifs <;> exact cmdAck_pktBlind pkt _ q c

/-- `cmd_addr` does not read the packet module. -/
theorem cmdAddr_pktBlind (p : Platform) (pkt : RxBuf) : PktBlind (cmdAddr p pkt) := by
  intro n q c
  have hcfg : (n.withPkt q c).cfg = n.cfg := rfl
  simp only [cmdAddr, hcfg]
  generalize cfgStore _ _ = cfg
  split_ifs
  · exact send_pktBlind _ _ _ _ _ { n with cfg := cfg } q c
  · rfl

/-- No command handler reads the packet module. -/
theorem cmdSwitch_pktBlind (p : Platform) (pkt : RxBuf) : PktBlind (cmdSwitch p pkt) :=
  cmdSwitch_rule p pkt (fun _ => cmdAck_pktBlind pkt) (fun _ _ _ _ => rfl)
    (fun _ => cmdUid_pktBlind p) (fun _ => cmdAdcraw_pktBlind) (fun _ => cmdStatus_pktBlind p)
    (fun _ => cmdGetparm_pktBlind pkt) (fun _ => cmdSetparm_pktBlind p pkt)
    (fun _ => cmdTestmode_pktBlind pkt) (fun _ => cmdFactory_pktBlind p pkt) (fun _ _ _ => rfl)

/-- The dispatch does not read the packet module. -/
theorem cmdDispatch_pktBlind (p : Platform) (pkt : RxBuf) : PktBlind (cmdDispatch p pkt) := by
  intro n q c
  have hnodeid : (n.withPkt q c).nodeid = n.nodeid := rfl
  unfold cmdDispatch
  rw [hnodeid]
  split_ifs
  · exact cmdAddr_pktBlind p pkt n q c
  · exact cmdUid_pktBlind p n q c
  · rfl
  · exact cmdSwitch_pktBlind p pkt n q c
  · rfl

/-- A node with a packet waiting in its receive buffer. -/
def Node.deliver (n : Node) (buf : RxBuf) : Node :=
  n.withPkt { n.pkt with readyPacket := true, rxbuf := buf } n.cmd

/-- The tail of `cmd_process` changes only the packet module and the reception timeout. -/
theorem cmdWait_withPkt (n : Node) (q : Pkt) (c : CmdTimer) :
    ∃ q' c', cmdWait (n.withPkt q c) = n.withPkt q' c' ∧ q'.rxbuf = q.rxbuf := by
  unfold cmdWait
  split_ifs
  · exact ⟨pktReset q, { c with pktWaiting := false }, rfl, rfl⟩
  · exact ⟨q, c, rfl, rfl⟩
  · simp only [cmdArm]
    generalize tmrSet _ _ = timeout
    exact ⟨q, { pktTimeout := timeout, pktWaiting := true }, rfl, rfl⟩
  · exact ⟨q, c, rfl, rfl⟩

/-- `cmd_process` on a waiting packet is its dispatch, but for the packet module and the reception
timeout. -/
theorem cmdProcess_deliver (p : Platform) (n : Node) (buf : RxBuf) :
    ∃ q c, cmdProcess p (n.deliver buf) =
        ((cmdDispatch p buf n).1, (cmdDispatch p buf n).2.withPkt q c) ∧ q.rxbuf = buf := by
  have hready : cmdReady (n.deliver buf) =
      (true, n.withPkt { n.pkt with readyPacket := false, rxbuf := buf }
        { n.cmd with pktWaiting := false }) := rfl
  simp only [cmdProcess, hready, if_true]
  generalize hq : ({ n.pkt with readyPacket := false, rxbuf := buf } : Pkt) = q
  have hbuf : q.rxbuf = buf := by rw [← hq]
  have hread : (n.withPkt q { n.cmd with pktWaiting := false }).pkt.rxbuf = buf := hbuf
  rw [hread, cmdDispatch_pktBlind]
  dsimp only
  split_ifs with hret
  · exact ⟨q, _, by rw [hret], hbuf⟩
  · obtain ⟨q', c', hwait, hsame⟩ :=
      cmdWait_withPkt (cmdDispatch p buf n).2 (pktRxFree q) { n.cmd with pktWaiting := false }
    exact ⟨q', c', Prod.ext (eq_false_of_ne_true hret).symm hwait, hsame.trans hbuf⟩

/-! ## The addressing rules -/

/-- The UID in the first four payload bytes. -/
def RxBuf.uid (buf : RxBuf) : UInt32 :=
  le32 (buf.payload 0) (buf.payload 1) (buf.payload 2) (buf.payload 3)

/-- The packet is for this node: ADDR by UID, UID at address 0 for a node without an address, and
everything else by address. -/
@[irreducible] def Addressed (p : Platform) (buf : RxBuf) (n : Node) : Prop :=
  if buf.cmd = Cmd.addr then p.uid = buf.uid
  else buf.addr = n.nodeid ∧ (n.nodeid = 0 → buf.cmd = Cmd.uid)

instance (p : Platform) (buf : RxBuf) (n : Node) : Decidable (Addressed p buf n) := by
  unfold Addressed
  infer_instance

/-- A node that is not addressed is left as it was. -/
theorem cmdDispatch_not_addressed {p : Platform} {buf : RxBuf} {n : Node}
    (h : ¬Addressed p buf n) : (cmdDispatch p buf n).2 = n := by
  unfold Addressed at h
  unfold cmdDispatch
  by_cases haddr : buf.cmd = Cmd.addr
  · rw [if_pos haddr] at h ⊢
    rw [cmdAddr]
    exact congrArg Prod.snd (if_neg h)
  rw [if_neg haddr] at h ⊢
  by_cases hzero : n.nodeid = 0
  · rw [if_pos hzero, if_neg]
    rintro ⟨hbroadcast, huid⟩
    exact h ⟨hbroadcast.trans hzero.symm, fun _ => huid⟩
  · rw [if_neg hzero, if_neg]
    exact fun heq => h ⟨heq, fun h0 => absurd h0 hzero⟩

/-- What the dispatch does on an addressed node. -/
theorem cmdDispatch_addressed {p : Platform} {buf : RxBuf} {n : Node} (h : Addressed p buf n) :
    cmdDispatch p buf n =
      if buf.cmd = Cmd.addr then cmdAddr p buf n
      else if n.nodeid = 0 then cmdUid p n
      else cmdSwitch p buf n := by
  unfold Addressed at h
  unfold cmdDispatch
  by_cases haddr : buf.cmd = Cmd.addr
  · rw [if_pos haddr, if_pos haddr]
  rw [if_neg haddr] at h ⊢
  rw [if_neg haddr]
  by_cases hzero : n.nodeid = 0
  · rw [if_pos hzero, if_pos hzero, if_pos ⟨h.1.trans hzero, h.2 hzero⟩]
  · rw [if_neg hzero, if_neg hzero, if_pos h.1]

section Switch

variable {p : Platform} {buf : RxBuf} {n : Node}

/-- An addressed node other than one without an address runs the `switch`. -/
theorem cmdDispatch_switch (hcmd : buf.cmd ≠ Cmd.addr) (hzero : n.nodeid ≠ 0)
    (haddr : buf.addr = n.nodeid) : cmdDispatch p buf n = cmdSwitch p buf n := by
  rw [cmdDispatch, if_neg hcmd, if_neg hzero, if_pos haddr]

/-- GETPARM on a node with an address. -/
theorem cmdDispatch_getparm (hzero : n.nodeid ≠ 0) (haddr : buf.addr = n.nodeid)
    (hcmd : buf.cmd = Cmd.getparm) : cmdDispatch p buf n = cmdGetparm buf n := by
  rw [cmdDispatch_switch (by rw [hcmd]; decide) hzero haddr, cmdSwitch, hcmd]
  rfl

/-- SETPARM on a node with an address. -/
theorem cmdDispatch_setparm (hzero : n.nodeid ≠ 0) (haddr : buf.addr = n.nodeid)
    (hcmd : buf.cmd = Cmd.setparm) : cmdDispatch p buf n = cmdSetparm p buf n := by
  rw [cmdDispatch_switch (by rw [hcmd]; decide) hzero haddr, cmdSwitch, hcmd]
  rfl

/-- TESTMODE on a node with an address. -/
theorem cmdDispatch_testmode (hzero : n.nodeid ≠ 0) (haddr : buf.addr = n.nodeid)
    (hcmd : buf.cmd = Cmd.testmode) : cmdDispatch p buf n = cmdTestmode buf n := by
  rw [cmdDispatch_switch (by rw [hcmd]; decide) hzero haddr, cmdSwitch, hcmd]
  rfl

end Switch

/-- A node that started with an erased EEPROM and was then given an address. -/
def freshNode (p : Platform) (addr : UInt8) : Node :=
  let n := (boot p (Vector.replicate 26 0xFF)).node
  { n with cfg := cfgStore p.tail { n.cfg with gCfgParms := n.cfg.gCfgParms.set8 2 addr } }

end BmsNode
