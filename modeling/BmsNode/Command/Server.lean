import BmsNode.Command.Replies
import BmsNode.Config.Registers
import BmsNode.Serial.Queue

/-!
# A node as a server of registers

To the controller a node is a server: it holds registers, it takes requests one at a
time, and it answers with one frame or not at all. `serve` is that server. The dispatch
of the command processor serves every packet like it, whatever the bytes behind the
packet in the receive buffer, on top of the configuration block, its copy in the EEPROM
and the serial module.
-/

namespace BmsNode

/-! ## The server -/

/-- What never changes about a node: its UID, and the bytes it answers UID with. -/
structure Identity where
  uid : UInt32
  card : List UInt8
  deriving DecidableEq

/-- The identity of a node is that of its board. -/
def Platform.identity (p : Platform) : Identity :=
  { uid := p.uid
    card := bytes32 p.uid ++ p.boardType :: (List.finRange 3).map p.gVersion }

/-- What a node measures: the bytes it answers ADCRAW and STATUS with. -/
structure Readings where
  adcraw : List UInt8
  status : List UInt8
  deriving DecidableEq

/-- The readings of a node at a moment. -/
def Node.readings (p : Platform) (n : Node) : Readings :=
  { adcraw := (adcGetRaw n.adc).toList.flatMap bytes16
    status := bytes16 n.cellmv ++ bytes16 (n.tempC p .boardTemp).toUInt16 ++
      [n.rig.shunt.shuntStatus.code, n.rig.shunt.pwm] ++
      bytes16 (n.tempC p .extTemp).toUInt16 ++ bytes16 (n.tempC p .mcuTemp).toUInt16 }

/-- The registers of a node. -/
def Node.registers (n : Node) : Registers := n.conf.registers

namespace Registers

/-- The answer of a server to a request: the command, from the address the server then has. -/
def answer (r : Registers) (cmd : UInt8) (payload : List UInt8) : Frame :=
  { flags := pktFlagReply, addr := r.nodeid, cmd := cmd, len := UInt8.ofNat payload.length
    payload := payload }

/-- Serve a request that is for this address. -/
def serveCommand (me : Identity) (seen : Readings) (r : Registers) (buf : RxBuf) :
    Registers × Option Frame :=
  if buf.cmd = Cmd.ping then (r, r.answer buf.cmd [])
  else if buf.cmd = Cmd.dfu then (r, none)
  else if buf.cmd = Cmd.uid then (r, r.answer buf.cmd me.card)
  else if buf.cmd = Cmd.adcraw then (r, r.answer buf.cmd seen.adcraw)
  else if buf.cmd = Cmd.status then (r, r.answer buf.cmd seen.status)
  else if buf.cmd = Cmd.shunton ∨ buf.cmd = Cmd.shuntoff then (r, r.answer buf.cmd [])
  else if buf.cmd = Cmd.getparm then
    (r, r.answer buf.cmd (buf.payload 0 :: r.read (buf.payload 0)))
  else if buf.cmd = Cmd.setparm then
    let r := r.write buf.len (buf.payload 0) (buf.payload 1) (buf.payload 2)
    (r, r.answer buf.cmd [buf.payload 0])
  else if buf.cmd = Cmd.testmode then (r, r.answer buf.cmd [])
  else if buf.cmd = Cmd.factory then (factory, r.answer buf.cmd [])
  else (r, none)

/-- Serve a request: ADDR by UID, UID at address 0 for a server without an address, and every other
command by address. -/
def serve (me : Identity) (seen : Readings) (r : Registers) (buf : RxBuf) :
    Registers × Option Frame :=
  if buf.cmd = Cmd.addr then
    if me.uid = buf.uid then
      let r := r.write 2 1 buf.addr 0
      (r, r.answer buf.cmd [buf.payload 0, buf.payload 1, buf.payload 2, buf.payload 3])
    else (r, none)
  else if r.nodeid = 0 then
    if buf.addr = 0 ∧ buf.cmd = Cmd.uid then (r, r.answer buf.cmd me.card) else (r, none)
  else if buf.addr = r.nodeid then serveCommand me seen r buf
  else (r, none)

/-- What a server does with a request: it ignores it, it changes registers and answers, or it
answers with the registers left alone. -/
inductive Served (r : Registers) (buf : RxBuf) : Registers × Option Frame → Prop where
  | ignored : Served r buf (r, none)
  | addr (hcmd : buf.cmd = Cmd.addr) :
      Served r buf (r.write 2 1 buf.addr 0, some ((r.write 2 1 buf.addr 0).answer buf.cmd
        [buf.payload 0, buf.payload 1, buf.payload 2, buf.payload 3]))
  | setparm (hcmd : buf.cmd = Cmd.setparm) (next : Registers)
      (hnext : next = r.write buf.len (buf.payload 0) (buf.payload 1) (buf.payload 2)) :
      Served r buf (next, some (next.answer buf.cmd [buf.payload 0]))
  | factory (hcmd : buf.cmd = Cmd.factory) :
      Served r buf (Registers.factory, some (r.answer buf.cmd []))
  | getparm (hcmd : buf.cmd = Cmd.getparm) :
      Served r buf (r, some (r.answer buf.cmd (buf.payload 0 :: r.read (buf.payload 0))))
  | answered (payload : List UInt8) (hsetparm : buf.cmd ≠ Cmd.setparm)
      (hgetparm : buf.cmd ≠ Cmd.getparm) : Served r buf (r, some (r.answer buf.cmd payload))

/-- A server that branches on a test. -/
theorem Served.ite {r : Registers} {buf : RxBuf} {cond : Prop} [Decidable cond]
    {yes no : Registers × Option Frame} (hyes : cond → Served r buf yes)
    (hno : ¬cond → Served r buf no) : Served r buf (if cond then yes else no) := by
  split_ifs with hcond
  · exact hyes hcond
  · exact hno hcond

/-- A server takes one of these ways. -/
theorem serve_served (me : Identity) (seen : Readings) (r : Registers) (buf : RxBuf) :
    Served r buf (r.serve me seen buf) := by
  have hother (cmd : UInt8) (payload : List UInt8) (hcmd : buf.cmd = cmd)
      (hsetparm : cmd ≠ Cmd.setparm) (hgetparm : cmd ≠ Cmd.getparm) :
      Served r buf (r, some (r.answer buf.cmd payload)) :=
    .answered payload (fun h => hsetparm (hcmd.symm.trans h)) fun h => hgetparm (hcmd.symm.trans h)
  rw [serve]
  refine .ite (fun haddr => .ite (fun _ => .addr haddr) fun _ => .ignored) fun _ => ?_
  refine .ite (fun _ => ?_) fun _ => .ite (fun _ => ?_) fun _ => .ignored
  · refine .ite (fun hbroadcast => ?_) fun _ => .ignored
    exact hother _ _ hbroadcast.2 (by decide) (by decide)
  · rw [serveCommand]
    refine .ite (fun hping => hother _ _ hping (by decide) (by decide)) fun _ => ?_
    refine .ite (fun _ => .ignored) fun _ => ?_
    refine .ite (fun huid => hother _ _ huid (by decide) (by decide)) fun _ => ?_
    refine .ite (fun hadcraw => hother _ _ hadcraw (by decide) (by decide)) fun _ => ?_
    refine .ite (fun hstatus => hother _ _ hstatus (by decide) (by decide)) fun _ => ?_
    refine .ite (fun hshunt => ?_) fun _ => ?_
    · rcases hshunt with hon | hoff
      · exact hother _ _ hon (by decide) (by decide)
      · exact hother _ _ hoff (by decide) (by decide)
    refine .ite (fun hgetparm => .getparm hgetparm) fun _ => ?_
    refine .ite (fun hsetparm => .setparm hsetparm _ rfl) fun _ => ?_
    refine .ite (fun htestmode => hother _ _ htestmode (by decide) (by decide)) fun _ => ?_
    exact .ite (fun hfactory => .factory hfactory) fun _ => .ignored

/-- A request without an answer changes no register. -/
theorem Served.unanswered {r r' : Registers} {buf : RxBuf} (h : Served r buf (r', none)) :
    r' = r := by
  cases h
  rfl

/-- An answered SETPARM writes its register. -/
theorem Served.written {r r' : Registers} {buf : RxBuf} {reply : Frame}
    (h : Served r buf (r', some reply)) (hcmd : buf.cmd = Cmd.setparm) :
    r' = r.write buf.len (buf.payload 0) (buf.payload 1) (buf.payload 2) := by
  cases h with
  | addr haddr => exact absurd (hcmd.symm.trans haddr) (by decide)
  | setparm _ _ hnext => exact hnext
  | factory hfactory => exact absurd (hcmd.symm.trans hfactory) (by decide)
  | getparm hget => exact absurd (hcmd.symm.trans hget) (by decide)
  | answered _ hsetparm => exact absurd hcmd hsetparm

/-- An answered GETPARM is answered with the bytes of its register. -/
theorem Served.value {r r' : Registers} {buf : RxBuf} {reply : Frame}
    (h : Served r buf (r', some reply)) (hcmd : buf.cmd = Cmd.getparm) :
    reply.payload = buf.payload 0 :: r.read (buf.payload 0) := by
  cases h with
  | addr haddr => exact absurd (hcmd.symm.trans haddr) (by decide)
  | setparm hset => exact absurd (hcmd.symm.trans hset) (by decide)
  | factory hfactory => exact absurd (hcmd.symm.trans hfactory) (by decide)
  | getparm => rfl
  | answered _ _ hgetparm => exact absurd hcmd hgetparm

/-- Writing another register. -/
theorem write_other (r : Registers) {id other : UInt8} (len low high : UInt8) (hne : id ≠ other) :
    r.write len id low high other = r other := by
  unfold write
  split_ifs
  · exact Function.update_of_ne hne.symm ..
  · rfl

/-- Writing with another length than that of the register. -/
theorem write_refused (r : Registers) {len id : UInt8} (low high : UInt8)
    (hlen : len.toNat ≠ (parmType id).size + 1) : r.write len id low high = r :=
  if_neg fun haccepted => hlen haccepted.2

/-- A register changes by FACTORY, by a SETPARM for it with its length, or, if it is the address, by
ADDR. -/
theorem Served.other {r : Registers} {buf : RxBuf} {result : Registers × Option Frame} {id : UInt8}
    (h : Served r buf result) (hfactory : buf.cmd ≠ Cmd.factory)
    (hsetparm : buf.cmd = Cmd.setparm → buf.payload 0 = id →
      buf.len.toNat ≠ (parmType id).size + 1)
    (haddr : buf.cmd = Cmd.addr → id ≠ 1) : result.1 id = r id := by
  cases h with
  | addr hcmd =>
      show r.write 2 1 buf.addr 0 id = r id
      exact r.write_other _ _ _ (haddr hcmd).symm
  | setparm hcmd next hnext =>
      subst hnext
      by_cases hid : buf.payload 0 = id
      · have hrefused := hsetparm hcmd hid
        rw [← hid] at hrefused
        show r.write buf.len _ _ _ id = r id
        rw [r.write_refused _ _ hrefused]
      · exact r.write_other _ _ _ hid
  | factory hcmd => exact absurd hcmd hfactory
  | ignored | getparm | answered => rfl

/-- Reading a register that was written gives the bytes that were written. -/
theorem read_write (r : Registers) {len id : UInt8} (low high : UInt8) (hid : ParmId id)
    (hlen : len.toNat = (parmType id).size + 1) :
    (r.write len id low high).read id = [low, high].take (parmType id).size := by
  have hlength : ([low, high].take (parmType id).size).length = (parmType id).size := by
    cases parmType id <;> rfl
  rw [write, if_pos ⟨hid, hlen⟩, read, if_pos hid, Function.update_self,
    FieldType.encode_value _ hlength]

/-- The registers after a command for this address. -/
theorem serveCommand_next (me : Identity) (seen : Readings) (r : Registers) (buf : RxBuf) :
    (r.serveCommand me seen buf).1 =
      if buf.cmd = Cmd.setparm then r.write buf.len (buf.payload 0) (buf.payload 1) (buf.payload 2)
      else if buf.cmd = Cmd.factory then factory else r := by
  simp only [serveCommand, apply_ite Prod.fst]
  by_cases hsetparm : buf.cmd = Cmd.setparm
  · rw [hsetparm]
    rfl
  · by_cases hfactory : buf.cmd = Cmd.factory
    · rw [hfactory]
      rfl
    · simp only [if_neg hsetparm, if_neg hfactory, ite_self]

/-- The registers after a request. -/
theorem serve_next (me : Identity) (seen : Readings) (r : Registers) (buf : RxBuf) :
    (r.serve me seen buf).1 =
      if buf.cmd = Cmd.addr then if me.uid = buf.uid then r.write 2 1 buf.addr 0 else r
      else if r.nodeid ≠ 0 ∧ buf.addr = r.nodeid then (r.serveCommand me seen buf).1
      else r := by
  simp only [serve, apply_ite Prod.fst, ite_self, ite_and, ite_not]

end Registers

/-! ## What a handler sends -/

/-- Up to here a handler has sent nothing and requested no restart. -/
structure Unsent (n before : Node) : Prop where
  silent : Silent n before
  ser : before.ser = n.ser
  swrr : before.swrr = n.swrr

/-- At its start a handler has sent nothing. -/
theorem Unsent.refl (n : Node) : Unsent n n := ⟨Silent.of_calls rfl, rfl, rfl⟩

/-- A handler sends nothing and leaves the serial module alone, or it ends by sending one frame and
returns what `pkt_send` returns. -/
inductive Sends (n : Node) : Bool × Node → Option Frame → Prop where
  | nothing {result : Bool × Node} (hsilent : Silent n result.2) (hser : result.2.ser = n.ser) :
      Sends n result none
  | frame {before : Node} (f : Frame) (hunsent : Unsent n before) (hfits : f.Fits) :
      Sends n (before.send f.flags f.addr f.cmd f.payload f.len) (some f)

/-- The frames recorded are those a handler sends. -/
theorem Sends.sentFrames {n : Node} {result : Bool × Node} {reply : Option Frame}
    (h : Sends n result reply) : sentFrames n result.2 = reply.toList := by
  cases h with
  | nothing hsilent => exact hsilent.sentFrames
  | frame f hunsent hfits => exact hunsent.silent.send f.flags f.addr f.cmd hfits.length

/-- A frame sent fits a packet. -/
theorem Sends.fits {n : Node} {result : Bool × Node} {reply : Option Frame}
    (h : Sends n result reply) : ∀ f ∈ reply.toList, f.Fits := by
  cases h with
  | nothing => simp
  | frame f hunsent hfits =>
      intro g hg
      obtain rfl := List.mem_singleton.mp hg
      exact hfits

/-- A frame is taken as a whole by a transmit ring that holds nothing. -/
theorem Sends.taken {n : Node} {result : Bool × Node} {reply : Option Frame}
    (h : Sends n result reply) (hdrained : bufCnt n.ser = 0) (hreply : reply ≠ none) :
    result.1 = true := by
  cases h with
  | nothing => exact absurd rfl hreply
  | @frame before f hunsent hfits =>
      refine (pktSend_iff before.txpkt before.ser _ _ _ f.payload f.len hfits.max).mpr ?_
      have hshort := hfits.max
      rw [hunsent.ser, hdrained]
      show 0 + (10 + f.len.toNat) ≤ 31
      omega

/-- A handler that requests a restart sends nothing. -/
theorem Sends.restart {n : Node} {result : Bool × Node} {reply : Option Frame}
    (h : Sends n result reply) (hswrr : n.swrr = false) (hrestart : result.2.swrr = true) :
    reply = none := by
  cases h with
  | nothing => rfl
  | @frame before f hunsent =>
      have hkept : (before.send f.flags f.addr f.cmd f.payload f.len).2.swrr = n.swrr :=
        hunsent.swrr
      rw [hrestart, hswrr] at hkept
      cases hkept

/-- A handler serves a packet: the registers and the frame sent are those of the server. -/
structure Serves (n : Node) (result : Bool × Node) (served : Registers × Option Frame) : Prop where
  registers : result.2.registers = served.1
  sends : Sends n result served.2

/-- A handler that does nothing. -/
theorem Serves.nothing (n : Node) (ret : Bool) : Serves n (ret, n) (n.registers, none) :=
  ⟨rfl, .nothing (Silent.of_calls rfl) rfl⟩

/-- A handler that ends by sending an answer. -/
theorem Serves.answer {n before : Node} {r r' : Registers} (hunsent : Unsent n before)
    (hregisters : before.registers = r') {addr cmd len : UInt8} {payload : List UInt8}
    (haddr : addr = r.nodeid) (hlength : payload.length = len.toNat) (hmax : len.toNat ≤ 12) :
    Serves n (before.send pktFlagReply addr cmd payload len) (r', some (r.answer cmd payload)) := by
  have hlen : len = UInt8.ofNat payload.length := by rw [hlength, UInt8.ofNat_toNat]
  subst haddr hlen
  exact ⟨hregisters, .frame (r.answer cmd payload) hunsent ⟨hlength, hmax⟩⟩

/-- Handler and server that branch on the same test. -/
theorem Serves.ite {n : Node} {cond : Prop} [Decidable cond] {yes no : Bool × Node}
    {served other : Registers × Option Frame} (hyes : cond → Serves n yes served)
    (hno : ¬cond → Serves n no other) :
    Serves n (if cond then yes else no) (if cond then served else other) := by
  by_cases hcond : cond
  · rw [if_pos hcond, if_pos hcond]
    exact hyes hcond
  · rw [if_neg hcond, if_neg hcond]
    exact hno hcond

/-! ## Every packet is served -/

/-- The address of a node is that of its registers. -/
theorem Node.registers_nodeid (n : Node) : n.registers.nodeid = n.nodeid :=
  n.conf.registers_nodeid

section Dispatch

variable {p : Platform} {buf : RxBuf} {n : Node}

/-- An acknowledgement, when the packet carries the address of the node. -/
theorem cmdAck_serves {before : Node} {r : Registers} (hunsent : Unsent n before)
    (hregisters : before.registers = r) (haddr : buf.addr = n.nodeid) :
    Serves n (cmdAck buf before) (r, n.registers.answer buf.cmd []) :=
  .answer hunsent hregisters (haddr.trans n.registers_nodeid.symm) rfl (by decide)

/-- The answer to UID. -/
theorem cmdUid_serves (hcmd : buf.cmd = Cmd.uid) :
    Serves n (cmdUid p n) (n.registers, n.registers.answer buf.cmd p.identity.card) := by
  have hsend : cmdUid p n = n.send pktFlagReply n.nodeid Cmd.uid p.identity.card 8 := rfl
  rw [hsend, hcmd]
  exact .answer (.refl n) rfl n.registers_nodeid.symm rfl (by decide)

/-- The answer to ADCRAW. -/
theorem cmdAdcraw_serves (hcmd : buf.cmd = Cmd.adcraw) :
    Serves n (cmdAdcraw n) (n.registers, n.registers.answer buf.cmd (n.readings p).adcraw) := by
  have hlength : (n.readings p).adcraw.length = 8 := by simp [Node.readings, adcGetRaw, bytes16]
  have hsend : cmdAdcraw n =
      n.send pktFlagReply n.nodeid Cmd.adcraw (n.readings p).adcraw 8 := rfl
  rw [hsend, hcmd]
  exact .answer (.refl n) rfl n.registers_nodeid.symm hlength (by decide)

/-- The answer to STATUS, which restarts the idle timeout of the shunt. -/
theorem cmdStatus_serves (hcmd : buf.cmd = Cmd.status) :
    Serves n (cmdStatus p n) (n.registers, n.registers.answer buf.cmd (n.readings p).status) := by
  have hlength : (n.readings p).status.length = 10 := by simp [Node.readings, bytes16]
  obtain ⟨timeout, hstatus⟩ := shuntGetStatus_eq n.systick n.rig.shunt
  let before : Node :=
    { n with rig := { n.rig with shunt := { n.rig.shunt with shuntTimeout := timeout } } }
  have hsend : cmdStatus p n =
      before.send pktFlagReply n.nodeid Cmd.status (n.readings p).status 10 := by
    simp only [cmdStatus, hstatus]
    rfl
  have hunsent : Unsent n before := ⟨Silent.of_calls rfl, rfl, rfl⟩
  rw [hsend, hcmd]
  exact .answer hunsent rfl n.registers_nodeid.symm hlength (by decide)

/-- The answer to GETPARM. -/
theorem cmdGetparm_serves (hcmd : buf.cmd = Cmd.getparm) :
    Serves n (cmdGetparm buf n) (n.registers,
      n.registers.answer buf.cmd (buf.payload 0 :: n.registers.read (buf.payload 0))) := by
  obtain ⟨hlength, hmax⟩ := cfgGet_length n.cfg (buf.payload 0)
  have hread : n.registers.read (buf.payload 0) = (cfgGet n.cfg 12 (buf.payload 0)).2 :=
    (cfgGet_registers n.cfg (buf.payload 0)).symm
  have hsend : cmdGetparm buf n = n.send pktFlagReply n.nodeid Cmd.getparm
      (buf.payload 0 :: (cfgGet n.cfg 12 (buf.payload 0)).2)
      (if (cfgGet n.cfg 12 (buf.payload 0)).1 = 0 then 1
        else (cfgGet n.cfg 12 (buf.payload 0)).1) := rfl
  rw [hsend, hcmd, hread]
  exact .answer (.refl n) rfl n.registers_nodeid.symm hlength (by omega)

/-- The answer to SETPARM, from the address the node has after it. -/
theorem cmdSetparm_serves (hcmd : buf.cmd = Cmd.setparm) :
    let r := n.registers.write buf.len (buf.payload 0) (buf.payload 1) (buf.payload 2)
    Serves n (cmdSetparm p buf n) (r, r.answer buf.cmd [buf.payload 0]) := by
  intro r
  have hwrite := cfgSet_registers p.tail n.cfg buf.len (buf.payload 0) (buf.payload 1)
    (buf.payload 2)
  simp only [cmdSetparm]
  generalize (cfgSet p.tail n.cfg buf.len _).2 = cfg at hwrite ⊢
  have hunsent : Unsent n { n with cfg := cfg } := ⟨Silent.of_calls rfl, rfl, rfl⟩
  have hnodeid : Node.nodeid { n with cfg := cfg } = r.nodeid := by
    rw [← Node.registers_nodeid]
    exact congrArg Registers.nodeid hwrite
  rw [hcmd]
  exact .answer hunsent hwrite hnodeid rfl (by decide)

/-- The answer to TESTMODE. -/
theorem cmdTestmode_serves (haddr : buf.addr = n.nodeid) :
    Serves n (cmdTestmode buf n) (n.registers, n.registers.answer buf.cmd []) := by
  simp only [cmdTestmode]
  split_ifs
  · have hunsent : Unsent n n.testOff := ⟨⟨[.testmodeOff], rfl, rfl⟩, rfl, rfl⟩
    exact cmdAck_serves hunsent rfl haddr
  · have hunsent : Unsent n (n.testOn (buf.payload 0) (buf.payload 3) (buf.payload 4)) :=
      ⟨⟨[.testmodeOn _ _ _], rfl, rfl⟩, rfl, rfl⟩
    exact cmdAck_serves hunsent rfl haddr
  · have hunsent : Unsent n (n.testOn (buf.payload 0) 0 0) :=
      ⟨⟨[.testmodeOn _ _ _], rfl, rfl⟩, rfl, rfl⟩
    exact cmdAck_serves hunsent rfl haddr
  · exact cmdAck_serves (.refl n) rfl haddr

/-- The answer to FACTORY, from the address of the packet. -/
theorem cmdFactory_serves (haddr : buf.addr = n.nodeid) :
    Serves n (cmdFactory p buf n) (Registers.factory, n.registers.answer buf.cmd []) := by
  have hreset := cfgReset_registers p.tail n.cfg
  simp only [cmdFactory]
  generalize cfgReset p.tail n.cfg = cfg at hreset ⊢
  have hunsent : Unsent n { n with cfg := cfg } := ⟨Silent.of_calls rfl, rfl, rfl⟩
  exact cmdAck_serves hunsent hreset haddr

/-- Every command for this address is served. -/
theorem cmdSwitch_serves (haddr : buf.addr = n.nodeid) :
    Serves n (cmdSwitch p buf n)
      (n.registers.serveCommand p.identity (n.readings p) buf) := by
  have hack : Serves n (cmdAck buf n) (n.registers, n.registers.answer buf.cmd []) :=
    cmdAck_serves (.refl n) rfl haddr
  rw [cmdSwitch, Registers.serveCommand]
  refine .ite (fun _ => hack) fun _ => ?_
  refine .ite (fun _ => ⟨rfl, .nothing ⟨[.reset], rfl, rfl⟩ rfl⟩) fun _ => ?_
  refine .ite (fun huid => cmdUid_serves huid) fun _ => ?_
  refine .ite (fun hadcraw => cmdAdcraw_serves hadcraw) fun _ => ?_
  refine .ite (fun hstatus => cmdStatus_serves hstatus) fun _ => ?_
  refine .ite (fun _ => hack) fun _ => ?_
  refine .ite (fun hgetparm => cmdGetparm_serves hgetparm) fun _ => ?_
  refine .ite (fun hsetparm => cmdSetparm_serves hsetparm) fun _ => ?_
  refine .ite (fun _ => cmdTestmode_serves haddr) fun _ => ?_
  refine .ite (fun _ => cmdFactory_serves haddr) fun _ => ?_
  exact .nothing n false

/-- An ADDR packet is served: it is for the node with its UID. -/
theorem cmdAddr_serves (hcmd : buf.cmd = Cmd.addr) :
    Serves n (cmdAddr p buf n)
      (if p.identity.uid = buf.uid then
        (n.registers.write 2 1 buf.addr 0, (n.registers.write 2 1 buf.addr 0).answer buf.cmd
          [buf.payload 0, buf.payload 1, buf.payload 2, buf.payload 3])
      else (n.registers, none)) := by
  have hwrite := (cfgStore_registers p.tail _).trans (cfgSet_registers p.tail n.cfg 2 1 buf.addr 0)
  simp only [cmdAddr]
  refine .ite (fun _ => ?_) fun _ => .nothing n false
  generalize cfgStore p.tail _ = cfg at hwrite ⊢
  have hunsent : Unsent n { n with cfg := cfg } := ⟨Silent.of_calls rfl, rfl, rfl⟩
  have hnodeid : Node.nodeid { n with cfg := cfg } = (n.registers.write 2 1 buf.addr 0).nodeid := by
    rw [← Node.registers_nodeid]
    exact congrArg Registers.nodeid hwrite
  rw [hcmd]
  exact .answer hunsent hwrite hnodeid rfl (by decide)

/-- Every packet is served: the dispatch leaves the registers that the server has, and sends the
frame that it answers with. -/
theorem cmdDispatch_serves (p : Platform) (buf : RxBuf) (n : Node) :
    Serves n (cmdDispatch p buf n) (n.registers.serve p.identity (n.readings p) buf) := by
  rw [cmdDispatch, Registers.serve, Node.registers_nodeid]
  refine .ite (fun haddr => cmdAddr_serves haddr) fun _ => ?_
  refine .ite (fun _ => ?_) fun _ => ?_
  · exact .ite (fun hbroadcast => cmdUid_serves hbroadcast.2) fun _ => .nothing n _
  · exact .ite (fun hmine => cmdSwitch_serves hmine) fun _ => .nothing n _

end Dispatch

end BmsNode
