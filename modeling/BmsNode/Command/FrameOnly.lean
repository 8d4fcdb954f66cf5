import BmsNode.Bytes.Word
import BmsNode.Command.Addressing
import BmsNode.Config.Table

/-!
# Which commands look past their frame

The receive buffer is reused, so behind the payload of a packet lie bytes of earlier
ones. `FrameOnly` says that they do not matter to what `cmd_process` does with the
packet; `frameOnly_iff` says for which packets that is so.
-/

namespace BmsNode

open Word

/-! ## Buffers with the same frame -/

/-- The buffer holds the same header and the same first `len` payload bytes. -/
def SameFrame (other buf : RxBuf) : Prop :=
  ∀ i (hi : i < 16), i < 4 + buf.len.toNat → other[i] = buf[i]

/-- The header is part of the frame. -/
theorem SameFrame.header {other buf : RxBuf} (h : SameFrame other buf) :
    other.addr = buf.addr ∧ other.cmd = buf.cmd ∧ other.len = buf.len :=
  ⟨h 1 (by omega) (by omega), h 2 (by omega) (by omega), h 3 (by omega) (by omega)⟩

/-- The first `len` payload bytes are part of the frame. -/
theorem SameFrame.payload {other buf : RxBuf} (h : SameFrame other buf) {i : Fin 12}
    (hi : i.val < buf.len.toNat) : other.payload i = buf.payload i :=
  h (4 + i.val) (by omega) (by omega)

/-- The payload lies inside the buffer. -/
theorem RxBuf.payload_lt (i : Fin 12) : 4 + i.val < 16 := by omega

/-- Store a payload byte. -/
def RxBuf.setPayload (buf : RxBuf) (i : Fin 12) (byte : UInt8) : RxBuf :=
  buf.set (4 + i.val) byte (payload_lt i)

/-- A stored payload byte is read back, and the others stay. -/
theorem RxBuf.payload_setPayload (buf : RxBuf) (i j : Fin 12) (byte : UInt8) :
    (buf.setPayload i byte).payload j = if i = j then byte else buf.payload j := by
  simp only [RxBuf.setPayload, RxBuf.payload, Vector.getElem_set, Fin.ext_iff, Nat.add_left_cancel_iff]

/-- Storing payload bytes leaves the header alone. -/
theorem RxBuf.header_setPayload (buf : RxBuf) (i : Fin 12) (byte : UInt8) :
    (buf.setPayload i byte).addr = buf.addr ∧ (buf.setPayload i byte).cmd = buf.cmd ∧
      (buf.setPayload i byte).len = buf.len := by
  refine ⟨?_, ?_, ?_⟩ <;> refine Vector.getElem_set_ne _ _ (by omega)

/-- Storing a payload byte that is already there, or behind the frame, keeps the frame. -/
theorem SameFrame.setPayload {other buf : RxBuf} (h : SameFrame other buf) {i : Fin 12}
    {byte : UInt8} (hbyte : i.val < buf.len.toNat → byte = buf.payload i) :
    SameFrame (other.setPayload i byte) buf := by
  intro j hj hframe
  rw [RxBuf.setPayload, Vector.getElem_set]
  split_ifs with heq
  · subst heq
    exact hbyte (by omega)
  · exact h j hj hframe

/-- A buffer has its own frame. -/
theorem SameFrame.refl (buf : RxBuf) : SameFrame buf buf := fun _ _ _ => rfl

/-! ## UID bytes -/

/-- Byte `i` of a UID, low byte first. -/
def uidByte (uid : UInt32) : Fin 4 → UInt8
  | 0 => uid.toUInt8
  | 1 => (uid >>> 8).toUInt8
  | 2 => (uid >>> 16).toUInt8
  | 3 => (uid >>> 24).toUInt8

/-- The number in four bytes. -/
theorem toNat_le32 (b0 b1 b2 b3 : UInt8) :
    (le32 b0 b1 b2 b3).toNat =
      b0.toNat + b1.toNat * 2 ^ 8 + b2.toNat * 2 ^ 16 + b3.toNat * 2 ^ 24 := by
  have h0 := b0.toNat_lt
  have h1 := b1.toNat_lt
  have h2 := b2.toNat_lt
  have hshift1 : (b1.toUInt32 <<< 8).toNat = b1.toNat * 2 ^ 8 := toNat_shiftLeft_byte b1 (by decide)
  have hshift2 : (b2.toUInt32 <<< 16).toNat = b2.toNat * 2 ^ 16 :=
    toNat_shiftLeft_byte b2 (by decide)
  have hshift3 : (b3.toUInt32 <<< 24).toNat = b3.toNat * 2 ^ 24 :=
    toNat_shiftLeft_byte b3 (by decide)
  rw [le32, UInt32.toNat_or, UInt32.toNat_or, UInt32.toNat_or, hshift1, hshift2, hshift3,
    UInt8.toNat_toUInt32, or_mul_two_pow 8 h0, or_mul_two_pow 16 (by omega),
    or_mul_two_pow 24 (by omega)]

/-- The payload holds a UID exactly when its first four bytes are those of the UID. -/
theorem RxBuf.uid_eq_iff (buf : RxBuf) (uid : UInt32) :
    uid = buf.uid ↔ ∀ i : Fin 4, buf.payload (i.castLE (by omega)) = uidByte uid i := by
  have h0 := (buf.payload 0).toNat_lt
  have h1 := (buf.payload 1).toNat_lt
  have h2 := (buf.payload 2).toNat_lt
  have h3 := (buf.payload 3).toNat_lt
  have huid := uid.toNat_lt
  have hall : (∀ i : Fin 4, buf.payload (i.castLE (by omega)) = uidByte uid i) ↔
      buf.payload 0 = uid.toUInt8 ∧ buf.payload 1 = (uid >>> 8).toUInt8 ∧
        buf.payload 2 = (uid >>> 16).toUInt8 ∧ buf.payload 3 = (uid >>> 24).toUInt8 := by
    refine ⟨fun h => ⟨h 0, h 1, h 2, h 3⟩, fun ⟨hb0, hb1, hb2, hb3⟩ i => ?_⟩
    match i with
    | 0 => exact hb0
    | 1 => exact hb1
    | 2 => exact hb2
    | 3 => exact hb3
  rw [hall]
  simp only [← UInt32.toNat_inj, ← UInt8.toNat_inj, RxBuf.uid, toNat_le32, UInt32.toNat_toUInt8,
    UInt32.toNat_shiftRight, Nat.shiftRight_eq_div_pow, show (8 : UInt32).toNat = 8 from rfl,
    show (16 : UInt32).toNat = 16 from rfl, show (24 : UInt32).toNat = 24 from rfl, Nat.reduceMod,
    Nat.reducePow]
  omega

/-! ## Effects -/

/-- The effects of `cmd_process` on a packet: the calls it has made by then, and the configuration
in RAM and EEPROM. -/
def effects (p : Platform) (n : Node) (buf : RxBuf) : List Call × Cfg :=
  ((cmdProcess p (n.deliver buf)).2.calls, (cmdProcess p (n.deliver buf)).2.cfg)

/-- The effects of `cmd_process` are those of the dispatch. -/
theorem effects_eq (p : Platform) (n : Node) (buf : RxBuf) :
    effects p n buf = ((cmdDispatch p buf n).2.calls, (cmdDispatch p buf n).2.cfg) := by
  obtain ⟨q, c, heq, -⟩ := cmdProcess_deliver p n buf
  rw [effects, heq]
  rfl

/-- Bytes behind the frame do not change the effects. -/
def FrameOnly (p : Platform) (n : Node) (buf : RxBuf) : Prop :=
  ∀ other, SameFrame other buf → effects p n other = effects p n buf

/-- Packets for which no byte behind the frame is decisive. -/
def TailUnread (p : Platform) (n : Node) (buf : RxBuf) : Prop :=
  if buf.cmd = Cmd.addr then
    4 ≤ buf.len.toNat ∨ ∃ i : Fin 4, i.val < buf.len.toNat ∧
      buf.payload (i.castLE (by omega)) ≠ uidByte p.uid i
  else if n.nodeid = 0 ∨ buf.addr ≠ n.nodeid then True
  else if buf.cmd = Cmd.getparm ∨ buf.cmd = Cmd.setparm then 1 ≤ buf.len.toNat
  else if buf.cmd = Cmd.testmode then
    3 ≤ buf.len.toNat ∨ (1 ≤ buf.len.toNat ∧ buf.payload 0 = 0) ∨
      (2 ≤ buf.len.toNat ∧ buf.payload 1 ≠ 0xCA)
  else True

instance (p : Platform) (n : Node) (buf : RxBuf) : Decidable (TailUnread p n buf) := by
  unfold TailUnread
  infer_instance

/-! ## Where the tail is not read -/

/-- `cmd_ack` reads the header only. -/
theorem cmdAck_sameFrame {other buf : RxBuf} (h : SameFrame other buf) :
    cmdAck other = cmdAck buf := by
  obtain ⟨haddr, hcmd, -⟩ := h.header
  funext n
  rw [cmdAck, cmdAck, haddr, hcmd]

/-- `cmd_getparm` and `cmd_setparm` read nothing behind a payload that is not empty. -/
theorem cmdParm_sameFrame {other buf : RxBuf} (h : SameFrame other buf)
    (hlen : 1 ≤ buf.len.toNat) (p : Platform) :
    cmdGetparm other = cmdGetparm buf ∧ cmdSetparm p other = cmdSetparm p buf := by
  obtain ⟨-, -, hheader⟩ := h.header
  have h0 : other.payload 0 = buf.payload 0 := h.payload hlen
  refine ⟨?_, ?_⟩
  · funext n
    rw [cmdGetparm, cmdGetparm, h0]
  · funext n
    have hset : cfgSet p.tail n.cfg buf.len
          #v[buf.payload 0, other.payload 1, other.payload 2] =
        cfgSet p.tail n.cfg buf.len #v[buf.payload 0, buf.payload 1, buf.payload 2] := by
      apply cfgSet_congr p.tail n.cfg hlen
      intro i hi hcovered
      rcases by omega with rfl | rfl | rfl : i = 0 ∨ i = 1 ∨ i = 2
      · rfl
      · exact h.payload (i := 1) hcovered
      · exact h.payload (i := 2) hcovered
    rw [cmdSetparm, cmdSetparm, h0, hheader, hset]

/-- `cmd_testmode` reads nothing behind the frame when the frame holds the key, is for the off
function, or holds a wrong first key byte. -/
theorem cmdTestmode_sameFrame {other buf : RxBuf} (h : SameFrame other buf)
    (hlen : 3 ≤ buf.len.toNat ∨ (1 ≤ buf.len.toNat ∧ buf.payload 0 = 0) ∨
      (2 ≤ buf.len.toNat ∧ buf.payload 1 ≠ 0xCA)) :
    cmdTestmode other = cmdTestmode buf := by
  obtain ⟨-, -, hheader⟩ := h.header
  have h0 : other.payload 0 = buf.payload 0 := h.payload (show 0 < buf.len.toNat by omega)
  funext n
  simp only [cmdTestmode, cmdAck_sameFrame h, h0, hheader]
  by_cases hoff : buf.payload 0 = 0
  · rw [if_pos hoff, if_pos hoff]
  have h1 : other.payload 1 = buf.payload 1 := by
    apply h.payload
    show 1 < buf.len.toNat
    rcases hlen with hlen | hlen | hlen
    · omega
    · exact absurd hlen.2 hoff
    · omega
  rw [if_neg hoff, if_neg hoff, h1]
  by_cases hkey : buf.payload 1 = 0xCA
  · have hthree : 3 ≤ buf.len.toNat := by
      rcases hlen with hlen | hlen | hlen
      · exact hlen
      · exact absurd hlen.2 hoff
      · exact absurd hkey hlen.2
    have h2 : other.payload 2 = buf.payload 2 := h.payload (show 2 < buf.len.toNat by omega)
    rw [h2]
    by_cases hfive : buf.len = 5
    · have h3 : other.payload 3 = buf.payload 3 := h.payload (by rw [hfive]; decide)
      have h4 : other.payload 4 = buf.payload 4 := h.payload (by rw [hfive]; decide)
      rw [h3, h4]
    · simp only [if_neg hfive]
  · rw [if_neg fun hboth => hkey hboth.1, if_neg fun hboth => hkey hboth.1]

/-- The `switch` on two buffers with the same frame. -/
theorem cmdSwitch_sameFrame {other buf : RxBuf} (h : SameFrame other buf) (p : Platform)
    (hparm : buf.cmd = Cmd.getparm ∨ buf.cmd = Cmd.setparm → 1 ≤ buf.len.toNat)
    (htest : buf.cmd = Cmd.testmode → cmdTestmode other = cmdTestmode buf) (n : Node) :
    cmdSwitch p other n = cmdSwitch p buf n := by
  obtain ⟨-, hcmd, -⟩ := h.header
  have hack := congrFun (cmdAck_sameFrame h)
  unfold cmdSwitch
  rw [hcmd]
  refine ite_congr rfl (fun _ => hack n) fun _ => ite_congr rfl (fun _ => rfl) fun _ =>
    ite_congr rfl (fun _ => rfl) fun _ => ite_congr rfl (fun _ => rfl) fun _ =>
    ite_congr rfl (fun _ => rfl) fun _ => ite_congr rfl (fun _ => hack n) fun _ =>
    ite_congr rfl (fun hget => ?_) fun _ => ite_congr rfl (fun hset => ?_) fun _ =>
    ite_congr rfl (fun hmode => ?_) fun _ => ite_congr rfl (fun _ => hack _) fun _ => rfl
  · rw [(cmdParm_sameFrame h (hparm (.inl hget)) p).1]
  · rw [(cmdParm_sameFrame h (hparm (.inr hset)) p).2]
  · rw [htest hmode]

/-- Where no byte behind the frame is decisive, the effects do not depend on these bytes. -/
theorem TailUnread.frameOnly {p : Platform} {n : Node} {buf : RxBuf} (h : TailUnread p n buf) :
    FrameOnly p n buf := by
  intro other hsame
  obtain ⟨haddr, hcmd, hlen⟩ := hsame.header
  rw [effects_eq, effects_eq]
  unfold TailUnread at h
  by_cases haddrCmd : buf.cmd = Cmd.addr
  · rw [if_pos haddrCmd] at h
    rcases h with hfour | ⟨i, hi, hne⟩
    · -- the whole UID is part of the frame
      have huid : ∀ i : Fin 4, other.payload (i.castLE (by omega)) =
          buf.payload (i.castLE (by omega)) := fun i => hsame.payload (by simp; omega)
      have h0 := huid 0
      have h1 := huid 1
      have h2 := huid 2
      have h3 := huid 3
      have hsameAddr : cmdAddr p other n = cmdAddr p buf n := by
        simp only [cmdAddr, haddr]
        rw [show other.payload 0 = buf.payload 0 from h0,
          show other.payload 1 = buf.payload 1 from h1,
          show other.payload 2 = buf.payload 2 from h2,
          show other.payload 3 = buf.payload 3 from h3]
      rw [cmdDispatch, cmdDispatch, hcmd, if_pos haddrCmd, if_pos haddrCmd, hsameAddr]
    · -- a byte of the frame already tells that the packet is for another node
      have hbuf : ¬Addressed p buf n := by
        rw [Addressed, if_pos haddrCmd, RxBuf.uid_eq_iff]
        exact fun hall => hne (hall i)
      have hother : ¬Addressed p other n := by
        rw [Addressed, hcmd, if_pos haddrCmd, RxBuf.uid_eq_iff]
        exact fun hall => hne ((hsame.payload (by simpa using hi)).symm.trans (hall i))
      rw [cmdDispatch_not_addressed hbuf, cmdDispatch_not_addressed hother]
  rw [if_neg haddrCmd] at h
  have hdispatch : cmdDispatch p other n = cmdDispatch p buf n := by
    unfold cmdDispatch
    rw [hcmd, haddr, if_neg haddrCmd, if_neg haddrCmd]
    refine ite_congr rfl (fun _ => rfl) fun hzero => ite_congr rfl (fun hmatch => ?_) fun _ => rfl
    rw [if_neg (by rintro (h0 | hne); exacts [hzero h0, hne hmatch])] at h
    refine cmdSwitch_sameFrame hsame p (fun hparm => ?_) (fun htest => ?_) n
    · rwa [if_pos hparm] at h
    · rw [if_neg (by rw [htest]; decide), if_pos htest] at h
      exact cmdTestmode_sameFrame hsame h
  rw [hdispatch]

/-! ## Where the tail is read -/

/-- The calls of `cmd_getparm` and `cmd_setparm` carry the first payload byte. -/
theorem cmdParm_calls (p : Platform) (buf : RxBuf) (n : Node) :
    (∃ flags addr cmd rest, (cmdGetparm buf n).2.calls =
        n.calls ++ [.pktSend flags addr cmd (buf.payload 0 :: rest)]) ∧
      ∃ flags addr cmd rest, (cmdSetparm p buf n).2.calls =
        n.calls ++ [.pktSend flags addr cmd (buf.payload 0 :: rest)] := by
  refine ⟨?_, ?_⟩
  · simp only [cmdGetparm]
    generalize cfgGet _ _ _ = value
    have hpositive : ∃ k, (if value.1 = 0 then (1 : UInt8) else value.1).toNat = k + 1 := by
      refine Nat.exists_eq_succ_of_ne_zero ?_
      split_ifs with hzero
      · decide
      · exact fun h => hzero (UInt8.toNat_inj.mp h)
    obtain ⟨k, hk⟩ := hpositive
    refine ⟨pktFlagReply, n.nodeid, Cmd.getparm, value.2.take k, ?_⟩
    simp only [Node.send, hk, List.take_succ_cons]
  · exact ⟨pktFlagReply, _, Cmd.setparm, [], rfl⟩

/-- The calls of `cmd_testmode` for a test function: `testmode_on` with the right key, and the
acknowledgement. -/
theorem cmdTestmode_calls {buf : RxBuf} (n : Node) (hon : buf.payload 0 ≠ 0) :
    (cmdTestmode buf n).2.calls.length =
      n.calls.length + if buf.payload 1 = 0xCA ∧ buf.payload 2 = 0xFE then 2 else 1 := by
  simp only [cmdTestmode, if_neg hon]
  split_ifs <;> simp [cmdAck, Node.send, Node.testOn]

/-- Two buffers with the same frame whose effects differ. -/
theorem not_frameOnly {p : Platform} {n : Node} {buf one two : RxBuf} (hone : SameFrame one buf)
    (htwo : SameFrame two buf)
    (hne : (cmdDispatch p one n).2.calls ≠ (cmdDispatch p two n).2.calls) : ¬FrameOnly p n buf := by
  intro h
  have heq := (h one hone).trans (h two htwo).symm
  rw [effects_eq, effects_eq] at heq
  exact hne (congrArg Prod.fst heq)

/-- The buffer with a UID in its first four payload bytes. -/
def RxBuf.withUid (buf : RxBuf) (uid : UInt32) : RxBuf :=
  (((buf.setPayload 0 uid.toUInt8).setPayload 1 (uid >>> 8).toUInt8).setPayload 2
    (uid >>> 16).toUInt8).setPayload 3 (uid >>> 24).toUInt8

/-- The UID is read back, and the header stays. -/
theorem RxBuf.withUid_spec (buf : RxBuf) (uid : UInt32) :
    uid = (buf.withUid uid).uid ∧ (buf.withUid uid).cmd = buf.cmd := by
  refine ⟨?_, ?_⟩
  · rw [RxBuf.uid_eq_iff]
    intro i
    match i with
    | 0 | 1 | 2 | 3 =>
        simp only [RxBuf.withUid, RxBuf.payload_setPayload]
        rfl
  · simp only [RxBuf.withUid, RxBuf.header_setPayload]

/-- An ADDR packet that leaves part of a matching UID to the bytes behind it. -/
theorem not_frameOnly_addr {p : Platform} {n : Node} {buf : RxBuf} (hcmd : buf.cmd = Cmd.addr)
    (hlen : buf.len.toNat < 4)
    (hmatch : ∀ i : Fin 4, i.val < buf.len.toNat →
      buf.payload (i.castLE (by omega)) = uidByte p.uid i) : ¬FrameOnly p n buf := by
  -- behind the frame stands the rest of the UID in one buffer, and a wrong last byte in the other
  have hone : SameFrame (buf.withUid p.uid) buf :=
    ((((SameFrame.refl buf).setPayload fun hi => (hmatch 0 hi).symm).setPayload
      fun hi => (hmatch 1 hi).symm).setPayload fun hi => (hmatch 2 hi).symm).setPayload
      fun hi => (hmatch 3 hi).symm
  have htwo : SameFrame ((buf.withUid p.uid).setPayload 3 (uidByte p.uid 3 + 1)) buf :=
    hone.setPayload fun hi => absurd hi (by simp; omega)
  obtain ⟨huid, hcmdOne⟩ := buf.withUid_spec p.uid
  have hread : Addressed p (buf.withUid p.uid) n := by
    rw [Addressed, hcmdOne, if_pos hcmd]
    exact huid
  have hunread : ¬Addressed p ((buf.withUid p.uid).setPayload 3 (uidByte p.uid 3 + 1)) n := by
    rw [Addressed, ((buf.withUid p.uid).header_setPayload 3 _).2.1, hcmdOne, if_pos hcmd,
      RxBuf.uid_eq_iff]
    intro hall
    have hbyte : ((buf.withUid p.uid).setPayload 3 (uidByte p.uid 3 + 1)).payload 3 =
        uidByte p.uid 3 + 1 := by rw [RxBuf.payload_setPayload, if_pos rfl]
    have hnext := hbyte.symm.trans (hall 3)
    simp at hnext
  refine not_frameOnly hone htwo ?_
  rw [cmdDispatch_not_addressed hunread, cmdDispatch_addressed hread, hcmdOne, if_pos hcmd]
  simp only [cmdAddr]
  rw [if_pos (show p.uid = le32 _ _ _ _ from huid)]
  simp [Node.send]

/-- A GETPARM or SETPARM packet without payload. -/
theorem not_frameOnly_parm {p : Platform} {n : Node} {buf : RxBuf} (hzero : n.nodeid ≠ 0)
    (haddr : buf.addr = n.nodeid) (hcmd : buf.cmd = Cmd.getparm ∨ buf.cmd = Cmd.setparm)
    (hlen : buf.len.toNat = 0) : ¬FrameOnly p n buf := by
  have hsame (byte : UInt8) : SameFrame (buf.setPayload 0 byte) buf :=
    (SameFrame.refl buf).setPayload fun hi => absurd hi (by omega)
  have hcalls (byte : UInt8) : ∃ flags addr cmd rest,
      (cmdDispatch p (buf.setPayload 0 byte) n).2.calls =
        n.calls ++ [.pktSend flags addr cmd (byte :: rest)] := by
    obtain ⟨haddr', hcmd', -⟩ := buf.header_setPayload 0 byte
    have hbyte : (buf.setPayload 0 byte).payload 0 = byte := by
      rw [RxBuf.payload_setPayload, if_pos rfl]
    obtain ⟨hget, hset⟩ := cmdParm_calls p (buf.setPayload 0 byte) n
    rw [hbyte] at hget hset
    rcases hcmd with hcmd | hcmd
    · rw [cmdDispatch_getparm hzero (haddr'.trans haddr) (hcmd'.trans hcmd)]
      exact hget
    · rw [cmdDispatch_setparm hzero (haddr'.trans haddr) (hcmd'.trans hcmd)]
      exact hset
  refine not_frameOnly (hsame 0) (hsame 1) ?_
  obtain ⟨flags, addr, cmd, rest, hone⟩ := hcalls 0
  obtain ⟨flags', addr', cmd', rest', htwo⟩ := hcalls 1
  rw [hone, htwo]
  simp

/-- A TESTMODE packet that leaves part of a right key to the bytes behind it. -/
theorem not_frameOnly_testmode {p : Platform} {n : Node} {buf : RxBuf} (hzero : n.nodeid ≠ 0)
    (haddr : buf.addr = n.nodeid) (hcmd : buf.cmd = Cmd.testmode) (hlen : buf.len.toNat < 3)
    (hon : 1 ≤ buf.len.toNat → buf.payload 0 ≠ 0)
    (hkey : 2 ≤ buf.len.toNat → buf.payload 1 = 0xCA) : ¬FrameOnly p n buf := by
  -- the test function of the frame, or the first one when the frame names none
  obtain ⟨testfunc, hne, hfunc⟩ : ∃ testfunc : UInt8, testfunc ≠ 0 ∧
      (0 < buf.len.toNat → testfunc = buf.payload 0) := by
    by_cases hempty : buf.len.toNat = 0
    · exact ⟨1, by decide, fun h => by omega⟩
    · exact ⟨buf.payload 0, hon (by omega), fun _ => rfl⟩
  have hsame (key : UInt8) : SameFrame
      (((buf.setPayload 0 testfunc).setPayload 1 0xCA).setPayload 2 key) buf :=
    (((SameFrame.refl buf).setPayload (i := 0) hfunc).setPayload (i := 1)
      fun hi => (hkey hi).symm).setPayload fun hi => absurd hi (by simp; omega)
  have hcalls (key : UInt8) : (cmdDispatch p
      (((buf.setPayload 0 testfunc).setPayload 1 0xCA).setPayload 2 key) n).2.calls.length =
      n.calls.length + if key = 0xFE then 2 else 1 := by
    generalize hother : ((buf.setPayload 0 testfunc).setPayload 1 0xCA).setPayload 2 key = other
    have hheader : other.addr = buf.addr ∧ other.cmd = buf.cmd := by
      rw [← hother]
      simp only [RxBuf.header_setPayload, and_self]
    have hpayload : other.payload 0 = testfunc ∧ other.payload 1 = 0xCA ∧ other.payload 2 = key := by
      rw [← hother]
      simp [RxBuf.payload_setPayload, Fin.ext_iff]
    rw [cmdDispatch_testmode hzero (hheader.1.trans haddr) (hheader.2.trans hcmd),
      cmdTestmode_calls n (by rw [hpayload.1]; exact hne), hpayload.2.1, hpayload.2.2]
    simp
  refine not_frameOnly (hsame 0xFE) (hsame 0) fun heq => ?_
  have hlength := congrArg List.length heq
  rw [hcalls, hcalls] at hlength
  simp at hlength

/-- The effects of `cmd_process` on a packet depend on nothing behind its frame exactly for the
packets of `TailUnread`. -/
theorem frameOnly_iff (p : Platform) (n : Node) (buf : RxBuf) :
    FrameOnly p n buf ↔ TailUnread p n buf := by
  refine ⟨fun honly => ?_, TailUnread.frameOnly⟩
  by_contra hread
  unfold TailUnread at hread
  by_cases hcmd : buf.cmd = Cmd.addr
  · rw [if_pos hcmd] at hread
    simp only [not_or, not_exists, not_and, not_not, Nat.not_le] at hread
    exact not_frameOnly_addr hcmd hread.1 hread.2 honly
  rw [if_neg hcmd] at hread
  by_cases hskip : n.nodeid = 0 ∨ buf.addr ≠ n.nodeid
  · rw [if_pos hskip] at hread
    exact hread trivial
  rw [if_neg hskip] at hread
  rw [not_or, not_not] at hskip
  by_cases hparm : buf.cmd = Cmd.getparm ∨ buf.cmd = Cmd.setparm
  · rw [if_pos hparm] at hread
    exact not_frameOnly_parm hskip.1 hskip.2 hparm (by omega) honly
  rw [if_neg hparm] at hread
  by_cases htest : buf.cmd = Cmd.testmode
  · rw [if_pos htest] at hread
    simp only [not_or, not_and, not_not, Nat.not_le] at hread
    exact not_frameOnly_testmode hskip.1 hskip.2 htest hread.1 hread.2.1 hread.2.2 honly
  · rw [if_neg htest] at hread
    exact hread trivial

/-- A TESTMODE packet for the shunt test without a key, in front of the key of an earlier packet. -/
def keylessTest : RxBuf := #v[0, 1, 11, 1, 3, 0xCA, 0xFE, 0, 0, 0, 0, 0, 0, 0, 0, 0]

/-- The node at address 1 starts the test on the strength of the earlier key. -/
theorem cmdProcess_keylessTest :
    ¬FrameOnly benchBoard (freshNode benchBoard 1) keylessTest := by
  intro h
  have hsame : SameFrame (keylessTest.setPayload 1 0) keylessTest :=
    (SameFrame.refl keylessTest).setPayload fun hi => absurd hi (by decide)
  have hcalls := congrArg Prod.fst (h _ hsame)
  revert hcalls
  decide +kernel

end BmsNode
