import BmsNode.Command.ReplyChain
import BmsNode.Machine.Server
import BmsNode.Transition.Rounds

/-!
# The bus as an array of registers

The controller puts packets on the bus one after the other, each when the nodes are done
with the one before. To the controller the bus is then an array of the servers of
`Command.Server`: one of them takes the packet and answers it, and the others have
nothing to say. What this rests on is that no packet gives two nodes one address, and
that a node has sent what it had to send before it handles another packet.
-/

namespace BmsNode

open Transition Broadcast

/-! ## Frames -/

/-- Two buffers that a packet was received into hold the same frame. -/
theorem RxBuf.load_sameFrame {f : Frame} (hf : f.Fits) (other buf : RxBuf) :
    SameFrame (other.load f) (buf.load f) := by
  intro i hi hframe
  rw [(buf.load_header f).2.2, ← hf.body_length] at hframe
  simp [RxBuf.load, List.getElem?_eq_getElem hframe]

namespace Registers

/-- Bytes behind the frame do not count for what is written. -/
theorem write_sameFrame {other buf : RxBuf} (h : SameFrame other buf) (r : Registers) :
    r.write other.len (other.payload 0) (other.payload 1) (other.payload 2) =
      r.write buf.len (buf.payload 0) (buf.payload 1) (buf.payload 2) := by
  rw [h.header.2.2]
  by_cases hshort : buf.len.toNat < 2
  · -- no value has less than one byte
    have hnot (id : UInt8) : ¬(ParmId id ∧ buf.len.toNat = (parmType id).size + 1) := by
      rintro ⟨-, hlen⟩
      have hpos : 1 ≤ (parmType id).size := by cases parmType id <;> decide
      omega
    rw [write, write, if_neg (hnot _), if_neg (hnot _)]
  · rw [h.payload (i := 0) (show 0 < buf.len.toNat by omega),
      h.payload (i := 1) (show 1 < buf.len.toNat by omega), write, write]
    split_ifs with haccepted
    · by_cases hlong : 2 < buf.len.toNat
      · rw [h.payload (i := 2) hlong]
      · have hsize : (parmType (buf.payload 0)).size = 1 := by omega
        rw [hsize]
        rfl
    · rfl

/-- Bytes behind the frame do not count for the registers, if an ADDR packet holds a whole UID, and
neither do the readings. -/
theorem serve_sameFrame {other buf : RxBuf} (h : SameFrame other buf)
    (hlen : buf.cmd = Cmd.addr → 4 ≤ buf.len.toNat) (me : Identity) (seen seen' : Readings)
    (r : Registers) : (r.serve me seen other).1 = (r.serve me seen' buf).1 := by
  obtain ⟨haddr, hcmd, -⟩ := h.header
  have huid : buf.cmd = Cmd.addr → other.uid = buf.uid := by
    intro hc
    have hbyte (k : Fin 12) (hk : k.val < 4) : other.payload k = buf.payload k :=
      h.payload (Nat.lt_of_lt_of_le hk (hlen hc))
    simp only [RxBuf.uid, hbyte 0 (by decide), hbyte 1 (by decide), hbyte 2 (by decide),
      hbyte 3 (by decide)]
  rw [serve_next, serve_next, serveCommand_next, serveCommand_next, haddr, hcmd,
    r.write_sameFrame h]
  by_cases hc : buf.cmd = Cmd.addr
  · rw [if_pos hc, if_pos hc, huid hc]
  · rw [if_neg hc, if_neg hc]

/-- What a packet does to the registers of a server. -/
def serveFrame (me : Identity) (r : Registers) (f : Frame) : Registers :=
  (r.serve me ⟨[], []⟩ (RxBuf.load (Vector.replicate 16 0) f)).1

/-- A packet does the same whatever lies behind it in the receive buffer. -/
theorem serve_load {f : Frame} (hf : f.Fits) (hlen : f.cmd = Cmd.addr → f.len = 4) (me : Identity)
    (seen : Readings) (r : Registers) (buf : RxBuf) :
    (r.serve me seen (buf.load f)).1 = r.serveFrame me f := by
  refine serve_sameFrame (RxBuf.load_sameFrame hf _ _) (fun hcmd => ?_) me _ _ r
  obtain ⟨-, hcmd', hlen'⟩ := RxBuf.load_header (Vector.replicate 16 0) f
  rw [hlen', hlen (hcmd'.symm.trans hcmd)]
  decide

end Registers

/-! ## One node -/

section Node

variable {n : Node}

/-- A node that is not addressed serves the packet with nothing to say. -/
theorem serve_not_addressed {p : Platform} {buf : RxBuf} (h : ¬Addressed p buf n)
    (seen : Readings) :
    n.registers.serve p.identity seen buf = (n.registers, none) := by
  unfold Addressed at h
  rw [← n.registers_nodeid] at h
  unfold Registers.serve
  by_cases haddr : buf.cmd = Cmd.addr
  · rw [if_pos haddr] at h ⊢
    exact if_neg h
  · rw [if_neg haddr] at h ⊢
    by_cases hzero : n.registers.nodeid = 0
    · rw [if_pos hzero, if_neg]
      rintro ⟨hbroadcast, huid⟩
      exact h ⟨hbroadcast.trans hzero.symm, fun _ => huid⟩
    · rw [if_neg hzero, if_neg]
      exact fun hmine => h ⟨hmine, fun hcontra => absurd hcontra hzero⟩

/-- A node on the bus serves the packets it receives, and its EEPROM stays in agreement. -/
theorem nodeReact_serves {ι : Type*} (plat : ι → Platform) (i : ι) (f : Frame)
    (hdurable : Durable n.cfg) :
    let served := n.registers.serve (plat i).identity (n.readings (plat i)) (n.pkt.rxbuf.load f)
    (nodeReact plat i n f).1.registers = served.1 ∧ Durable (nodeReact plat i n f).1.cfg ∧
      (nodeReact plat i n f).2.map Sending.frame = served.2.toList := by
  intro served
  have hserves := cmdDispatch_serves (plat i) (n.pkt.rxbuf.load f) n
  have hafter := (cmdDispatch_cfgCalls (plat i) (n.pkt.rxbuf.load f) n).durable hdurable
  obtain ⟨q, c, hprocess, -⟩ := cmdProcess_deliver (plat i) n (n.pkt.rxbuf.load f)
  have hsent := hserves.sends.sentFrames
  rw [← nodeReact_sent] at hsent
  refine ⟨?_, ?_, hsent⟩
  · have hregisters := hserves.registers
    simp only [nodeReact, hprocess]
    generalize (cmdDispatch (plat i) (n.pkt.rxbuf.load f) n).2 = n' at hregisters hafter
    split_ifs
    · -- the restart loads the registers from the EEPROM
      have hboot := (boot_holding (plat i) n'.cfg.eeprom).registers
      exact (hboot.trans hafter.storedRegisters).trans hregisters
    · exact hregisters
  · simp only [nodeReact, hprocess]
    generalize (cmdDispatch (plat i) (n.pkt.rxbuf.load f) n).2 = n' at hafter
    split_ifs
    · exact (boot_holding (plat i) n'.cfg.eeprom).durable
    · exact hafter

end Node

/-- What a node with an empty transmit ring sends goes out. -/
theorem nodeReact_out {ι : Type*} (plat : ι → Platform) (i : ι) (f : Frame)
    (hdrained : bufCnt n.ser = 0) : ∀ r ∈ (nodeReact plat i n f).2, r.out = true := by
  have hsends := (cmdDispatch_serves (plat i) (n.pkt.rxbuf.load f) n).sends
  obtain ⟨q, c, hprocess, -⟩ := cmdProcess_deliver (plat i) n (n.pkt.rxbuf.load f)
  simp only [nodeReact, hprocess]
  generalize cmdDispatch (plat i) (n.pkt.rxbuf.load f) n = result at hsends
  generalize (n.registers.serve (plat i).identity (n.readings (plat i)) (n.pkt.rxbuf.load f)).2 =
    reply at hsends
  intro r hr
  obtain ⟨g, hg, rfl⟩ := List.mem_map.mp hr
  rw [sentFrames_withPkt, hsends.sentFrames] at hg
  refine hsends.taken hdrained fun hnone => ?_
  rw [hnone] at hg
  cases hg

/-! ## The bus -/

section Bus

variable {ι : Type*} {plat : ι → Platform} {nodes : ι → Node} {r : ι → Registers} {f : Frame}

/-- What a packet does to the registers of all servers. -/
def busServe (plat : ι → Platform) (r : ι → Registers) (f : Frame) : ι → Registers :=
  fun i => (r i).serveFrame (plat i).identity f

/-- A packet the controller can send: no two servers have one address before or after it, and an
ADDR packet holds a whole UID. -/
structure Orderly (plat : ι → Platform) (r : ι → Registers) (f : Frame) : Prop where
  fits : f.Fits
  uid : f.cmd = Cmd.addr → f.len = 4
  before : Function.Injective fun i => (r i).nodeid
  after : Function.Injective fun i => (busServe plat r f i).nodeid

/-- The nodes have the registers of the servers, and their EEPROMs agree. -/
structure Mirrors (nodes : ι → Node) (r : ι → Registers) : Prop where
  registers : ∀ i, (nodes i).registers = r i
  durable : ∀ i, Durable (nodes i).cfg

/-- The nodes have the addresses of the servers. -/
theorem Mirrors.nodeid (h : Mirrors nodes r) (i : ι) : (nodes i).nodeid = (r i).nodeid := by
  rw [← h.registers i, Node.registers_nodeid]

/-- An orderly packet is for one node at most. -/
theorem Orderly.addressed_unique (h : Orderly plat r f) (hmirrors : Mirrors nodes r)
    (huid : Function.Injective fun i => (plat i).uid) {i j : ι} {buf other : RxBuf}
    (hi : Addressed (plat i) (buf.load f) (nodes i))
    (hj : Addressed (plat j) (other.load f) (nodes j)) : i = j := by
  have hsame := RxBuf.load_sameFrame h.fits buf other
  obtain ⟨haddrI, hcmdI, -⟩ := buf.load_header f
  obtain ⟨haddrJ, hcmdJ, hlenJ⟩ := other.load_header f
  unfold Addressed at hi hj
  rw [hcmdI] at hi
  rw [hcmdJ] at hj
  by_cases hcmd : f.cmd = Cmd.addr
  · -- both hold the UID that the packet carries
    rw [if_pos hcmd] at hi hj
    have hbyte (k : Fin 12) (hk : k.val < 4) :
        (buf.load f).payload k = (other.load f).payload k := by
      refine hsame.payload ?_
      rw [hlenJ, h.uid hcmd]
      exact hk
    apply huid
    calc (plat i).uid = (buf.load f).uid := hi
      _ = (other.load f).uid := by
        simp only [RxBuf.uid, hbyte 0 (by decide), hbyte 1 (by decide), hbyte 2 (by decide),
          hbyte 3 (by decide)]
      _ = (plat j).uid := hj.symm
  · rw [if_neg hcmd, haddrI, hmirrors.nodeid] at hi
    rw [if_neg hcmd, haddrJ, hmirrors.nodeid] at hj
    exact h.before (hi.1.symm.trans hj.1)

/-- An orderly packet gives no node the address of another one. -/
theorem Orderly.not_addressClash (h : Orderly plat r f) (hmirrors : Mirrors nodes r) :
    ¬AddressClash nodes f := by
  rintro ⟨hcmd, hzero, i, j, hij, hi, hj, hpayload⟩
  obtain ⟨haddr, hcmd', hlen'⟩ := RxBuf.load_header (Vector.replicate 16 0) f
  have hlen : f.len = 2 := by
    have hlength := h.fits.length
    rw [hpayload] at hlength
    exact UInt8.toNat_inj.mp hlength.symm
  have hnext (k : ι) : busServe plat r f k =
      if (r k).nodeid ≠ 0 ∧ f.addr = (r k).nodeid then
        (r k).write 2 1 (nodes j).nodeid
          ((RxBuf.load (Vector.replicate 16 0) f).payload 2)
      else r k := by
    have h0 := RxBuf.load_payload (Vector.replicate 16 0) f (i := 0) (by simp [hpayload])
    have h1 := RxBuf.load_payload (Vector.replicate 16 0) f (i := 1) (by simp [hpayload])
    rw [busServe, Registers.serveFrame, Registers.serve_next, Registers.serveCommand_next, hcmd',
      haddr, hlen', hcmd, hlen, h0, h1]
    simp only [hpayload]
    rfl
  -- then both have the address of the second one
  refine hij (h.after ?_)
  have hfirst : (busServe plat r f i).nodeid = (nodes j).nodeid := by
    rw [hnext i, if_pos, Registers.write_addr, Registers.nodeid, Function.update_self,
      Int.toNat_natCast, UInt8.ofNat_toNat]
    rw [← hmirrors.nodeid, hi]
    exact ⟨hzero, rfl⟩
  have hsecond : (busServe plat r f j).nodeid = (nodes j).nodeid := by
    rw [hnext j, if_neg, hmirrors.nodeid]
    rintro ⟨-, hmine⟩
    refine hij (h.before ?_)
    show (r i).nodeid = (r j).nodeid
    rw [← hmirrors.nodeid, hi, hmine]
  exact hfirst.trans hsecond.symm

/-- The node that an orderly packet is for, or any node when it is for none. -/
theorem Orderly.exists_responder [Nonempty ι] (h : Orderly plat r f) (hmirrors : Mirrors nodes r)
    (huid : Function.Injective fun i => (plat i).uid) :
    ∃ i, ∀ j, j ≠ i → ∀ buf : RxBuf, ¬Addressed (plat j) (buf.load f) (nodes j) := by
  by_cases hsome : ∃ i, ∃ buf : RxBuf, Addressed (plat i) (buf.load f) (nodes i)
  · obtain ⟨i, buf, hi⟩ := hsome
    exact ⟨i, fun j hne other hj => hne (h.addressed_unique hmirrors huid hj hi)⟩
  · obtain ⟨i⟩ := ‹Nonempty ι›
    exact ⟨i, fun j _ buf hj => hsome ⟨j, buf, hj⟩⟩

/-- The server of a node that is not addressed has nothing to say, and keeps its registers. -/
theorem Mirrors.serve_other (h : Mirrors nodes r) {j : ι} {buf : RxBuf}
    (hnot : ¬Addressed (plat j) (buf.load f) (nodes j)) (seen : Readings) :
    (r j).serve (plat j).identity seen (buf.load f) = (r j, none) := by
  rw [← h.registers j]
  exact serve_not_addressed hnot seen

/-- What the addressed node is like once it has served the packet. -/
def HasServed (plat : ι → Platform) (r : ι → Registers) (f : Frame) (i : ι) (n : Node)
    (frames : List Frame) : Prop :=
  Durable n.cfg ∧ ∃ (seen : Readings) (buf : RxBuf),
    n.registers = ((r i).serve (plat i).identity seen (buf.load f)).1 ∧
      frames = ((r i).serve (plat i).identity seen (buf.load f)).2.toList

/-- The addressed node serves the packet, and nothing else it does matters. -/
theorem Mirrors.finishes (h : Mirrors nodes r) (i : ι) :
    Finishes (nodeReact plat) otherWork f i
      (fun j n => n.cfg = (nodes j).cfg ∧ n.pkt.rxbuf = (nodes j).pkt.rxbuf)
      (HasServed plat r f i) where
  work_done := fun _ _ _ hdone => hdone
  reaches := by
    rintro n ⟨hcfg, -⟩
    have hdurable : Durable n.cfg := by
      rw [hcfg]
      exact h.durable i
    have hregisters : n.registers = r i := by
      rw [← h.registers i, Node.registers, Node.conf, hcfg]
      rfl
    obtain ⟨hnext, hafter, hsent⟩ := nodeReact_serves plat i f hdurable
    rw [hregisters] at hnext hsent
    generalize nodeReact plat i n f = result at hnext hafter hsent ⊢
    exact ⟨hafter, n.readings (plat i), n.pkt.rxbuf, hnext, hsent⟩

/-- A node handles a packet with an empty transmit ring. -/
def Drained (s : State ι Node Frame) : Broadcast.Action ι Node → Prop
  | .process i => s.inbox i ≠ [] → bufCnt (s.parties i).ser = 0
  | .other _ _ => True

/-- The condition can be checked. -/
instance (s : State ι Node Frame) : ∀ action, Decidable (Drained s action)
  | .process _ => inferInstanceAs (Decidable (_ → _))
  | .other _ _ => isTrue trivial

variable [DecidableEq ι]

/-- A round that one server answers: the frames sent are its answer, they went out, and no other
server has one, whatever lies behind the packet in its receive buffer. -/
def AnsweredByOne (plat : ι → Platform) (r : ι → Registers) (f : Frame)
    (s : State ι Node Frame) : Prop :=
  AnsweredOnce s ∧ s.AllOut ∧ ∃ i,
    (∃ (seen : Readings) (buf : RxBuf),
      s.frames = ((r i).serve (plat i).identity seen (buf.load f)).2.toList) ∧
    ∀ j, j ≠ i → ∀ (seen : Readings) (buf : RxBuf),
      ((r j).serve (plat j).identity seen (buf.load f)).2 = none

/-- A round with a packet that is for one node at most, whose answer is for no other: afterwards the
nodes have the registers that the servers have, and the one server has answered. -/
theorem Mirrors.round (h : Mirrors nodes r) (hfits : f.Fits) (hlen : f.cmd = Cmd.addr → f.len = 4)
    {i : ι} (hothers : ∀ j, j ≠ i → ∀ buf : RxBuf, ¬Addressed (plat j) (buf.load f) (nodes j))
    {answer : Frame → Prop}
    (hrules : Rules (nodeReact plat) otherWork f i
      (fun j n => n.cfg = (nodes j).cfg ∧ n.pkt.rxbuf = (nodes j).pkt.rxbuf)
      (fun j n => n.cfg = (nodes j).cfg) answer)
    {actions : List (Broadcast.Action ι Node)}
    (hdrained : Meets (Broadcast.step (nodeReact plat) otherWork) Drained (start nodes f)
      actions) :
    let last := run (Broadcast.step (nodeReact plat) otherWork) (start nodes f) actions
    last.Quiet → Mirrors last.parties (busServe plat r f) ∧ AnsweredByOne plat r f last ∧
      HasServed plat r f i (last.parties i) last.frames := by
  intro last hquiet
  have hout : last.AllOut := run_allOut hdrained fun s i message rest hok hinbox =>
    nodeReact_out plat i message.frame (hok (by simp [hinbox]))
  obtain ⟨hidle, hserved, honce⟩ :=
    settled hrules (h.finishes i) (fun _ => ⟨rfl, rfl⟩) actions hquiet
  have hdone := hserved
  obtain ⟨hdurable, seen, buf, hregisters, hframes⟩ := hserved
  have hsilent (j : ι) (hj : j ≠ i) (seen : Readings) (buf : RxBuf) :=
    h.serve_other (hothers j hj buf) seen
  refine ⟨⟨fun j => ?_, fun j => ?_⟩, ⟨honce, hout, i, ⟨seen, buf, hframes⟩,
    fun j hj seen buf => congrArg Prod.snd (hsilent j hj seen buf)⟩, hdone⟩
  · by_cases hj : j = i
    · subst hj
      rw [hregisters, busServe, Registers.serve_load hfits hlen]
    · rw [busServe, Registers.serveFrame, hsilent j hj, ← h.registers j, Node.registers,
        Node.conf, hidle j hj]
      rfl
  · by_cases hj : j = i
    · subst hj
      exact hdurable
    · rw [hidle j hj]
      exact h.durable j

/-- A round with an orderly packet. -/
theorem Orderly.round [Nonempty ι] (h : Orderly plat r f) (hmirrors : Mirrors nodes r)
    (huid : Function.Injective fun i => (plat i).uid)
    {actions : List (Broadcast.Action ι Node)}
    (hdrained : Meets (Broadcast.step (nodeReact plat) otherWork) Drained (start nodes f)
      actions) :
    let last := run (Broadcast.step (nodeReact plat) otherWork) (start nodes f) actions
    last.Quiet → Mirrors last.parties (busServe plat r f) ∧ AnsweredByOne plat r f last := by
  intro last hquiet
  have haddr : Function.Injective fun i => (nodes i).nodeid := by
    simpa only [hmirrors.nodeid] using h.before
  obtain ⟨i, hothers⟩ := h.exists_responder hmirrors huid
  have hrules := responder_rules h.fits huid haddr (h.not_addressClash hmirrors)
    fun j hj => hothers j hj _
  obtain ⟨hnext, hanswered, -⟩ := hmirrors.round h.fits h.uid hothers hrules hdrained hquiet
  exact ⟨hnext, hanswered⟩

/-- The bus is an array of register servers: on a bus of nodes with distinct UIDs, in rounds of
packets each of which leaves the addresses distinct (an ADDR packet holding a whole UID), with the
nodes' transmit rings empty whenever they handle a packet, the nodes have after each round the
registers that the servers have, whatever the order in which they processed the packets and the
replies; and in every round the frames sent are the answer of one server and went out, no other
server has an answer, and no reply is answered. -/
theorem bus_serves [Nonempty ι] (huid : Function.Injective fun i => (plat i).uid)
    {last : ι → Node} {rounds : List (Frame × State ι Node Frame)}
    (hrounds : Rounds (nodeReact plat) otherWork Drained nodes rounds last)
    (hmirrors : Mirrors nodes r)
    (horderly : Meets (busServe plat) (Orderly plat) r (rounds.map Prod.fst)) :
    Mirrors last (run (busServe plat) r (rounds.map Prod.fst)) ∧
      ∀ done f s rest, rounds = done ++ (f, s) :: rest →
        AnsweredByOne plat (run (busServe plat) r (done.map Prod.fst)) f s :=
  hrounds.refines (fun _ _ _ _ h hok hdrained => hok.round h huid hdrained) hmirrors horderly

end Bus

/-- ADDR gives the second of two nodes the address 5. -/
def addrRound : State (Fin 2) Node Frame :=
  run (Broadcast.step (nodeReact twoBoards) otherWork) (start twoNodes ⟨0, 5, 4, 4, [1, 0, 0, 0]⟩)
    [.process 0, .process 1, .process 0]

/-- A PING for that address, once the reply to ADDR is out. -/
def pingRound : State (Fin 2) Node Frame :=
  run (Broadcast.step (nodeReact twoBoards) otherWork)
    (start addrRound.parties ⟨0, 5, 1, 0, []⟩)
    [.other 1 (twoNodes 1), .process 1, .process 0, .process 0]

/-- Two rounds on a bus of two nodes. -/
theorem bus_serves_two :
    Mirrors pingRound.parties (run (busServe twoBoards) (fun i => (twoNodes i).registers)
        [⟨0, 5, 4, 4, [1, 0, 0, 0]⟩, ⟨0, 5, 1, 0, []⟩]) ∧
      ∀ done f s rest, [(⟨0, 5, 4, 4, [1, 0, 0, 0]⟩, addrRound), (⟨0, 5, 1, 0, []⟩, pingRound)] =
          done ++ (f, s) :: rest →
        AnsweredByOne twoBoards
          (run (busServe twoBoards) (fun i => (twoNodes i).registers) (done.map Prod.fst)) f s := by
  have hquiet (s : State (Fin 2) Node Frame) (h : ∀ i : Fin 2, s.inbox i = []) : s.Quiet := h
  have hrounds : Rounds (nodeReact twoBoards) otherWork Drained twoNodes
      [(⟨0, 5, 4, 4, [1, 0, 0, 0]⟩, addrRound), (⟨0, 5, 1, 0, []⟩, pingRound)]
      pingRound.parties :=
    .round _ _ (by decide +kernel) (hquiet addrRound (by decide +kernel))
      (.round _ _ (by decide +kernel) (hquiet pingRound (by decide +kernel)) (.none _))
  have hmirrors : Mirrors twoNodes fun i => (twoNodes i).registers :=
    ⟨fun _ => rfl, fun i => cfgStore_durable (twoBoards i).tail _⟩
  have hinjective (r : Fin 2 → Registers)
      (h : ∀ i j, (r i).nodeid = (r j).nodeid → i = j) : Function.Injective fun i => (r i).nodeid :=
    fun i j => h i j
  refine bus_serves twoNodes_distinct.1 hrounds hmirrors ⟨?_, ?_, trivial⟩
  · exact ⟨⟨rfl, by decide⟩, fun _ => rfl, hinjective _ (by decide +kernel),
      hinjective _ (by decide +kernel)⟩
  · exact ⟨⟨rfl, by decide⟩, fun hcmd => absurd hcmd (by decide), hinjective _ (by decide +kernel),
      hinjective _ (by decide +kernel)⟩

end BmsNode
