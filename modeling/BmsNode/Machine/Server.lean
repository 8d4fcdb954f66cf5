import BmsNode.Command.Server
import BmsNode.Machine.LoopStep
import BmsNode.Transition.Run

/-!
# The node serves its registers

Over a whole run, interrupts and the restarts of DFU included, a node is the server of
`Command.Server`: the packets its main loop dispatches are the requests, and nothing
else touches a register. What lies in the EEPROM stands for the registers at any program
point, so a restart there keeps them. A handler is one step here, with the block it
copies to the EEPROM.

The replies of this module are the frames handed to `pkt_send`. That they go out on the
bus is the matter of `Machine.Transmission`.
-/

namespace BmsNode

open Transition

/-! ## Exchanges -/

/-- A request with what the node measured at that moment and the frames it handed to `pkt_send`. -/
structure Exchange where
  seen : Readings
  request : RxBuf
  replies : List Frame
  deriving DecidableEq

/-- The server takes an exchange when the frames are its answer. -/
def Registers.take (me : Identity) (r : Registers) (x : Exchange) : Option Registers :=
  let (next, reply) := r.serve me x.seen x.request
  if x.replies = reply.toList then some next else none

/-- The exchange of an action: the dispatch of a packet is one. -/
def exchanges (p : Platform) (m : Machine) : Action → List Exchange
  | .main _ =>
      match m.pc with
      | .dispatch =>
          [{ seen := m.node.readings p
             request := m.node.pkt.rxbuf
             replies := sentFrames m.node (cmdDispatch p m.node.pkt.rxbuf m.node).2 }]
      | _ => []
  | _ => []

/-- What the server does in an exchange. -/
theorem Registers.take_served {me : Identity} {r next : Registers} {x : Exchange}
    (h : r.take me x = some next) : ∃ reply, x.replies = reply.toList ∧
      Registers.Served r x.request (next, reply) := by
  have hserved := Registers.serve_served me x.seen r x.request
  unfold Registers.take at h
  generalize r.serve me x.seen x.request = result at h hserved
  obtain ⟨served, reply⟩ := result
  change (if x.replies = reply.toList then some served else none) = some next at h
  split_ifs at h with hreplies
  obtain rfl := Option.some.inj h
  exact ⟨reply, hreplies, hserved⟩

/-- The server takes the exchange of a dispatch. -/
theorem Registers.take_dispatch (p : Platform) (buf : RxBuf) (n : Node) :
    n.registers.take p.identity ⟨n.readings p, buf, sentFrames n (cmdDispatch p buf n).2⟩ =
      some (cmdDispatch p buf n).2.registers := by
  obtain ⟨hregisters, hsends⟩ := cmdDispatch_serves p buf n
  rw [hregisters, Registers.take, hsends.sentFrames]
  exact if_pos rfl

/-! ## The EEPROM -/

/-- Sending changes no configuration. -/
theorem Node.send_cfg (n : Node) (flags addr cmd : UInt8) (payload : List UInt8) (len : UInt8) :
    (n.send flags addr cmd payload len).2.cfg = n.cfg := rfl

/-- The configuration is what calls of the configuration module have made of it. -/
def CfgCalls (cfg cfg' : Cfg) : Prop := ∃ calls, cfg' = run cfgStep cfg calls

/-- A configuration left alone. -/
theorem CfgCalls.of_eq {cfg cfg' : Cfg} (h : cfg' = cfg) : CfgCalls cfg cfg' := ⟨[], h⟩

/-- Calls keep RAM and EEPROM in agreement. -/
theorem CfgCalls.durable {cfg cfg' : Cfg} (h : CfgCalls cfg cfg') (hdurable : Durable cfg) :
    Durable cfg' := by
  obtain ⟨calls, rfl⟩ := h
  exact run_invariant_always (P := Durable) (fun _ call h => cfgStep_durable h call) calls hdurable

/-- Sending makes no call of the configuration module. -/
theorem CfgCalls.send {n before : Node} (h : CfgCalls n.cfg before.cfg)
    (flags addr cmd : UInt8) (payload : List UInt8) (len : UInt8) :
    CfgCalls n.cfg (before.send flags addr cmd payload len).2.cfg := by
  rw [Node.send_cfg]
  exact h

/-- ADDR sets the address parameter and stores the configuration once more. -/
theorem cmdAddr_cfgCalls (p : Platform) (buf : RxBuf) (n : Node) :
    CfgCalls n.cfg (cmdAddr p buf n).2.cfg := by
  have hstore : CfgCalls n.cfg (cfgStore p.tail (cfgSet p.tail n.cfg 2 #v[1, buf.addr, 0]).2) :=
    ⟨[(.set 2 #v[1, buf.addr, 0], p.tail), (.store, p.tail)], rfl⟩
  simp only [cmdAddr]
  generalize cfgStore p.tail _ = cfg at hstore ⊢
  split_ifs
  · exact hstore.send _ _ _ _ _
  · exact .of_eq rfl

/-- A command for this address. -/
theorem cmdSwitch_cfgCalls (p : Platform) (buf : RxBuf) (n : Node) :
    CfgCalls n.cfg (cmdSwitch p buf n).2.cfg := by
  have hself : CfgCalls n.cfg n.cfg := .of_eq rfl
  refine cmdSwitch_rule (P := fun handler => CfgCalls n.cfg (handler n).2.cfg) p buf
    ?ack ?dfu ?uid ?adcraw ?status ?getparm ?setparm ?testmode ?factory hself
  case ack => exact fun _ => hself.send _ _ _ _ _
  case dfu => exact fun _ => hself
  case uid => exact fun _ => hself.send _ _ _ _ _
  case adcraw => exact fun _ => hself.send _ _ _ _ _
  case status =>
    intro _
    obtain ⟨timeout, pld, -, hstatus⟩ := cmdStatus_eq p n
    rw [hstatus, Node.send_cfg]
    exact hself
  case getparm =>
    intro _
    simp only [cmdGetparm]
    exact hself.send _ _ _ _ _
  case setparm =>
    intro _
    have hset : CfgCalls n.cfg
        (cfgSet p.tail n.cfg buf.len #v[buf.payload 0, buf.payload 1, buf.payload 2]).2 :=
      ⟨[(.set buf.len #v[buf.payload 0, buf.payload 1, buf.payload 2], p.tail)], rfl⟩
    simp only [cmdSetparm]
    generalize (cfgSet p.tail n.cfg buf.len _).2 = cfg at hset ⊢
    exact hset.send _ _ _ _ _
  case testmode =>
    intro _
    simp only [cmdTestmode, cmdAck, Node.send_cfg]
    split_ifs
    all_goals exact hself
  case factory =>
    intro _
    have hreset : CfgCalls n.cfg (cfgReset p.tail n.cfg) := ⟨[(.reset, p.tail)], rfl⟩
    simp only [cmdFactory]
    generalize cfgReset p.tail n.cfg = cfg at hreset ⊢
    exact hreset.send _ _ _ _ _

/-- The command processor changes the configuration through the calls of its module only. -/
theorem cmdDispatch_cfgCalls (p : Platform) (buf : RxBuf) (n : Node) :
    CfgCalls n.cfg (cmdDispatch p buf n).2.cfg := by
  by_cases haddressed : Addressed p buf n
  · rw [cmdDispatch_addressed haddressed]
    split_ifs
    · exact cmdAddr_cfgCalls p buf n
    · exact CfgCalls.send (.of_eq rfl) _ _ _ _ _
    · exact cmdSwitch_cfgCalls p buf n
  · rw [cmdDispatch_not_addressed haddressed]
    exact .of_eq rfl

/-! ## Runs -/

/-- The machine holds the registers of the server, and its EEPROM stands for them. -/
structure Holding (m : Machine) (r : Registers) : Prop where
  registers : m.node.registers = r
  durable : Durable m.node.cfg

/-- Nothing but the configuration counts. -/
theorem Holding.keep {m m' : Machine} {r : Registers} (h : Holding m r)
    (hcfg : m'.node.cfg = m.node.cfg) : Holding m' r := by
  refine ⟨?_, ?_⟩
  · rw [Node.registers, Node.conf, hcfg]
    exact h.registers
  · rw [hcfg]
    exact h.durable

/-- The firmware starts with the registers that its EEPROM stands for. -/
theorem boot_holding (p : Platform) (eeprom : Config) :
    Holding (boot p eeprom) eeprom.storedRegisters :=
  ⟨cfgLoad_registers p.tail { gCfgParms := Vector.replicate 26 0, eeprom := eeprom },
    cfgLoad_durable p.tail { gCfgParms := Vector.replicate 26 0, eeprom := eeprom }⟩

/-- A program point other than the dispatch is no exchange. -/
theorem exchanges_of_ne {p : Platform} {m : Machine} (samples : Vector UInt16 4)
    (hpc : m.pc ≠ .dispatch) : exchanges p m (.main samples) = [] := by
  obtain ⟨n, pc⟩ := m
  cases pc with
  | dispatch => exact absurd rfl hpc
  | _ => rfl

/-- A dispatch is an exchange of the server, and keeps the EEPROM in agreement. -/
theorem Holding.dispatch {p : Platform} {n : Node} {pc : Control} {r : Registers}
    (h : Holding ⟨n, pc⟩ r) (samples : Vector UInt16 4) :
    follow (Registers.take p.identity) r (exchanges p ⟨n, .dispatch⟩ (.main samples)) =
        some (cmdDispatch p n.pkt.rxbuf n).2.registers ∧
      Durable (cmdDispatch p n.pkt.rxbuf n).2.cfg := by
  obtain rfl := h.registers
  refine ⟨?_, (cmdDispatch_cfgCalls p n.pkt.rxbuf n).durable h.durable⟩
  show (Registers.take p.identity n.registers _).bind some = _
  rw [Registers.take_dispatch, Option.bind_some]

/-- Every program point goes with the server. -/
theorem Holding.main {p : Platform} {m : Machine} {r : Registers} (h : Holding m r)
    (samples : Vector UInt16 4) :
    ∃ next, follow (Registers.take p.identity) r (exchanges p m (.main samples)) = some next ∧
      Holding (mainStep p samples m) next := by
  have hstep := mainStep_loopStep p samples m
  generalize mainStep p samples m = m' at hstep ⊢
  cases hstep with
  | restart n =>
      -- the restart loads what the handler left in the EEPROM
      obtain ⟨hfollow, hdurable⟩ := h.dispatch (p := p) samples
      refine ⟨_, hfollow, ?_⟩
      have hboot := boot_holding p (cmdDispatch p n.pkt.rxbuf n).2.cfg.eeprom
      rw [hdurable.storedRegisters] at hboot
      exact hboot
  | returned n | handled n =>
      obtain ⟨hfollow, hdurable⟩ := h.dispatch (p := p) samples
      exact ⟨_, hfollow, rfl, hdurable⟩
  | kissmRun n event held =>
      exact ⟨r, rfl, h.keep (appRun_frame p event n).cfg⟩
  | ledRun | adcRun | expired | unexpired | ready | notReady | rxFree | overdue | waiting | active
  | inactive | giveUp | arm | freed | loop => exact ⟨r, rfl, h.keep rfl⟩

/-- Every action goes with the server. -/
theorem Holding.step {p : Platform} {m : Machine} {r : Registers} (h : Holding m r)
    (action : Action) :
    ∃ next, follow (Registers.take p.identity) r (exchanges p m action) = some next ∧
      Holding (step p m action) next := by
  cases action with
  | tick | shift => exact ⟨r, rfl, h.keep rfl⟩
  | rx byte => exact ⟨r, rfl, h.keep rfl⟩
  | dre | txc =>
      refine ⟨r, rfl, ?_⟩
      simp only [BmsNode.step]
      split_ifs
      · exact h.keep rfl
      · exact h
  | main samples => exact h.main samples

/-- The server follows every run. -/
theorem run_holding (p : Platform) (eeprom : Config) (actions : List Action) :
    ∃ r, follow (Registers.take p.identity) eeprom.storedRegisters
        (trace (step p) (exchanges p) (boot p eeprom) actions) = some r ∧
      Holding (run (step p) (boot p eeprom) actions) r :=
  run_simulation (R := Holding) (fun _ action _ h => h.step action) actions (boot_holding p eeprom)

/-! ## Reading back -/

/-- An exchange may change the register with an id: it is an answered FACTORY, an answered SETPARM
for the id with its length, or, for the address, an answered ADDR. -/
def Exchange.Rewrites (id : UInt8) (x : Exchange) : Prop :=
  x.replies ≠ [] ∧ (x.request.cmd = Cmd.factory ∨
    x.request.cmd = Cmd.setparm ∧ x.request.payload 0 = id ∧
      x.request.len.toNat = (parmType id).size + 1 ∨
    x.request.cmd = Cmd.addr ∧ id = 1)

/-- Whether an exchange may change a register can be checked. -/
instance (id : UInt8) (x : Exchange) : Decidable (x.Rewrites id) :=
  inferInstanceAs (Decidable (_ ∧ _))

/-- Any other exchange leaves the register alone. -/
theorem Registers.take_other {me : Identity} {r next : Registers} {x : Exchange} {id : UInt8}
    (h : r.take me x = some next) (hother : ¬x.Rewrites id) : next id = r id := by
  obtain ⟨reply, hreplies, hserved⟩ := Registers.take_served h
  cases reply with
  | none => rw [hserved.unanswered]
  | some reply =>
      have hsome : x.replies ≠ [] := by rw [hreplies]; simp
      refine hserved.other (fun hfactory => ?_) (fun hsetparm hid hlen => ?_) fun haddr hid => ?_
      · exact hother ⟨hsome, .inl hfactory⟩
      · exact hother ⟨hsome, .inr (.inl ⟨hsetparm, hid, hlen⟩)⟩
      · exact hother ⟨hsome, .inr (.inr ⟨haddr, hid⟩)⟩

/-- A server answers GETPARM with the value of the last SETPARM. -/
theorem follow_read_back {me : Identity} {r last : Registers} {id : UInt8}
    {set get : Exchange} {between after : List Exchange}
    (hfollow : follow (Registers.take me) r (set :: between ++ get :: after) = some last)
    (hset : set.request.cmd = Cmd.setparm ∧ set.request.payload 0 = id ∧ set.replies ≠ [])
    (hid : ParmId id) (hlen : set.request.len.toNat = (parmType id).size + 1)
    (hbetween : ∀ x ∈ between, ¬x.Rewrites id)
    (hget : get.request.cmd = Cmd.getparm ∧ get.request.payload 0 = id ∧ get.replies ≠ []) :
    get.replies.map Frame.payload =
      [id :: [set.request.payload 1, set.request.payload 2].take (parmType id).size] := by
  obtain ⟨written, hwrite, hrest⟩ := Option.bind_eq_some_iff.mp hfollow
  change follow (Registers.take me) written (between ++ get :: after) = some last at hrest
  rw [follow_append] at hrest
  obtain ⟨held, hheld, hrest⟩ := Option.bind_eq_some_iff.mp hrest
  obtain ⟨next, hread, -⟩ := Option.bind_eq_some_iff.mp hrest
  have hvalue : held.read id =
      [set.request.payload 1, set.request.payload 2].take (parmType id).size := by
    obtain ⟨reply, hreplies, hserved⟩ := Registers.take_served hwrite
    obtain ⟨f, rfl⟩ : ∃ f, reply = some f := by
      cases reply with
      | none => exact absurd hreplies hset.2.2
      | some f => exact ⟨f, rfl⟩
    have hkept : held id = written id :=
      follow_invariant (P := fun state => state id = written id)
        (fun x hx state next hstate hnext =>
          (Registers.take_other hnext (hbetween x hx)).trans hstate) rfl hheld
    rw [hserved.written hset.1, hset.2.1] at hkept
    rw [← Registers.read_write r _ _ hid hlen, Registers.read, Registers.read, hkept]
  obtain ⟨reply, hreplies, hserved⟩ := Registers.take_served hread
  cases reply with
  | none => exact absurd hreplies hget.2.2
  | some f =>
      rw [hreplies, Option.toList_some, List.map_singleton, hserved.value hget.1, hget.2.1, hvalue]

/-- GETPARM reads back what was written: in every run, whatever else is received or interrupted and
also over restarts by CMD_DFU, the answer to a GETPARM has the bytes of the last answered SETPARM of
its parameter that had the parameter's length, as long as no answered FACTORY (or ADDR, for the
address) comes between the two. A packet is answered when a reply to it is handed to `pkt_send`. A
SETPARM with another length is answered too, and changes nothing. -/
theorem setparm_getparm (p : Platform) (eeprom : Config) (actions : List Action) {id : UInt8}
    {before between after : List Exchange} {set get : Exchange}
    (hevents : trace (step p) (exchanges p) (boot p eeprom) actions =
      before ++ (set :: between ++ get :: after))
    (hset : set.request.cmd = Cmd.setparm ∧ set.request.payload 0 = id ∧ set.replies ≠ [])
    (hid : ParmId id) (hlen : set.request.len.toNat = (parmType id).size + 1)
    (hbetween : ∀ x ∈ between, ¬x.Rewrites id)
    (hget : get.request.cmd = Cmd.getparm ∧ get.request.payload 0 = id ∧ get.replies ≠ []) :
    get.replies.map Frame.payload =
      [id :: [set.request.payload 1, set.request.payload 2].take (parmType id).size] := by
  obtain ⟨last, hfollow, -⟩ := run_holding p eeprom actions
  rw [hevents, follow_append] at hfollow
  obtain ⟨r, -, hfollow⟩ := Option.bind_eq_some_iff.mp hfollow
  exact follow_read_back hfollow hset hid hlen hbetween hget

/-- SETPARM, another one that is too short, and GETPARM for the node at address 1, each handled in
one pass. -/
def setGet : List Action :=
  let request (cmd len : UInt8) (payload : List UInt8) : List Action :=
    ((pktPreamble :: (Frame.mk 0 1 cmd len payload).wire).map .rx) ++
      List.replicate 9 (.main (Vector.replicate 4 0))
  request Cmd.setparm 3 [2, 0x34, 0x12] ++ request Cmd.setparm 2 [2, 0x99] ++
    request Cmd.getparm 1 [2]

/-- The exchanges of these requests. -/
def setGetExchange (k : Nat) : Exchange :=
  ((trace (step benchBoard) (exchanges benchBoard)
    (boot benchBoard (freshNode benchBoard 1).cfg.eeprom) setGet)[k]?).getD
    ⟨⟨[], []⟩, Pkt.init.rxbuf, []⟩

/-- Parameter 2 has two bytes, so the second SETPARM does not count. -/
theorem setparm_getparm_session :
    (setGetExchange 2).replies.map Frame.payload =
      [2 :: [(setGetExchange 0).request.payload 1, (setGetExchange 0).request.payload 2].take
        (parmType 2).size] :=
  have hevents : trace (step benchBoard) (exchanges benchBoard)
      (boot benchBoard (freshNode benchBoard 1).cfg.eeprom) setGet =
        [] ++ (setGetExchange 0 :: [setGetExchange 1] ++ setGetExchange 2 :: []) := by
    decide +kernel
  setparm_getparm benchBoard (freshNode benchBoard 1).cfg.eeprom setGet hevents
    (by decide +kernel) (by decide) (by decide +kernel) (by decide +kernel) (by decide +kernel)

/-! ## Restarts -/

/-- At every program point of every run the EEPROM stands for the registers: a restart there has all
thirteen parameters unchanged. A handler is one step, so neither the time between a change of the
live block and the copy to the EEPROM nor the copy itself is such a point. -/
theorem restart_registers (p : Platform) (eeprom : Config) (actions : List Action) :
    let m := run (step p) (boot p eeprom) actions
    (boot p m.node.cfg.eeprom).node.registers = m.node.registers := by
  intro m
  obtain ⟨r, -, hholding⟩ := run_holding p eeprom actions
  rw [(boot_holding p m.node.cfg.eeprom).registers]
  exact hholding.durable.storedRegisters

end BmsNode
