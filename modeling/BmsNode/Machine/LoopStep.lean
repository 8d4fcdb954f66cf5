import BmsNode.Machine.Effects

/-!
# The branches of the main loop

`mainStep` computes the next program point of the main loop. `LoopStep` lists the
branches it can take, each with the tests that select it and the node it leaves. An
invariant of the main loop is then one case for each branch.
-/

namespace BmsNode

/-- A branch of the main loop, from one program point to the next. `tmr_process`, `pkt_ready` and
the dispatch have one for each result, and the check of the timeout has four. -/
inductive LoopStep (p : Platform) (samples : Vector UInt16 4) : Machine → Machine → Prop where
  | ledRun (n : Node) :
      LoopStep p samples ⟨n, .ledRun⟩
        ⟨n.withLeds (BmsNode.ledRun n.systick n.leds n.rig.gpio), .adcRun⟩
  | adcRun (n : Node) :
      LoopStep p samples ⟨n, .adcRun⟩
        ⟨{ n with adc := BmsNode.adcRun n.systick samples n.adc }, .tmrProcess⟩
  | expired (n : Node) (tmr : Tmr) (tmrlist : List Tmr)
      (htmr : tmrProcess n.systick n.tmrlist = (some tmr, tmrlist)) :
      LoopStep p samples ⟨n, .tmrProcess⟩
        ⟨{ n with tmrlist := tmrlist },
          .kissmRun (if tmr.id = stateTmrId then .timeout else .none) false⟩
  | unexpired (n : Node) (tmrlist : List Tmr)
      (htmr : tmrProcess n.systick n.tmrlist = (none, tmrlist)) :
      LoopStep p samples ⟨n, .tmrProcess⟩ ⟨{ n with tmrlist := tmrlist }, .pktReady⟩
  | ready (n : Node) (hready : n.pkt.readyPacket = true) :
      LoopStep p samples ⟨n, .pktReady⟩
        ⟨{ n with
            pkt := { n.pkt with readyPacket := false }
            cmd := { n.cmd with pktWaiting := false } }, .dispatch⟩
  | notReady (n : Node) (hready : n.pkt.readyPacket = false) :
      LoopStep p samples ⟨n, .pktReady⟩ ⟨n, .waitCheck⟩
  | restart (n : Node) (hswrr : (cmdDispatch p n.pkt.rxbuf n).2.swrr = true) :
      LoopStep p samples ⟨n, .dispatch⟩ (boot p (cmdDispatch p n.pkt.rxbuf n).2.cfg.eeprom)
  | returned (n : Node) (hswrr : (cmdDispatch p n.pkt.rxbuf n).2.swrr = false)
      (hret : (cmdDispatch p n.pkt.rxbuf n).1 = true) :
      LoopStep p samples ⟨n, .dispatch⟩ ⟨(cmdDispatch p n.pkt.rxbuf n).2, .kissmRun .cmd true⟩
  | handled (n : Node) (hswrr : (cmdDispatch p n.pkt.rxbuf n).2.swrr = false)
      (hret : (cmdDispatch p n.pkt.rxbuf n).1 = false) :
      LoopStep p samples ⟨n, .dispatch⟩ ⟨(cmdDispatch p n.pkt.rxbuf n).2, .rxFree⟩
  | rxFree (n : Node) : LoopStep p samples ⟨n, .rxFree⟩ ⟨n.rxFree, .waitCheck⟩
  | overdue (n : Node) (hwaiting : n.cmd.pktWaiting = true)
      (hexpired : tmrExpired n.systick n.cmd.pktTimeout = true) :
      LoopStep p samples ⟨n, .waitCheck⟩ ⟨n, .giveUp⟩
  | waiting (n : Node) (hwaiting : n.cmd.pktWaiting = true)
      (hexpired : tmrExpired n.systick n.cmd.pktTimeout = false) :
      LoopStep p samples ⟨n, .waitCheck⟩ ⟨n, .kissmRun .none false⟩
  | active (n : Node) (hwaiting : n.cmd.pktWaiting = false) (hactive : pktIsActive n.pkt = true) :
      LoopStep p samples ⟨n, .waitCheck⟩ ⟨n, .arm⟩
  | inactive (n : Node) (hwaiting : n.cmd.pktWaiting = false)
      (hactive : pktIsActive n.pkt = false) :
      LoopStep p samples ⟨n, .waitCheck⟩ ⟨n, .kissmRun .none false⟩
  | giveUp (n : Node) : LoopStep p samples ⟨n, .giveUp⟩ ⟨cmdGiveUp n, .kissmRun .none false⟩
  | arm (n : Node) (cmd : CmdTimer) (htimeout : cmd.pktTimeout = tmrSet n.systick 5000)
      (hwaiting : cmd.pktWaiting = true) :
      LoopStep p samples ⟨n, .arm⟩ ⟨{ n with cmd := cmd }, .kissmRun .none false⟩
  | kissmRun (n : Node) (event : Event) (held : Bool) :
      LoopStep p samples ⟨n, .kissmRun event held⟩ ⟨appRun p event n, .loopFree held⟩
  | freed (n : Node) : LoopStep p samples ⟨n, .loopFree true⟩ ⟨n.rxFree, .ledRun⟩
  | loop (n : Node) : LoopStep p samples ⟨n, .loopFree false⟩ ⟨n, .ledRun⟩

/-- The main loop takes one of its branches. -/
theorem mainStep_loopStep (p : Platform) (samples : Vector UInt16 4) (m : Machine) :
    LoopStep p samples m (mainStep p samples m) := by
  obtain ⟨n, pc⟩ := m
  cases pc with
  | ledRun => exact .ledRun n
  | adcRun => exact .adcRun n
  | tmrProcess =>
      simp only [mainStep]
      split
      · next tmr tmrlist htmr => exact .expired n tmr tmrlist htmr
      · next tmrlist htmr => exact .unexpired n tmrlist htmr
  | pktReady =>
      cases hready : n.pkt.readyPacket with
      | true =>
          simp only [mainStep, cmdReady, pktReady, hready]
          exact .ready n hready
      | false =>
          have hsame : { n with pkt := { n.pkt with readyPacket := false } } = n := by
            rw [← hready]
          simp only [mainStep, cmdReady, pktReady, hready, Bool.false_eq_true, if_false, hsame]
          exact .notReady n hready
  | dispatch =>
      simp only [mainStep]
      split_ifs with hswrr hret
      · exact .restart n hswrr
      · exact .returned n (by simpa using hswrr) hret
      · exact .handled n (by simpa using hswrr) (by simpa using hret)
  | rxFree => exact .rxFree n
  | waitCheck =>
      simp only [mainStep]
      split_ifs with hwaiting hexpired hactive
      · exact .overdue n hwaiting hexpired
      · exact .waiting n hwaiting (by simpa using hexpired)
      · exact .active n (by simpa using hwaiting) hactive
      · exact .inactive n (by simpa using hwaiting) (by simpa using hactive)
  | giveUp => exact .giveUp n
  | arm => exact .arm n ⟨tmrSet n.systick 5000, true⟩ rfl rfl
  | kissmRun event held => exact .kissmRun n event held
  | loopFree held =>
      cases held with
      | true => exact .freed n
      | false => exact .loop n

end BmsNode
