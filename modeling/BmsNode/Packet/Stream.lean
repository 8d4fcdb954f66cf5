import BmsNode.Packet.RoundTrip

/-!
# A stream of sent frames

Packets sent one after the other and cut off at any byte: a client of the parser obtains
the packets that are complete, in order, and nothing of the one that is cut.
-/

namespace BmsNode

open Transition

/-- The bytes `pkt_send` puts on the bus for a frame. -/
def Frame.sent (f : Frame) : List UInt8 := List.replicate 4 pktPreamble ++ f.wire

/-- As long as no packet is ready the client only waits. -/
theorem deliveries_waiting {p : Pkt} (bytes rest : List UInt8)
    (hnot : ∀ k ≤ bytes.length, (run pktParser p (bytes.take k)).readyPacket = false) :
    deliveries p (bytes ++ rest) = deliveries (run pktParser p bytes) rest := by
  induction bytes generalizing p with
  | nil => rfl
  | cons byte bytes ih =>
      have hfirst : (pktParser p byte).readyPacket = false := hnot 1 (by simp)
      rw [List.cons_append, deliveries_cons_of_not_ready _ hfirst, run_cons]
      refine ih fun k hk => ?_
      have hnext := hnot (k + 1) (by simpa using hk)
      rwa [List.take_succ_cons, run_cons] at hnext

/-- A client between frames obtains nothing of a sent frame that is cut off. -/
theorem Between.deliveries_cut {f : Frame} (hf : f.Fits) {p : Pkt} (hp : Between p) {k : Nat}
    (hk : k < f.sent.length) : deliveries p (f.sent.take k) = [] := by
  have hnot := (hp.receive hf).1
  have hwait := deliveries_waiting (p := p) (f.sent.take k) [] fun j hj => by
    rw [List.take_take]
    exact hnot _ (Nat.lt_of_le_of_lt (Nat.min_le_right ..) hk)
  rw [List.append_nil] at hwait
  rw [hwait]
  rfl

/-- A client between frames obtains a sent frame, and is between frames again. -/
theorem Between.deliveries_sent {f : Frame} (hf : f.Fits) {p : Pkt} (hp : Between p)
    (rest : List UInt8) :
    ∃ q, Between q ∧ deliveries p (f.sent ++ rest) = f :: deliveries q rest := by
  obtain ⟨hnot, hready, hframe, hstate⟩ := hp.receive hf
  obtain ⟨bytes, last, hsplit⟩ : ∃ bytes last, f.sent = bytes ++ [last] :=
    ⟨_, _, (List.append_assoc ..).symm⟩
  have hlength : f.sent.length = bytes.length + 1 := by rw [hsplit]; simp
  have hwait := deliveries_waiting (p := p) bytes (last :: rest) fun k hk => by
    have htake : bytes.take k = f.sent.take k := by
      rw [hsplit, List.take_append_of_le_length hk]
    rw [htake]
    exact hnot k (show k < f.sent.length by omega)
  have hlast : pktParser (run pktParser p bytes) last = run pktParser p f.sent := by
    rw [hsplit, run_concat]
  change (run pktParser p f.sent).readyPacket = true at hready
  change (run pktParser p f.sent).rxbuf.frame = f at hframe
  change (run pktParser p f.sent).state = .search at hstate
  generalize run pktParser p f.sent = q at hready hframe hstate hlast
  refine ⟨pktRxFree { q with readyPacket := false }, ⟨.inl hstate, rfl, rfl⟩, ?_⟩
  rw [hsplit, List.append_assoc, List.singleton_append, hwait, deliveries, clientStep, hlast,
    pktReady, hready]
  show q.rxbuf.frame :: deliveries _ rest = _
  rw [hframe]

/-- A client that listens to a stream of sent frames from its start on obtains the frames that have
been sent completely; the bytes still missing end with all frames but the first of the others. -/
theorem Between.deliveries_stream {frames : List Frame} (hfits : ∀ f ∈ frames, f.Fits)
    {wire missing : List UInt8} (hstream : wire ++ missing = frames.flatMap Frame.sent) {p : Pkt}
    (hp : Between p) :
    ∃ late, frames = deliveries p wire ++ late ∧ (late = [] ↔ missing = []) ∧
      ∃ cut, missing = cut ++ late.tail.flatMap Frame.sent ∧ (late ≠ [] → cut ≠ []) := by
  induction frames generalizing p wire with
  | nil =>
      obtain ⟨rfl, rfl⟩ := List.append_eq_nil_iff.mp hstream
      exact ⟨[], rfl, by simp, [], rfl, by simp⟩
  | cons f frames ih =>
      have hf := hfits f (List.mem_cons_self ..)
      rw [List.flatMap_cons] at hstream
      by_cases hcut : wire.length < f.sent.length
      · -- the first frame is cut off
        have hwire : wire = f.sent.take wire.length := by
          have htake := congrArg (List.take wire.length) hstream
          rwa [List.take_left, List.take_append_of_le_length (by omega)] at htake
        have hmissing : missing = f.sent.drop wire.length ++ frames.flatMap Frame.sent := by
          have hdrop := congrArg (List.drop wire.length) hstream
          rwa [List.drop_left, List.drop_append_of_le_length (by omega)] at hdrop
        have hrest : f.sent.drop wire.length ≠ [] := by
          rw [ne_eq, List.drop_eq_nil_iff]
          omega
        have hnone : deliveries p wire = [] := by
          rw [hwire]
          exact hp.deliveries_cut hf hcut
        refine ⟨f :: frames, by rw [hnone, List.nil_append], ?_, _, hmissing, fun _ => hrest⟩
        rw [hmissing]
        simp [hrest]
      · -- the first frame is complete
        obtain ⟨rest, rfl⟩ : ∃ rest, wire = f.sent ++ rest := by
          refine ⟨wire.drop f.sent.length, ?_⟩
          have htake := congrArg (List.take f.sent.length) hstream
          rw [List.take_left, List.take_append_of_le_length (by omega)] at htake
          conv_lhs => rw [← List.take_append_drop f.sent.length wire, htake]
        rw [List.append_assoc] at hstream
        obtain ⟨q, hq, hdeliver⟩ := hp.deliveries_sent hf rest
        obtain ⟨late, hlate, hmissing⟩ :=
          ih (fun g hg => hfits g (List.mem_cons_of_mem _ hg)) (List.append_cancel_left hstream) hq
        refine ⟨late, ?_, hmissing⟩
        rw [hdeliver, List.cons_append, ← hlate]

end BmsNode
