import Xcm.Pong.Latency
import Xcm.Pong.Main

/-!
# Runs that Complete

`Xcm.Pong.Session` and `Xcm.Pong.Latency` bound what every pair of runs of a client and
`handle_client` has sent and read, and what a run that has ended has done. This module
shows that such a run exists for every setting `main` accepts: on a transport that moves
each frame in one call, with a server that keeps up with its client, reading each request
as soon as it has been sent, both clients return and the server ends on `TERM_REQ`, each
having read all the other wrote. It shows too the setting for which no run returns: the
`int` products the clients compute for their reports overflow.

## Main results

* `latency_completes`: the latency client returns after `num_rt * batch_size` round trips,
  and the server ends on its `TERM_REQ`, when `num_rt * batch_size` fits an `int`.
* `throughput_completes`: the throughput client returns with the server's CPU time, and the
  server ends on its `TERM_REQ`, when `num_rt * 2` fits an `int`.
* `latency_overflow_never_returns`, `throughput_overflow_never_returns`: when the product
  does not fit, the client never returns.
-/

namespace Xcm.Pong

/-! ### Calls that move a whole frame -/

section Whole

variable {m tail out : List UInt8} {k cap : Nat} {sched : List Answer}

/-- A call that may take the whole frame sends it in one. -/
theorem bsend_whole (hk : (frame m).length ≤ k + 1) (hint : (frame m).length ≤ intMax) :
    bsend m (.take k :: sched) out = .ok (true, sched, out ++ frame m) := by
  rw [bsend, bsendLoop_take (by simp)]
  simp only [Nat.sub_zero, Nat.zero_add, List.drop_zero]
  rw [Nat.min_eq_right (by omega), Nat.min_eq_left hint, if_neg (by omega), if_neg (by omega),
    List.take_length]

/-- Two calls that may each deliver a whole frame read the header in the first and the
body in the second. -/
theorem breceive_whole (hm : 0 < m.length) (hcap : m.length ≤ cap) (hk : m.length + 3 ≤ k)
    (hint : m.length ≤ intMax) :
    breceive cap (.take k :: .take k :: sched) (frame m ++ tail) =
      .ok (.pos m.length, sched, tail, m) := by
  have hpos : 4 ≤ intMax := by decide
  rw [frame_append, breceive,
    xcmReceive_take (by decide) (by simp only [List.length_append, length_header]; omega)]
  simp only [List.length_append, length_header]
  rw [show min (k + 1) (min 4 (min (4 + (m.length + tail.length)) intMax)) = 4 by omega,
    if_neg (by decide), List.take_left' length_header, List.drop_left' length_header,
    receiveBody, unle_header hint, if_neg (by omega),
    receiveChunk_take hm (by simp; omega) hint]
  simp only [Nat.sub_zero, Nat.zero_add, List.length_append, List.nil_append]
  rw [show min (k + 1) (min m.length (min (m.length + tail.length) intMax)) = m.length by omega,
    if_neg (Nat.lt_irrefl _), List.take_left, List.drop_left]

theorem breceive_again (rest : List UInt8) :
    breceive cap (.again :: sched) rest = .ok (.again, sched, rest, []) := rfl

end Whole

/-! ### A server that keeps up -/

/-- The answers to the server's `xcm_receive` calls when it keeps up with its client: each
of `n` requests is read as soon as it has been sent, its header and its body in one call
each, and the next call finds nothing yet (`EAGAIN`). -/
def keepingUp (k : Nat) : Nat → List Answer
  | 0 => []
  | n + 1 => .take k :: .take k :: .again :: keepingUp k n

theorem keepingUp_add (k a : Nat) : ∀ b, keepingUp k (b + a) = keepingUp k b ++ keepingUp k a
  | 0 => by rw [Nat.zero_add]; rfl
  | b + 1 => by
    rw [Nat.add_right_comm, keepingUp, keepingUp, keepingUp_add k a b]; rfl

variable (cap : Nat) (cpu : List UInt8 → Nat)

theorem Server.run_add (a b : Nat) (s : Server) :
    Server.run cap cpu (a + b) s = Server.run cap cpu b (Server.run cap cpu a s) := by
  induction a generalizing s with
  | zero => rw [Nat.zero_add]; rfl
  | succ a ih => rw [Nat.succ_add]; exact ih _

theorem respond_reflect {m : List UInt8} (ht : m.headD 0 = reflectReq) (v : Nat) :
    respond v m = .ok m := by
  simp only [respond, ht]; rfl

section KeepingUp

variable {cap cpu} {m : List UInt8} {k : Nat} {rs ss : List Answer} {rest out : List UInt8}

theorem Server.step_receive {b : List (List UInt8)} (hb : b.length < maxServerBatch)
    (hm : 0 < m.length) (hcap : m.length ≤ cap) (hk : m.length + 3 ≤ k)
    (hint : m.length ≤ intMax) :
    Server.step cap cpu ⟨.receiving b, .take k :: .take k :: rs, frame m ++ rest, ss, out⟩ =
      ⟨.receiving (b ++ [m]), rs, rest, ss, out⟩ := by
  rw [Server.step]
  dsimp only
  rw [if_pos hb, breceive_whole hm hcap hk hint]

theorem Server.step_again {b : List (List UInt8)} (hb : (m :: b).length < maxServerBatch) :
    Server.step cap cpu ⟨.receiving (m :: b), .again :: rs, rest, ss, out⟩ =
      ⟨.answering (m :: b), rs, rest, ss, out⟩ := by
  simp only [Server.step, if_pos hb, breceive_again]; rfl

theorem Server.step_respond {b : List (List UInt8)} {r : List UInt8}
    (hr : respond (cpu out) m = .ok r) (hk : (frame r).length ≤ k + 1)
    (hint : (frame r).length ≤ intMax) :
    Server.step cap cpu ⟨.answering (m :: b), rs, rest, .take k :: ss, out⟩ =
      ⟨.answering b, rs, rest, ss, out ++ frame r⟩ := by
  rw [Server.step]
  dsimp only
  rw [hr]
  dsimp only
  rw [bsend_whole hk hint]

/-- A server that keeps up answers a request in four steps: it reads it, finds nothing
more, sends the response and goes back to reading. -/
theorem Server.run_answer {r : List UInt8} (hm : 0 < m.length) (hcap : m.length ≤ cap)
    (hk : m.length + 3 ≤ k) (hint : m.length ≤ intMax) (hr : respond (cpu out) m = .ok r)
    (hrk : r.length + 3 ≤ k) (hrint : r.length + 4 ≤ intMax) :
    Server.run cap cpu 4 ⟨.receiving [], .take k :: .take k :: .again :: rs, frame m ++ rest,
        .take k :: ss, out⟩ =
      ⟨.receiving [], rs, rest, ss, out ++ frame r⟩ := by
  simp only [Server.run, Server.step_receive (b := []) (k := k) (by decide) hm hcap hk hint,
    List.nil_append, Server.step_again (m := m) (b := []) (by simp [maxServerBatch]),
    Server.step_respond (k := k) hr (by simp; omega) (by simp; omega)]
  rfl

/-- A server that keeps up answers `j` requests to reflect in `4 * j` steps. -/
theorem Server.run_reflects (hm : 0 < m.length) (hcap : m.length ≤ cap)
    (hk : m.length + 3 ≤ k) (hint : m.length + 4 ≤ intMax) (ht : m.headD 0 = reflectReq)
    (rs ss : List Answer)
    (rest : List UInt8) : ∀ (j : Nat) (out : List UInt8),
    Server.run cap cpu (4 * j) ⟨.receiving [], keepingUp k j ++ rs,
        frames (List.replicate j m) ++ rest, List.replicate j (.take k) ++ ss, out⟩ =
      ⟨.receiving [], rs, rest, ss, out ++ frames (List.replicate j m)⟩
  | 0, out => by
    simp only [keepingUp, List.replicate, frames, List.nil_append, List.append_nil]; rfl
  | j + 1, out => by
    rw [show 4 * (j + 1) = 4 + 4 * j by omega, Server.run_add, keepingUp, List.replicate_succ,
      List.replicate_succ, frames, List.append_assoc, List.cons_append, List.cons_append,
      List.cons_append, List.cons_append,
      Server.run_answer hm hcap hk (by omega) (respond_reflect ht _) hk hint,
      Server.run_reflects hm hcap hk hint ht rs ss rest j, List.append_assoc]

/-- A server that keeps up ends on `TERM_REQ` in three steps, answering nothing more. -/
theorem Server.run_term (hk : 4 ≤ k) (hcap : 1 ≤ cap) :
    Server.run cap cpu 3 ⟨.receiving [], .take k :: .take k :: .again :: rs, frame [termReq],
        ss, out⟩ =
      ⟨.exited .term, rs, [], ss, out⟩ := by
  rw [← List.append_nil (frame [termReq])]
  simp only [Server.run, Server.step_receive (b := []) (m := [termReq]) (k := k) (by decide)
      (by decide) hcap (by simp; omega) (by decide),
    List.nil_append, Server.step_again (m := [termReq]) (b := []) (by decide)]
  rfl

end KeepingUp

/-! ### The latency client on a transport that moves whole frames -/

theorem replicate_succ_mul {α : Type} (a : α) (j n : Nat) :
    List.replicate ((j + 1) * n) a = List.replicate n a ++ List.replicate (j * n) a := by
  rw [Nat.succ_mul, Nat.add_comm, List.replicate_add]

section LatencyRun

variable {cfg : ClientCfg} {k : Nat} {rt i : Nat} {ss rs : List Answer} {out rest : List UInt8}

theorem Latency.run_add (a b : Nat) (c : Latency) :
    Latency.run cfg (a + b) c = Latency.run cfg b (Latency.run cfg a c) := by
  induction a generalizing c with
  | zero => rw [Nat.zero_add]; rfl
  | succ a ih => rw [Nat.succ_add]; exact ih _

variable {msg : List UInt8}

theorem Latency.run_one (c : Latency) : Latency.run cfg 1 c = Latency.step cfg c := rfl

theorem Latency.step_start (hrt : rt < cfg.numRt) :
    Latency.step cfg ⟨.round rt, msg, ss, out, rs, rest⟩ =
      ⟨.sending rt 0, msg, ss, out, rs, rest⟩ := by
  simp only [Latency.step, if_pos hrt]

theorem Latency.step_sent :
    Latency.step cfg ⟨.sending rt cfg.batchSize, msg, ss, out, rs, rest⟩ =
      ⟨.receiving rt 0, msg, ss, out, rs, rest⟩ := by
  simp only [Latency.step, Nat.lt_irrefl, if_false]

theorem Latency.step_received (h : ¬ intMax < (rt + 1) * cfg.batchSize - 1) :
    Latency.step cfg ⟨.receiving rt cfg.batchSize, msg, ss, out, rs, rest⟩ =
      ⟨.round (rt + 1), msg, ss, out, rs, rest⟩ := by
  simp only [Latency.step, Nat.lt_irrefl, if_false, if_neg h]

theorem Latency.step_finish (hN : cfg.numRt * cfg.batchSize ≤ intMax) :
    Latency.step cfg ⟨.round cfg.numRt, msg, ss, out, rs, rest⟩ =
      ⟨.terminating, msg, ss, out, rs, rest⟩ := by
  simp only [Latency.step, Nat.lt_irrefl, if_false, if_neg (Nat.not_lt.mpr hN)]

theorem Latency.step_term (hk : 4 ≤ k) :
    Latency.step cfg ⟨.terminating, msg, .take k :: ss, out, rs, rest⟩ =
      ⟨.exited .done, msg, ss, out ++ frame [termReq], rs, rest⟩ := by
  simp only [Latency.step, bsend_whole (m := [termReq]) (k := k) (by simp; omega) (by decide)]

theorem Latency.step_send (hk : cfg.msgSize + 3 ≤ k) (hint : cfg.msgSize + 4 ≤ intMax)
    (hi : i < cfg.batchSize) :
    Latency.step cfg ⟨.sending rt i, initMsg cfg.msgSize, .take k :: ss, out, rs, rest⟩ =
      ⟨.sending rt (i + 1), initMsg cfg.msgSize, ss, out ++ frame (initMsg cfg.msgSize), rs,
        rest⟩ := by
  rw [Latency.step]
  dsimp only
  rw [if_pos hi, bsend_whole (by simp; omega) (by simp; omega)]

theorem Latency.step_receive (hk : cfg.msgSize + 3 ≤ k)
    (hint : cfg.msgSize + 4 ≤ intMax) (hi : i < cfg.batchSize) :
    Latency.step cfg ⟨.receiving rt i, initMsg cfg.msgSize, ss, out, .take k :: .take k :: rs,
        frame (initMsg cfg.msgSize) ++ rest⟩ =
      ⟨.receiving rt (i + 1), initMsg cfg.msgSize, ss, out, rs, rest⟩ := by
  have hm : 0 < (initMsg cfg.msgSize).length := by simp [cfg.msgSize_pos]
  rw [Latency.step]
  dsimp only
  rw [if_pos hi, breceive_whole hm (by simp) (by simp; omega) (by simp; omega)]
  simp only [length_initMsg, List.drop_of_length_le, le_refl, List.append_nil, if_true]

variable (hk : cfg.msgSize + 3 ≤ k) (hint : cfg.msgSize + 4 ≤ intMax)
include hk hint

/-- The sending loop of a round, on a transport that takes each frame in one call. -/
theorem Latency.run_sending (rs : List Answer) (rest : List UInt8) (ss : List Answer) :
    ∀ (j i : Nat) (out : List UInt8), i + j = cfg.batchSize →
      Latency.run cfg j ⟨.sending rt i, initMsg cfg.msgSize, List.replicate j (.take k) ++ ss,
          out, rs, rest⟩ =
        ⟨.sending rt cfg.batchSize, initMsg cfg.msgSize, ss,
          out ++ frames (List.replicate j (initMsg cfg.msgSize)), rs, rest⟩
  | 0, i, out, h => by
    rw [Nat.add_zero] at h; subst h
    simp only [List.replicate, frames, List.nil_append, List.append_nil]; rfl
  | j + 1, i, out, h => by
    rw [Latency.run, List.replicate_succ, List.cons_append, Latency.step_send hk hint (by omega),
      Latency.run_sending rs rest ss j (i + 1) _ (by omega), List.replicate_succ, frames,
      List.append_assoc]

/-- The receiving loop of a round, on a transport that delivers each header and each body in
one call, from a stream that holds the round's copies. -/
theorem Latency.run_receiving (ss : List Answer) (out : List UInt8) :
    ∀ (j i : Nat) (rs : List Answer) (rest : List UInt8), i + j = cfg.batchSize →
      Latency.run cfg j ⟨.receiving rt i, initMsg cfg.msgSize, ss, out,
          List.replicate (2 * j) (.take k) ++ rs,
          frames (List.replicate j (initMsg cfg.msgSize)) ++ rest⟩ =
        ⟨.receiving rt cfg.batchSize, initMsg cfg.msgSize, ss, out, rs, rest⟩
  | 0, i, rs, rest, h => by
    rw [Nat.add_zero] at h; subst h
    simp only [List.replicate, frames, List.nil_append, Nat.mul_zero]; rfl
  | j + 1, i, rs, rest, h => by
    rw [Latency.run, show 2 * (j + 1) = 2 * j + 1 + 1 by omega, List.replicate_succ,
      List.replicate_succ, List.replicate_succ, frames, List.cons_append, List.cons_append,
      List.append_assoc, Latency.step_receive hk hint (by omega),
      Latency.run_receiving ss out j (i + 1) rs rest (by omega)]

/-- One round of the latency client, `2 * batch_size + 3` steps: it sends the round's
copies, reads as many back and prints their numbers, which fit an `int`. -/
theorem Latency.run_round (hrt : rt < cfg.numRt) (hN : cfg.numRt * cfg.batchSize ≤ intMax)
    (ss rs : List Answer) (rest : List UInt8) :
    Latency.run cfg (2 * cfg.batchSize + 3)
        ⟨.round rt, initMsg cfg.msgSize, List.replicate cfg.batchSize (.take k) ++ ss,
          frames (List.replicate (rt * cfg.batchSize) (initMsg cfg.msgSize)),
          List.replicate (2 * cfg.batchSize) (.take k) ++ rs,
          frames (List.replicate cfg.batchSize (initMsg cfg.msgSize)) ++ rest⟩ =
      ⟨.round (rt + 1), initMsg cfg.msgSize, ss,
        frames (List.replicate ((rt + 1) * cfg.batchSize) (initMsg cfg.msgSize)), rs, rest⟩ := by
  have hprint : ¬ intMax < (rt + 1) * cfg.batchSize - 1 := by
    have := Nat.mul_le_mul_right cfg.batchSize (show rt + 1 ≤ cfg.numRt from hrt); omega
  rw [show 2 * cfg.batchSize + 3 = 1 + (cfg.batchSize + (1 + (cfg.batchSize + 1))) by omega,
    Latency.run_add, Latency.run_one, Latency.step_start hrt, Latency.run_add,
    Latency.run_sending hk hint _ _ ss _ 0 _ (Nat.zero_add _), Latency.run_add,
    Latency.run_one, Latency.step_sent, Latency.run_add,
    Latency.run_receiving hk hint ss _ _ 0 rs rest (Nat.zero_add _), Latency.run_one,
    Latency.step_received hprint, Nat.succ_mul, List.replicate_add, frames_append]

/-- `num_rt - rt` rounds of the latency client. -/
theorem Latency.run_rounds (hN : cfg.numRt * cfg.batchSize ≤ intMax) (ss rs : List Answer)
    (rest : List UInt8) : ∀ (j rt : Nat), rt + j = cfg.numRt →
      Latency.run cfg (j * (2 * cfg.batchSize + 3))
          ⟨.round rt, initMsg cfg.msgSize, List.replicate (j * cfg.batchSize) (.take k) ++ ss,
            frames (List.replicate (rt * cfg.batchSize) (initMsg cfg.msgSize)),
            List.replicate (j * (2 * cfg.batchSize)) (.take k) ++ rs,
            frames (List.replicate (j * cfg.batchSize) (initMsg cfg.msgSize)) ++ rest⟩ =
        ⟨.round cfg.numRt, initMsg cfg.msgSize, ss,
          frames (List.replicate (cfg.numRt * cfg.batchSize) (initMsg cfg.msgSize)), rs, rest⟩
  | 0, rt, h => by
    rw [Nat.add_zero] at h; subst h
    simp only [Nat.zero_mul, List.replicate, frames, List.nil_append]; rfl
  | j + 1, rt, h => by
    rw [Nat.succ_mul, Nat.add_comm (j * _), Latency.run_add,
      replicate_succ_mul (Answer.take k) j cfg.batchSize,
      replicate_succ_mul (Answer.take k) j (2 * cfg.batchSize),
      replicate_succ_mul (initMsg cfg.msgSize) j cfg.batchSize, frames_append, List.append_assoc,
      List.append_assoc, List.append_assoc, Latency.run_round hk hint (by omega) hN,
      Latency.run_rounds hN ss rs rest j (rt + 1) (by omega)]

end LatencyRun

/-! ### The throughput client on a transport that moves whole frames -/

section ThroughputRun

variable {cfg : ClientCfg} {k : Nat} {left i : Nat} {msg : List UInt8} {ss rs : List Answer}
  {out rest : List UInt8}

theorem Client.run_add (a b : Nat) (c : Client) :
    Client.run cfg (a + b) c = Client.run cfg b (Client.run cfg a c) := by
  induction a generalizing c with
  | zero => rw [Nat.zero_add]; rfl
  | succ a ih => rw [Nat.succ_add]; exact ih _

theorem Client.run_one (c : Client) : Client.run cfg 1 c = Client.step cfg c := rfl

theorem Client.step_start (h : 0 < left) :
    Client.step cfg ⟨.round left, msg, ss, out, rs, rest⟩ =
      ⟨.sending left 0, msg, ss, out, rs, rest⟩ := by
  simp only [Client.step, if_pos h]

theorem Client.step_sent :
    Client.step cfg ⟨.sending left (min left cfg.batchSize), msg, ss, out, rs, rest⟩ =
      ⟨.receiving left 0, msg, ss, out, rs, rest⟩ := by
  simp only [Client.step, Nat.lt_irrefl, if_false]

theorem Client.step_received :
    Client.step cfg ⟨.receiving left (min left cfg.batchSize), msg, ss, out, rs, rest⟩ =
      ⟨.round (left - min left cfg.batchSize), msg, ss, out, rs, rest⟩ := by
  simp only [Client.step, Nat.lt_irrefl, if_false]

theorem Client.step_query :
    Client.step cfg ⟨.round 0, msg, ss, out, rs, rest⟩ =
      ⟨.querying, msg, ss, out, rs, rest⟩ := rfl

theorem Client.step_querying (hk : 4 ≤ k) :
    Client.step cfg ⟨.querying, msg, .take k :: ss, out, rs, rest⟩ =
      ⟨.awaiting, msg, ss, out ++ frame [cpuUsageReq], rs, rest⟩ := by
  simp only [Client.step, bsend_whole (m := [cpuUsageReq]) (k := k) (by simp; omega) (by decide)]

theorem Client.step_awaiting {m : List UInt8} (hm : m.length = 8) (hk : 11 ≤ k) :
    Client.step cfg ⟨.awaiting, msg, ss, out, .take k :: .take k :: rs, frame m ++ rest⟩ =
      ⟨.reporting m, msg, ss, out, rs, rest⟩ := by
  rw [Client.step]
  dsimp only
  rw [breceive_whole (by omega) hm.le (by omega) (by rw [hm]; decide)]

theorem Client.step_report {cpu : List UInt8} (hN : cfg.numRt * 2 ≤ intMax) :
    Client.step cfg ⟨.reporting cpu, msg, ss, out, rs, rest⟩ =
      ⟨.terminating cpu, msg, ss, out, rs, rest⟩ := by
  simp only [Client.step, if_neg (Nat.not_lt.mpr hN)]

theorem Client.step_term {cpu : List UInt8} (hk : 4 ≤ k) :
    Client.step cfg ⟨.terminating cpu, msg, .take k :: ss, out, rs, rest⟩ =
      ⟨.exited (.done cpu), msg, ss, out ++ frame [termReq], rs, rest⟩ := by
  simp only [Client.step, bsend_whole (m := [termReq]) (k := k) (by simp; omega) (by decide)]

variable (hk : cfg.msgSize + 3 ≤ k) (hint : cfg.msgSize + 4 ≤ intMax)
include hk hint

theorem Client.step_send (hi : i < min left cfg.batchSize) :
    Client.step cfg ⟨.sending left i, initMsg cfg.msgSize, .take k :: ss, out, rs, rest⟩ =
      ⟨.sending left (i + 1), initMsg cfg.msgSize, ss, out ++ frame (initMsg cfg.msgSize), rs,
        rest⟩ := by
  rw [Client.step]
  dsimp only
  rw [if_pos hi, bsend_whole (by simp; omega) (by simp; omega)]

theorem Client.step_receive (hi : i < min left cfg.batchSize) :
    Client.step cfg ⟨.receiving left i, initMsg cfg.msgSize, ss, out, .take k :: .take k :: rs,
        frame (initMsg cfg.msgSize) ++ rest⟩ =
      ⟨.receiving left (i + 1), initMsg cfg.msgSize, ss, out, rs, rest⟩ := by
  have hm : 0 < (initMsg cfg.msgSize).length := by simp [cfg.msgSize_pos]
  rw [Client.step]
  dsimp only
  rw [if_pos hi, breceive_whole hm (by simp) (by simp; omega) (by simp; omega)]
  simp only [length_initMsg, List.drop_of_length_le, le_refl, List.append_nil, if_true]

/-- The sending loop of a round, on a transport that takes each frame in one call. -/
theorem Client.run_sending (rs : List Answer) (rest : List UInt8) (ss : List Answer) :
    ∀ (j i : Nat) (out : List UInt8), i + j = min left cfg.batchSize →
      Client.run cfg j ⟨.sending left i, initMsg cfg.msgSize, List.replicate j (.take k) ++ ss,
          out, rs, rest⟩ =
        ⟨.sending left (min left cfg.batchSize), initMsg cfg.msgSize, ss,
          out ++ frames (List.replicate j (initMsg cfg.msgSize)), rs, rest⟩
  | 0, i, out, h => by
    rw [Nat.add_zero] at h; subst h
    simp only [List.replicate, frames, List.nil_append, List.append_nil]; rfl
  | j + 1, i, out, h => by
    rw [Client.run, List.replicate_succ, List.cons_append, Client.step_send hk hint (by omega),
      Client.run_sending rs rest ss j (i + 1) _ (by omega), List.replicate_succ, frames,
      List.append_assoc]

/-- The receiving loop of a round, on a transport that delivers each header and each body in
one call, from a stream that holds the round's copies. -/
theorem Client.run_receiving (ss : List Answer) (out : List UInt8) :
    ∀ (j i : Nat) (rs : List Answer) (rest : List UInt8), i + j = min left cfg.batchSize →
      Client.run cfg j ⟨.receiving left i, initMsg cfg.msgSize, ss, out,
          List.replicate (2 * j) (.take k) ++ rs,
          frames (List.replicate j (initMsg cfg.msgSize)) ++ rest⟩ =
        ⟨.receiving left (min left cfg.batchSize), initMsg cfg.msgSize, ss, out, rs, rest⟩
  | 0, i, rs, rest, h => by
    rw [Nat.add_zero] at h; subst h
    simp only [List.replicate, frames, List.nil_append, Nat.mul_zero]; rfl
  | j + 1, i, rs, rest, h => by
    rw [Client.run, show 2 * (j + 1) = 2 * j + 1 + 1 by omega, List.replicate_succ,
      List.replicate_succ, List.replicate_succ, frames, List.cons_append, List.cons_append,
      List.append_assoc, Client.step_receive hk hint (by omega),
      Client.run_receiving ss out j (i + 1) rs rest (by omega)]

/-- One round of the throughput client with `left` round trips left, in
`2 * this_batch + 3` steps. -/
theorem Client.run_round (hleft : 0 < left) (ss rs : List Answer) (out rest : List UInt8) :
    Client.run cfg (2 * min left cfg.batchSize + 3)
        ⟨.round left, initMsg cfg.msgSize,
          List.replicate (min left cfg.batchSize) (.take k) ++ ss, out,
          List.replicate (2 * min left cfg.batchSize) (.take k) ++ rs,
          frames (List.replicate (min left cfg.batchSize) (initMsg cfg.msgSize)) ++ rest⟩ =
      ⟨.round (left - min left cfg.batchSize), initMsg cfg.msgSize, ss,
        out ++ frames (List.replicate (min left cfg.batchSize) (initMsg cfg.msgSize)), rs,
        rest⟩ := by
  rw [show 2 * min left cfg.batchSize + 3 =
      1 + (min left cfg.batchSize + (1 + (min left cfg.batchSize + 1))) by omega,
    Client.run_add, Client.run_one, Client.step_start hleft, Client.run_add,
    Client.run_sending hk hint _ _ ss _ 0 _ (Nat.zero_add _), Client.run_add,
    Client.run_one, Client.step_sent, Client.run_add,
    Client.run_receiving hk hint ss _ _ 0 rs rest (Nat.zero_add _), Client.run_one,
    Client.step_received]

/-- The rounds of the throughput client, `UT_MIN(left, batch_size)` round trips each, until
none is left. -/
theorem Client.run_rounds (ss rs : List Answer) (rest : List UInt8) (left : Nat) :
    ∀ out : List UInt8, ∃ n, Client.run cfg n
        ⟨.round left, initMsg cfg.msgSize, List.replicate left (.take k) ++ ss, out,
          List.replicate (2 * left) (.take k) ++ rs,
          frames (List.replicate left (initMsg cfg.msgSize)) ++ rest⟩ =
      ⟨.round 0, initMsg cfg.msgSize, ss,
        out ++ frames (List.replicate left (initMsg cfg.msgSize)), rs, rest⟩ := by
  induction left using Nat.strong_induction_on with
  | _ left ih =>
    intro out
    rcases Nat.eq_zero_or_pos left with rfl | hleft
    · exact ⟨0, by simp only [List.replicate, frames, List.nil_append, List.append_nil]; rfl⟩
    have ht : 0 < min left cfg.batchSize := Nat.lt_min.mpr ⟨hleft, cfg.batchSize_pos⟩
    obtain ⟨n, hn⟩ := ih (left - min left cfg.batchSize) (by omega)
      (out ++ frames (List.replicate (min left cfg.batchSize) (initMsg cfg.msgSize)))
    have e1 {α : Type} (a : α) : List.replicate left a =
        List.replicate (min left cfg.batchSize) a ++
          List.replicate (left - min left cfg.batchSize) a := by
      rw [← List.replicate_add, Nat.add_sub_cancel' (Nat.min_le_left _ _)]
    have e2 : List.replicate (2 * left) (Answer.take k) =
        List.replicate (2 * min left cfg.batchSize) (.take k) ++
          List.replicate (2 * (left - min left cfg.batchSize)) (.take k) := by
      rw [← List.replicate_add, ← Nat.mul_add, Nat.add_sub_cancel' (Nat.min_le_left _ _)]
    refine ⟨2 * min left cfg.batchSize + 3 + n, ?_⟩
    rw [e1 (Answer.take k), e2, e1 (initMsg cfg.msgSize), frames_append, List.append_assoc,
      List.append_assoc, List.append_assoc, Client.run_add, Client.run_round hk hint hleft, hn,
      List.append_assoc]

end ThroughputRun

/-! ### The exchanges complete -/

section Exchange

variable {cap cpu} {cfg : ClientCfg} {k : Nat}

/-- **The latency exchange completes.** For settings `main` accepts whose messages fit the
server's buffers and an `int`, and for which `num_rt * batch_size` fits an `int`, on a
transport that moves each frame in one call, and with a server that reads each request as
soon as it has been sent: the client returns after `num_rt` rounds, having sent
`num_rt * batch_size` copies of its buffer and `TERM_REQ` and read as many copies back,
every answer of its transport used; and the server ends on the `TERM_REQ`, having read
the whole stream and sent those copies. -/
theorem latency_completes (hcap : cfg.msgSize ≤ cap) (hk : cfg.msgSize + 3 ≤ k)
    (hint : cfg.msgSize + 4 ≤ intMax) (hN : cfg.numRt * cfg.batchSize ≤ intMax) :
    Latency.run cfg (cfg.numRt * (2 * cfg.batchSize + 3) + 2)
        (Latency.init cfg (List.replicate (cfg.numRt * cfg.batchSize + 1) (.take k))
          (List.replicate (cfg.numRt * (2 * cfg.batchSize)) (.take k))
          (frames (List.replicate (cfg.numRt * cfg.batchSize) (initMsg cfg.msgSize)))) =
      ⟨.exited .done, initMsg cfg.msgSize, [],
        frames (List.replicate (cfg.numRt * cfg.batchSize) (initMsg cfg.msgSize) ++ [[termReq]]),
        [], []⟩ ∧
    Server.run cap cpu (4 * (cfg.numRt * cfg.batchSize) + 3)
        (Server.init (keepingUp k (cfg.numRt * cfg.batchSize + 1))
          (frames (List.replicate (cfg.numRt * cfg.batchSize) (initMsg cfg.msgSize) ++
            [[termReq]]))
          (List.replicate (cfg.numRt * cfg.batchSize) (.take k))) =
      ⟨.exited .term, [], [], [],
        frames (List.replicate (cfg.numRt * cfg.batchSize) (initMsg cfg.msgSize))⟩ := by
  have hm : 0 < (initMsg cfg.msgSize).length := by simp [cfg.msgSize_pos]
  constructor
  · have := Latency.run_rounds hk hint hN [.take k] [] [] cfg.numRt 0 (Nat.zero_add _)
    simp only [Nat.zero_mul, List.replicate, frames, List.append_nil] at this
    rw [Latency.run_add, Latency.init, List.replicate_succ', this,
      Latency.run, Latency.step_finish hN, Latency.run_one,
      Latency.step_term (by have := cfg.msgSize_pos; omega), frames_append, frames_singleton]
  · have h1 := @Server.run_reflects cap cpu _ k hm (by simpa using hcap) (by simpa using hk)
      (by simpa using hint) (initMsg_headD cfg.msgSize_pos) (keepingUp k 1) []
      (frame [termReq]) (cfg.numRt * cfg.batchSize) []
    rw [List.append_nil (List.replicate _ _), List.nil_append] at h1
    rw [Server.run_add, Server.init, keepingUp_add, frames_append, frames_singleton, h1]
    exact Server.run_term (by have := cfg.msgSize_pos; omega) (by have := cfg.msgSize_pos; omega)

/-- One round of two two-byte round trips, against a server with two-byte buffers, on a
transport that moves up to six bytes a call. -/
theorem one_batch_completes :
    Latency.run oneBatchOfTwo 9 (Latency.init oneBatchOfTwo (List.replicate 3 (.take 5))
        (List.replicate 4 (.take 5)) (frames [[1, 0], [1, 0]])) =
      ⟨.exited .done, [1, 0], [], frames [[1, 0], [1, 0], [3]], [], []⟩ ∧
    Server.run 2 (fun _ => 0) 11 (Server.init (keepingUp 5 3) (frames [[1, 0], [1, 0], [3]])
        (List.replicate 2 (.take 5))) =
      ⟨.exited .term, [], [], [], frames [[1, 0], [1, 0]]⟩ :=
  latency_completes (by decide) (by decide) (by decide) (by decide)

/-- **The throughput exchange completes.** For settings `main` accepts whose messages fit the
server's buffers and an `int`, and for which `num_rt * 2` fits an `int`, on a transport that
moves each frame in one call, and with a server that reads each request as soon as it has
been sent: the client returns with the CPU time the server owes it, having sent `num_rt`
copies of its buffer, `CPU_USAGE_REQ` and `TERM_REQ` and read the copies and the CPU time
back, every answer of its transport used; and the server ends on the `TERM_REQ`, having
read the whole stream and sent the copies and its CPU time. -/
theorem throughput_completes (hcap : cfg.msgSize ≤ cap) (hk : cfg.msgSize + 3 ≤ k)
    (hk8 : 11 ≤ k) (hint : cfg.msgSize + 4 ≤ intMax) (hN : cfg.numRt * 2 ≤ intMax) :
    (∃ kc, Client.run cfg kc (Client.init cfg (List.replicate (cfg.numRt + 2) (.take k))
        (List.replicate (2 * cfg.numRt + 2) (.take k))
        (frames (List.replicate cfg.numRt (initMsg cfg.msgSize) ++ [cpuResponse cfg cpu]))) =
      ⟨.exited (.done (cpuResponse cfg cpu)), initMsg cfg.msgSize, [],
        frames (List.replicate cfg.numRt (initMsg cfg.msgSize) ++ [[cpuUsageReq], [termReq]]),
        [], []⟩) ∧
    Server.run cap cpu (4 * cfg.numRt + 7)
        (Server.init (keepingUp k (cfg.numRt + 2))
          (frames (List.replicate cfg.numRt (initMsg cfg.msgSize) ++
            [[cpuUsageReq], [termReq]]))
          (List.replicate (cfg.numRt + 1) (.take k))) =
      ⟨.exited .term, [], [], [],
        frames (List.replicate cfg.numRt (initMsg cfg.msgSize) ++ [cpuResponse cfg cpu])⟩ := by
  have hm : 0 < (initMsg cfg.msgSize).length := by simp [cfg.msgSize_pos]
  have hcpu : (cpuResponse cfg cpu).length = 8 := by simp [cpuResponse]
  constructor
  · obtain ⟨n, hn⟩ := Client.run_rounds hk hint [.take k, .take k] [.take k, .take k]
      (frame (cpuResponse cfg cpu)) cfg.numRt []
    refine ⟨n + 5, ?_⟩
    rw [Client.init, List.replicate_add, List.replicate_add, frames_append, frames_singleton,
      Client.run_add, ← List.append_nil (frame (cpuResponse cfg cpu))]
    simp only [List.replicate, List.nil_append, List.append_nil] at hn ⊢
    rw [hn, Client.run, Client.step_query, Client.run,
      Client.step_querying (by omega), Client.run,
      ← List.append_nil (frame (cpuResponse cfg cpu)),
      Client.step_awaiting hcpu hk8, Client.run, Client.step_report hN, Client.run_one,
      Client.step_term (by omega), frames_append]
    simp only [frames, List.append_nil, List.append_assoc]
  · have h1 := @Server.run_reflects cap cpu _ k hm (by simpa using hcap) (by simpa using hk)
      (by simpa using hint) (initMsg_headD cfg.msgSize_pos) (keepingUp k 2) [.take k]
      (frames [[cpuUsageReq], [termReq]]) cfg.numRt []
    rw [Server.run_add, Server.init, keepingUp_add, frames_append, List.replicate_succ', h1,
      List.nil_append, show 7 = 4 + 3 from rfl, Server.run_add, frames_append, frames_singleton]
    have h2 : Server.run cap cpu 4 ⟨.receiving [], keepingUp k 2,
        frames [[cpuUsageReq], [termReq]], [.take k],
        frames (List.replicate cfg.numRt (initMsg cfg.msgSize))⟩ =
        ⟨.receiving [], keepingUp k 1, frame [termReq] ++ [], [],
          frames (List.replicate cfg.numRt (initMsg cfg.msgSize)) ++
            frame (cpuResponse cfg cpu)⟩ :=
      Server.run_answer (m := [cpuUsageReq]) (by decide)
        (by have := cfg.msgSize_pos; simp; omega) (by simp; omega) (by decide) rfl (by omega)
        (by rw [hcpu]; decide)
    rw [h2, List.append_nil]
    exact Server.run_term (by omega) (by have := cfg.msgSize_pos; omega)

/-- `xcmpong -c -n 3 -m 2 -b 2`: a round of two round trips and one of one. -/
def threeInBatchesOfTwo : ClientCfg := ⟨3, 2, 2, by decide, Nat.two_pos, Nat.two_pos⟩

/-- Three two-byte round trips in batches of two, against a server with two-byte buffers
that has used 7 ns of CPU time, on a transport that moves up to twelve bytes a call. -/
theorem three_round_trips_complete :
    (∃ kc, Client.run threeInBatchesOfTwo kc (Client.init threeInBatchesOfTwo
        (List.replicate 5 (.take 11)) (List.replicate 8 (.take 11))
        (frames [[1, 0], [1, 0], [1, 0], [0, 0, 0, 0, 0, 0, 0, 7]])) =
      ⟨.exited (.done [0, 0, 0, 0, 0, 0, 0, 7]), [1, 0], [],
        frames [[1, 0], [1, 0], [1, 0], [2], [3]], [], []⟩) ∧
    Server.run 2 (fun _ => 7) 19 (Server.init (keepingUp 11 5)
        (frames [[1, 0], [1, 0], [1, 0], [2], [3]]) (List.replicate 4 (.take 11))) =
      ⟨.exited .term, [], [], [], frames [[1, 0], [1, 0], [1, 0], [0, 0, 0, 0, 0, 0, 0, 7]]⟩ :=
  @throughput_completes 2 (fun _ => 7) threeInBatchesOfTwo 11 (by decide) (by decide) (by decide)
    (by decide) (by decide)

end Exchange

/-! ### When the reports overflow -/

section Overflow

variable {cfg : ClientCfg}

/-- The latency client gets to `send_term` only from its round loop, having found that
`num_rt * batch_size` fits an `int`, and returns only from `send_term`. -/
theorem Latency.step_reaches_term {c : Latency}
    (h : (Latency.step cfg c).pc = .terminating ∨ (Latency.step cfg c).pc = .exited .done) :
    c.pc = .terminating ∨ c.pc = .exited .done ∨ cfg.numRt * cfg.batchSize ≤ intMax := by
  obtain ⟨pc, msg, ss, out, rs, rest⟩ := c
  cases pc with
  | round rt =>
    simp only [Latency.step] at h
    split_ifs at h with h1 h2 <;> simp_all
  | sending rt i =>
    simp only [Latency.step] at h
    split_ifs at h <;> (repeat' split at h) <;> simp at h
  | receiving rt i =>
    simp only [Latency.step] at h
    split_ifs at h <;> (repeat' split at h) <;> simp at h
  | terminating => exact .inl rfl
  | exited e => simp_all [Latency.step]
  | stopped e => simp_all [Latency.step]

/-- Once `num_rt * batch_size` has overflowed, a latency client that has not returned never
does. -/
theorem Latency.run_not_returning (hN : intMax < cfg.numRt * cfg.batchSize) :
    ∀ (k : Nat) (c : Latency), c.pc ≠ .terminating → c.pc ≠ .exited .done →
      (Latency.run cfg k c).pc ≠ .terminating ∧ (Latency.run cfg k c).pc ≠ .exited .done
  | 0, _, h1, h2 => ⟨h1, h2⟩
  | k + 1, c, h1, h2 => by
    refine Latency.run_not_returning hN k _ (fun h => ?_) (fun h => ?_) <;>
    · rcases Latency.step_reaches_term (by tauto) with h' | h' | h' <;>
        first | contradiction | omega

/-- **When `num_rt * batch_size` overflows an `int`, the latency client never returns.**
Whatever its transport answers and whatever it reads, it does not get to `send_term`
without a signed overflow first: the numbers it prints, `rt*batch_size+i`, and the count of
its report, `rt*batch_size`, are `int` products, and the model stops at the first overflow,
which is undefined behaviour. `main` accepts each of the two factors up to `INT_MAX`, and
`-p` alone sets `num_rt` to `INT_MAX`. -/
theorem latency_overflow_never_returns (hN : intMax < cfg.numRt * cfg.batchSize)
    (ssched rsched : List Answer) (input : List UInt8) (k : Nat) :
    (Latency.run cfg k (Latency.init cfg ssched rsched input)).pc ≠ .terminating ∧
      (Latency.run cfg k (Latency.init cfg ssched rsched input)).pc ≠ .exited .done :=
  Latency.run_not_returning hN k _ (by simp [Latency.init]) (by simp [Latency.init])

/-- `xcmpong -c -p -b 2`: the latency mode's default of `INT_MAX` round trips, in batches of
two. -/
def overlongLatencyRun : ClientCfg := ⟨2147483647, 100, 2, by decide, by decide, Nat.two_pos⟩

theorem overlong_latency_run :
    xcmpong (fun _ => (.neither, 0)) [.c, .p, .b "2".toList] 1 =
      .ok ⟨false, some (.latency overlongLatencyRun .pos)⟩ ∧
    intMax < overlongLatencyRun.numRt * overlongLatencyRun.batchSize ∧
      (Latency.run overlongLatencyRun 7
          (Latency.init overlongLatencyRun [.take 9] [.take 9] [])).pc ≠ .terminating ∧
      (Latency.run overlongLatencyRun 7
          (Latency.init overlongLatencyRun [.take 9] [.take 9] [])).pc ≠ .exited .done :=
  ⟨rfl, by decide, latency_overflow_never_returns (by decide) [.take 9] [.take 9] [] 7⟩

/-- The throughput client gets to `send_term` only from its report, having found that
`num_rt * 2` fits an `int`, and returns only from `send_term`. -/
theorem Client.step_reaches_term {c : Client} {b : List UInt8}
    (h : (Client.step cfg c).pc = .terminating b ∨ (Client.step cfg c).pc = .exited (.done b)) :
    c.pc = .terminating b ∨ c.pc = .exited (.done b) ∨ cfg.numRt * 2 ≤ intMax := by
  obtain ⟨pc, msg, ss, out, rs, rest⟩ := c
  cases pc with
  | reporting cpu =>
    simp only [Client.step] at h
    split_ifs at h <;> simp_all
  | terminating cpu => exact .inl (by simp only [Client.step] at h; split at h <;> simp_all)
  | exited e => simp_all [Client.step]
  | stopped e => simp_all [Client.step]
  | _ => simp only [Client.step] at h; (repeat' split at h) <;> simp at h

/-- Once `num_rt * 2` has overflowed, a throughput client that has not returned never does. -/
theorem Client.run_not_returning (hN : intMax < cfg.numRt * 2) (b : List UInt8) :
    ∀ (k : Nat) (c : Client), c.pc ≠ .terminating b → c.pc ≠ .exited (.done b) →
      (Client.run cfg k c).pc ≠ .terminating b ∧ (Client.run cfg k c).pc ≠ .exited (.done b)
  | 0, _, h1, h2 => ⟨h1, h2⟩
  | k + 1, c, h1, h2 => by
    refine Client.run_not_returning hN b k _ (fun h => ?_) (fun h => ?_) <;>
    · rcases Client.step_reaches_term (by tauto) with h' | h' | h' <;>
        first | contradiction | omega

/-- **When `num_rt * 2` overflows an `int`, the throughput client never returns.** Whatever
its transport answers and whatever it reads, it does not get to `send_term` without a
signed overflow first: its report computes `total_num_msgs = num_rt*2` as an `int` product.
`main` accepts `num_rt` up to `INT_MAX`. -/
theorem throughput_overflow_never_returns (hN : intMax < cfg.numRt * 2)
    (ssched rsched : List Answer) (input : List UInt8) (k : Nat) (b : List UInt8) :
    (Client.run cfg k (Client.init cfg ssched rsched input)).pc ≠ .terminating b ∧
      (Client.run cfg k (Client.init cfg ssched rsched input)).pc ≠ .exited (.done b) :=
  Client.run_not_returning hN b k _ (by simp [Client.init]) (by simp [Client.init])

/-- `xcmpong -c -n 2G`: two billion round trips, which `main` accepts. -/
def overlongThroughputRun : ClientCfg := ⟨2000000000, 100, 1, by decide, by decide, Nat.one_pos⟩

theorem overlong_throughput_run :
    xcmpong (fun _ => (.neither, 0)) [.c, .n "2G".toList] 1 =
      .ok ⟨false, some (.throughput overlongThroughputRun)⟩ ∧
    intMax < overlongThroughputRun.numRt * 2 ∧
      (Client.run overlongThroughputRun 7
          (Client.init overlongThroughputRun [.take 9] [.take 9] [])).pc ≠ .terminating [] ∧
      (Client.run overlongThroughputRun 7
          (Client.init overlongThroughputRun [.take 9] [.take 9] [])).pc ≠ .exited (.done []) :=
  ⟨rfl, by decide, throughput_overflow_never_returns (by decide) [.take 9] [.take 9] [] 7 []⟩

end Overflow

end Xcm.Pong
