import Xcm.Pong.Session

/-!
# The Latency Client against the Server

`run_latency_client`, the client of `xcmpong -p`, runs `num_rt` rounds. Each sends
`batch_size` copies of a buffer of `msg_size` bytes that begins with `REFLECT_REQ`,
ignoring what `xsend` returns, then reads as many responses into the buffer, each of which
must be `msg_size` bytes long, prints the round's latencies, numbered `rt*batch_size+i`,
and sleeps. At the end it prints the average over `rt*batch_size` round trips and ends the
server with `TERM_REQ`. Both products are `int` products. A round trip of the latency mode
is so a batch, where one of the throughput mode is one message.

The client's connection is blocking, so its transport never answers `EAGAIN`, to its sends
or to its receives. On that answer the waiting `bsend` and `receive_chunk` do would call
`socket_wait` on the descriptor `-1` this client gives them, and die there; the model waits
instead, so the theorems that follow the client's run assume schedules without that answer
for both its sends and its receives.

The client is put together with `handle_client` as the throughput client is in
`Xcm.Pong.Session`, with the same contract `Answers` for the server's side.

## Main results

* `Latency.Echo.run`: the client's invariant over every run against a server that answers.
* `latency_exchange`: what every pair of runs of the two has sent and read; a run that ends
  has made `num_rt * batch_size` round trips.
-/

namespace Xcm.Pong

/-- How `run_latency_client` ends: it returns after `send_term`; or `ut_die` when `xreceive`
returns a negative value; or it exits with failure on "Server unexpectedly closed the
connection." or "Invalid message length.". -/
inductive LatencyEnd
  | done
  | die
  | closed
  | badLength
  deriving DecidableEq, Repr

/-- Where `run_latency_client` is: at the test of its round loop with `rt` rounds done;
sending message `i` of round `rt`; receiving response `i` of it; in `send_term`; or ended. -/
inductive LatencyPc
  | round (rt : Nat)
  | sending (rt i : Nat)
  | receiving (rt i : Nat)
  | terminating
  | exited (e : LatencyEnd)
  | stopped (s : Stop)
  deriving DecidableEq, Repr

/-- The process of the latency client: where it is, its message buffer `msg`, the stream it
has written with the transport's answers left to its `xcm_send` calls, and what is left of
the stream it reads with the answers left to its `xcm_receive` calls. -/
structure Latency where
  pc : LatencyPc
  msg : List UInt8
  ssched : List Answer
  out : List UInt8
  rsched : List Answer
  rest : List UInt8
  deriving DecidableEq, Repr

variable (cfg : ClientCfg)

/-- One pass of one of the loops of `run_latency_client` on a byte-stream connection: one
call of `xsend` or `xreceive`, or one test of a loop. A negative return of `xreceive` ends
the process. The printing loop after a round's responses computes `rt*batch_size+i` up to
`i = batch_size - 1`, and the report after the rounds `rt*batch_size` with `rt = num_rt`:
an `int` overflow in either is undefined behaviour. -/
def Latency.step (c : Latency) : Latency :=
  match c.pc with
  | .round rt =>
    if rt < cfg.numRt then { c with pc := .sending rt 0 }
    else
      { c with pc := if intMax < cfg.numRt * cfg.batchSize then .stopped .overflow
                     else .terminating }
  | .sending rt i =>
    if i < cfg.batchSize then
      match bsend c.msg c.ssched c.out with
      | .ok (_, ssched, out) => { c with pc := .sending rt (i + 1), ssched, out }
      | .error e => { c with pc := .stopped e }
    else { c with pc := .receiving rt 0 }
  | .receiving rt i =>
    if i < cfg.batchSize then
      match breceive cfg.msgSize c.rsched c.rest with
      | .ok (rc, rsched, rest, m) =>
        let c := { c with msg := m ++ c.msg.drop m.length, rsched, rest }
        match rc with
        | .pos n =>
          { c with pc := if n = cfg.msgSize then .receiving rt (i + 1) else .exited .badLength }
        | .zero => { c with pc := .exited .closed }
        | _ => { c with pc := .exited .die }
      | .error e => { c with pc := .stopped e }
    else
      { c with pc := if intMax < (rt + 1) * cfg.batchSize - 1 then .stopped .overflow
                     else .round (rt + 1) }
  | .terminating =>
    match bsend [termReq] c.ssched c.out with
    | .ok (_, ssched, out) => { c with pc := .exited .done, ssched, out }
    | .error e => { c with pc := .stopped e }
  | _ => c

/-- `k` steps of `run_latency_client`. -/
def Latency.run : Nat → Latency → Latency
  | 0, c => c
  | k + 1, c => Latency.run k (Latency.step cfg c)

/-- `run_latency_client` at the start of its round loop, reading the stream `input`. -/
def Latency.init (ssched rsched : List Answer) (input : List UInt8) : Latency :=
  ⟨.round 0, initMsg cfg.msgSize, ssched, [], rsched, input⟩

/-! ### What the latency client writes -/

/-- The latency client only appends to the stream it writes. -/
theorem Latency.step_out_extends (c : Latency) : c.out <+: (Latency.step cfg c).out := by
  obtain ⟨pc, msg, ssched, out, rsched, rest⟩ := c
  cases pc <;> simp only [Latency.step] <;> (try split_ifs) <;> (try split) <;>
    first
    | exact List.prefix_refl _
    | exact bsendLoop_out_extends ‹_›
    | (try split) <;> exact List.prefix_refl _

theorem Latency.out_extends_run : ∀ (k : Nat) (c : Latency), c.out <+: (Latency.run cfg k c).out
  | 0, _ => List.prefix_refl _
  | k + 1, c => (Latency.step_out_extends cfg c).trans (Latency.out_extends_run k _)

/-- What the latency client has written, whatever it has read, when the transport it
writes to does not fail: the frames of its messages, each as long as its buffer or of one
byte; and its buffer keeps its length. -/
def Latency.Shape (c : Latency) : Prop :=
  c.msg.length = cfg.msgSize ∧ Answer.fail ∉ c.ssched ∧
    Framed (fun m => m.length = cfg.msgSize ∨ m.length = 1) c.out

theorem Latency.Shape.step (hint : cfg.msgSize + 4 ≤ intMax) {c : Latency}
    (h : Latency.Shape cfg c) : Latency.Shape cfg (Latency.step cfg c) := by
  obtain ⟨pc, msg, ssched, out, rsched, rest⟩ := c
  obtain ⟨hl, hf, hout⟩ := h
  have hsend (m : List UInt8) (hm : m.length = cfg.msgSize ∨ m.length = 1) :=
    @bsend_framed _ m out ssched hm (frame_length_le_of_shape cfg hint hm) hf hout
  cases pc with
  | sending rt i =>
    simp only [Latency.step]
    split_ifs
    · rcases hsend msg (.inl hl) with ⟨s', h, hf', hout'⟩ | h <;> rw [h]
      · exact ⟨hl, hf', hout'⟩
      · exact ⟨hl, hf, hout⟩
    · exact ⟨hl, hf, hout⟩
  | receiving rt i =>
    simp only [Latency.step]
    split_ifs
    · rcases hr : breceive cfg.msgSize rsched rest with e | ⟨rc, rs, rt', m⟩
      · exact ⟨hl, hf, hout⟩
      have hm := breceive_length_le hr
      have hl' : (m ++ msg.drop m.length).length = cfg.msgSize := by simp [hl]; omega
      cases rc <;> exact ⟨hl', hf, hout⟩
    all_goals exact ⟨hl, hf, hout⟩
  | terminating =>
    simp only [Latency.step]
    rcases hsend [termReq] (.inr rfl) with ⟨s', h, hf', hout'⟩ | h <;> rw [h]
    · exact ⟨hl, hf', hout'⟩
    · exact ⟨hl, hf, hout⟩
  | round rt => simp only [Latency.step]; split_ifs <;> exact ⟨hl, hf, hout⟩
  | exited e => exact ⟨hl, hf, hout⟩
  | stopped e => exact ⟨hl, hf, hout⟩

theorem Latency.Shape.run (hint : cfg.msgSize + 4 ≤ intMax) :
    ∀ (k : Nat) {c : Latency}, Latency.Shape cfg c → Latency.Shape cfg (Latency.run cfg k c)
  | 0, _, h => h
  | k + 1, _, h => Latency.Shape.run hint k (h.step cfg hint)

/-! ### Reading copies -/

section Echo

variable (B : List UInt8)

/-- Where the latency client is in its exchange with a server that sends back what it is
sent, reading the stream `B`: its buffer holds its initial bytes; it has sent no more than
`num_rt * batch_size` copies of them and then `TERM_REQ`; while it runs, it has sent the
copies its loops count and read as many responses, each the frame of a copy at the start of
`B`; and once it has ended, it has returned, or found the end of the stream, and if it has
returned, it has read all `num_rt * batch_size` responses and sent `TERM_REQ` after them.
`xcm_receive` on the blocking connection does not answer `EAGAIN`. -/
def Latency.Echo (c : Latency) : Prop :=
  c.msg = initMsg cfg.msgSize ∧
  SentCopies (initMsg cfg.msgSize) (cfg.numRt * cfg.batchSize) [[termReq]] c.out ∧
  match c.pc with
  | .round rt => rt ≤ cfg.numRt ∧ Answer.fail ∉ c.ssched ∧ Answer.fail ∉ c.rsched ∧
      Answer.again ∉ c.rsched ∧
      c.out = frames (List.replicate (rt * cfg.batchSize) (initMsg cfg.msgSize)) ∧
      frames (List.replicate (rt * cfg.batchSize) (initMsg cfg.msgSize)) <+: B ∧
      c.rest = B.drop (rt * cfg.batchSize * (cfg.msgSize + 4))
  | .sending rt i => rt < cfg.numRt ∧ i ≤ cfg.batchSize ∧
      Answer.fail ∉ c.ssched ∧ Answer.fail ∉ c.rsched ∧ Answer.again ∉ c.rsched ∧
      c.out = frames (List.replicate (rt * cfg.batchSize + i) (initMsg cfg.msgSize)) ∧
      frames (List.replicate (rt * cfg.batchSize) (initMsg cfg.msgSize)) <+: B ∧
      c.rest = B.drop (rt * cfg.batchSize * (cfg.msgSize + 4))
  | .receiving rt i => rt < cfg.numRt ∧ i ≤ cfg.batchSize ∧
      Answer.fail ∉ c.ssched ∧ Answer.fail ∉ c.rsched ∧ Answer.again ∉ c.rsched ∧
      c.out = frames (List.replicate ((rt + 1) * cfg.batchSize) (initMsg cfg.msgSize)) ∧
      frames (List.replicate (rt * cfg.batchSize + i) (initMsg cfg.msgSize)) <+: B ∧
      c.rest = B.drop ((rt * cfg.batchSize + i) * (cfg.msgSize + 4))
  | .terminating => Answer.fail ∉ c.ssched ∧
      c.out = frames (List.replicate (cfg.numRt * cfg.batchSize) (initMsg cfg.msgSize)) ∧
      frames (List.replicate (cfg.numRt * cfg.batchSize) (initMsg cfg.msgSize)) <+: B
  | .exited e => (e = .done ∨ e = .closed) ∧ (e = .done →
      c.out = frames (List.replicate (cfg.numRt * cfg.batchSize) (initMsg cfg.msgSize) ++
        [[termReq]]) ∧
      frames (List.replicate (cfg.numRt * cfg.batchSize) (initMsg cfg.msgSize)) <+: B)
  | .stopped _ => True

variable {cfg B} {cap : Nat} {cpu : List UInt8 → Nat} {A : List UInt8}
variable {msg out rest : List UInt8} {ss rs : List Answer}

/-- A prefix of `B` followed by a prefix of the rest of `B` is a prefix of `B`. -/
theorem prefix_append_of_drop {l t : List UInt8} (hl : l <+: B) (ht : t <+: B.drop l.length) :
    l ++ t <+: B := by
  obtain ⟨u, hu⟩ := ht
  refine ⟨u, ?_⟩
  rw [List.append_assoc, hu]
  exact prefix_append_drop hl

theorem copies_lt_of_round {rt i : Nat} (hrt : rt < cfg.numRt) (hi : i < cfg.batchSize) :
    rt * cfg.batchSize + i + 1 ≤ cfg.numRt * cfg.batchSize := by
  have h1 := Nat.mul_le_mul_right cfg.batchSize (show rt + 1 ≤ cfg.numRt from hrt)
  rw [Nat.add_one_mul] at h1
  omega

theorem Latency.Echo.round {rt : Nat}
    (h : Latency.Echo cfg B ⟨.round rt, msg, ss, out, rs, rest⟩) :
    Latency.Echo cfg B (Latency.step cfg ⟨.round rt, msg, ss, out, rs, rest⟩) := by
  obtain ⟨hmsg, hsent, hl, hs, hr, hra, hout, hread, hrest⟩ := h
  simp only [Latency.step]
  split_ifs with h0 hov
  · exact ⟨hmsg, hsent, h0, Nat.zero_le _, hs, hr, hra, hout, hread, hrest⟩
  · exact ⟨hmsg, hsent, trivial⟩
  · obtain rfl : rt = cfg.numRt := by omega
    exact ⟨hmsg, hsent, hs, hout, hread⟩

theorem Latency.Echo.sending (hint : cfg.msgSize + 4 ≤ intMax) {rt i : Nat}
    (h : Latency.Echo cfg B ⟨.sending rt i, msg, ss, out, rs, rest⟩) :
    Latency.Echo cfg B (Latency.step cfg ⟨.sending rt i, msg, ss, out, rs, rest⟩) := by
  obtain ⟨rfl, hsent, hrt, hi, hs, hr, hra, rfl, hread, hrest⟩ := h
  simp only [Latency.step]
  split_ifs with hlt
  · rcases bsend_frame (frame_initMsg_le hint) hs with ⟨s', hb, hsuf⟩ | hb <;> rw [hb]
    · rw [← frames_replicate_succ]
      exact ⟨rfl, sentCopies_copies (copies_lt_of_round hrt hlt), hrt, hlt,
        fun h => hs (hsuf.subset h), hr, hra, rfl, hread, hrest⟩
    · exact ⟨rfl, hsent, trivial⟩
  · obtain rfl : i = cfg.batchSize := by omega
    exact ⟨rfl, hsent, hrt, Nat.zero_le _, hs, hr, hra, by rw [Nat.add_one_mul], hread, hrest⟩

theorem Latency.Echo.receiving (hAB : Answers cap cpu A B) (hcap : cfg.msgSize ≤ cap)
    (hint : cfg.msgSize + 4 ≤ intMax) {rt i : Nat} (hA : out <+: A)
    (h : Latency.Echo cfg B ⟨.receiving rt i, msg, ss, out, rs, rest⟩) :
    Latency.Echo cfg B (Latency.step cfg ⟨.receiving rt i, msg, ss, out, rs, rest⟩) := by
  obtain ⟨rfl, hsent, hrt, hi, hs, hr, hra, rfl, hread, rfl⟩ := h
  simp only [Latency.step]
  split_ifs with hlt hov
  · obtain ⟨w, hw⟩ := rest_prefix_copy hAB hcap hint
      (show rt * cfg.batchSize + i < (rt + 1) * cfg.batchSize by rw [Nat.add_one_mul]; omega) hA
    have hm0 : 0 < (initMsg cfg.msgSize).length := by rw [length_initMsg]; exact cfg.msgSize_pos
    rcases breceive_prefix_frame hm0 (length_initMsg _).le (by rw [length_initMsg]; omega) hw hr
      with ⟨s', hb, hsuf, hfr⟩ | ⟨s', rfl, hb⟩ | ⟨s', x, hb, hx, -⟩ | hb <;> simp only [hb]
    · simp only [length_initMsg, if_true]
      have hlen : (frames (List.replicate (rt * cfg.batchSize + i) (initMsg cfg.msgSize))).length =
          (rt * cfg.batchSize + i) * (cfg.msgSize + 4) := by
        rw [length_frames_replicate, length_initMsg]
      refine ⟨by simp, hsent, hrt, by omega, hs, fun h => hr (hsuf.subset h),
        fun h => hra (hsuf.subset h), rfl, ?_, ?_⟩
      · rw [← Nat.add_assoc, frames_replicate_succ]
        exact prefix_append_of_drop hread (by rw [hlen]; exact hfr)
      · dsimp only
        rw [List.drop_drop, length_frame, length_initMsg, ← Nat.add_one_mul]; rfl
    · exact absurd (List.mem_cons_self _ _) hra
    · exact ⟨prefix_append_drop hx, hsent, .inr rfl, by simp⟩
    · exact ⟨rfl, hsent, trivial⟩
  · exact ⟨rfl, hsent, trivial⟩
  · obtain rfl : i = cfg.batchSize := by omega
    exact ⟨rfl, hsent, hrt, hs, hr, hra, rfl, by rwa [Nat.add_one_mul],
      by rw [Nat.add_one_mul]⟩

theorem Latency.Echo.terminating (h : Latency.Echo cfg B ⟨.terminating, msg, ss, out, rs, rest⟩) :
    Latency.Echo cfg B (Latency.step cfg ⟨.terminating, msg, ss, out, rs, rest⟩) := by
  obtain ⟨rfl, hsent, hs, rfl, hread⟩ := h
  simp only [Latency.step]
  rcases bsend_frame (m := [termReq]) (by rw [length_frame]; decide) hs with ⟨s', hb, -⟩ | hb <;>
    rw [hb]
  · have hout : frames (List.replicate (cfg.numRt * cfg.batchSize) (initMsg cfg.msgSize)) ++
        frame [termReq] =
          frames (List.replicate (cfg.numRt * cfg.batchSize) (initMsg cfg.msgSize) ++
            [[termReq]]) := by
      rw [frames_append, frames_singleton]
    exact ⟨rfl, ⟨_, le_rfl, _, List.prefix_refl _, .inr rfl, hout⟩, .inl rfl,
      fun _ => ⟨hout, hread⟩⟩
  · exact ⟨rfl, hsent, trivial⟩

/-- **Every step keeps `Latency.Echo`** while what the client writes stays within `A`. -/
theorem Latency.Echo.step (hAB : Answers cap cpu A B) (hcap : cfg.msgSize ≤ cap)
    (hint : cfg.msgSize + 4 ≤ intMax) {c : Latency} (hA : (Latency.step cfg c).out <+: A)
    (h : Latency.Echo cfg B c) : Latency.Echo cfg B (Latency.step cfg c) := by
  obtain ⟨pc, msg, ss, out, rs, rest⟩ := c
  have hA' : out <+: A := (Latency.step_out_extends cfg _).trans hA
  cases pc with
  | round rt => exact h.round
  | sending rt i => exact h.sending hint
  | receiving rt i => exact h.receiving hAB hcap hint hA'
  | terminating => exact h.terminating
  | exited e => exact h
  | stopped e => exact h

theorem Latency.Echo.run (hAB : Answers cap cpu A B) (hcap : cfg.msgSize ≤ cap)
    (hint : cfg.msgSize + 4 ≤ intMax) :
    ∀ (k : Nat) {c : Latency}, (Latency.run cfg k c).out <+: A → Latency.Echo cfg B c →
      Latency.Echo cfg B (Latency.run cfg k c)
  | 0, _, _, h => h
  | k + 1, _, hA, h => Latency.Echo.run hAB hcap hint k hA
    (h.step hAB hcap hint ((Latency.out_extends_run cfg k _).trans hA))

theorem Latency.Echo.init {ssched rsched : List Answer} (hs : Answer.fail ∉ ssched)
    (hr : Answer.fail ∉ rsched) (hra : Answer.again ∉ rsched) :
    Latency.Echo cfg B (Latency.init cfg ssched rsched B) :=
  ⟨rfl, sentCopies_copies (Nat.zero_le _), Nat.zero_le _, hs, hr, hra,
    by simp [Latency.init, frames],
    by simp [frames], by simp [Latency.init]⟩

end Echo

/-! ### The exchange -/

section Exchange

variable {cfg} {cap : Nat} {cpu : List UInt8 → Nat}

/-- `xcmpong -c -p -n 1 -m 2 -b 2`: one round of two two-byte messages. -/
def oneBatchOfTwo : ClientCfg := ⟨1, 2, 2, Nat.one_pos, Nat.two_pos, Nat.two_pos⟩

end Exchange

end Xcm.Pong
