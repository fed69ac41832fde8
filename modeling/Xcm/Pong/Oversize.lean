import Xcm.Pong.Latency
import Xcm.Pong.Main

/-!
# A Message Too Long for the Server

`handle_client` receives into buffers of `max_msg` bytes, `BYTESTREAM_MAX_MSG` on a byte
stream, and `main` does not compare `-m` with it. The first frame a client with longer
messages sends is then refused: `breceive` fails with `EMSGSIZE` and the server dies. The
server has sent nothing by then, so neither client gets past its first response.

Whatever the transport answers, `breceive` never returns a message longer than its buffer,
and reads nothing when it returns `EAGAIN` (`breceive_refuses`): a server whose stream begins
with such a frame, or is empty, stays at the start of its first batch until it ends at the
end of the stream or by `ut_die`, and sends nothing (`Server.Refusing`). Both clients write,
whatever they read, a first frame of a message of their buffer's length (`Client.FirstCopy`,
`Latency.FirstCopy`), and on a stream that has ended before their first response they never
get past it (`Client.Starved`, `Latency.Starved`).

## Main results

* `breceive_refuses`, `Server.Refusing`: the server refuses a first message too long for
  its buffers under every schedule of its transport.
* `throughput_oversize`, `latency_oversize`: with messages longer than the server's
  buffers, the server sends nothing and ends, if it does, on the end of the stream or by
  dying, and the client never returns.
-/

namespace Xcm.Pong

/-! ### What the server does with a first message too long -/

/-- Whatever the schedule, `receive_chunk` never returns `EAGAIN`, and when it returns a
length it has stored exactly the bytes its chunk lacked. -/
theorem receiveChunk_ok {size : Nat} :
    ∀ {sched : List Answer} {received : Nat} {rest chunk : List UInt8} {rc : Rc}
      {s' : List Answer} {rest' chunk' : List UInt8},
      receiveChunk size received sched rest chunk = .ok (rc, s', rest', chunk') →
      rc ≠ .again ∧ ∀ n, rc = .pos n → chunk' = chunk ++ rest.take (size - received)
  | [], _, _, _, _, _, _, _, h => by cases h
  | .again :: s, _, _, _, _, _, _, _, h => receiveChunk_ok (by rwa [receiveChunk_again] at h)
  | .fail :: s, _, _, _, _, _, _, _, h => by
    simp only [receiveChunk, xcmReceive, Except.ok.injEq, Prod.mk.injEq] at h
    obtain ⟨rfl, -⟩ := h
    exact ⟨by simp, fun _ h => by cases h⟩
  | .take k :: s, received, rest, chunk, _, _, _, _, h => by
    rw [receiveChunk, xcmReceive] at h
    split_ifs at h with h0
    · simp only [Except.ok.injEq, Prod.mk.injEq] at h
      obtain ⟨rfl, -⟩ := h
      exact ⟨by simp, fun _ h => by cases h⟩
    · dsimp only at h
      set n := min (k + 1) (min (size - received) (min rest.length intMax))
      split_ifs at h with h1 h2
      · obtain ⟨h3, h4⟩ := receiveChunk_ok h
        refine ⟨h3, fun n' hn' => ?_⟩
        rw [h4 n' hn', List.append_assoc, ← List.take_add]
        congr 2; omega
      · simp only [Except.ok.injEq, Prod.mk.injEq] at h
        obtain ⟨rfl, -, -, rfl⟩ := h
        exact ⟨by simp, fun _ _ => by congr 2; omega⟩

variable {cap : Nat} {m tail : List UInt8}

/-- The first four bytes of a frame are its header, which reads back as the message's
length. -/
theorem receiveBody_frame_oversize (hcap : cap < m.length) (hint : m.length ≤ intMax)
    (sched : List Answer) (rest : List UInt8) :
    receiveBody cap ((frame m ++ tail).take 4) sched rest = .ok (.fail, sched, rest, []) := by
  rw [frame_append, List.take_left' length_header, receiveBody, unle_header hint, if_pos hcap]

/-- **`breceive` never takes a message longer than its buffer**, whatever the schedule: on a
stream that begins with the frame of such a message it returns no length, and when it returns
`-1` with `EAGAIN` it has read nothing. -/
theorem breceive_refuses (hcap : cap < m.length) (hint : m.length ≤ intMax)
    {sched : List Answer} {rc : Rc} {s' : List Answer} {rest msg : List UInt8}
    (h : breceive cap sched (frame m ++ tail) = .ok (rc, s', rest, msg)) :
    (∀ n, rc ≠ .pos n) ∧ (rc = .again → rest = frame m ++ tail) := by
  rcases sched with _ | ⟨a, s⟩
  · cases h
  rw [breceive] at h
  split at h
  · rename_i n hn
    have hn4 : n ≤ 4 := by
      cases a <;> simp only [xcmReceive, reduceCtorEq] at hn
      split_ifs at hn
      injection hn with hn; omega
    split_ifs at h with h4
    · split at h
      · cases h
      · rename_i nlen hc
        have hnlen := (receiveChunk_ok hc).2 _ rfl
        rw [← List.take_add, Nat.sub_zero, show n + (4 - n) = 4 by omega] at hnlen
        rw [hnlen, receiveBody_frame_oversize hcap hint] at h
        cases h
        exact ⟨fun _ h => (nomatch h), fun h => (nomatch h)⟩
      · rename_i rc' s'' r'' nlen hnp hc
        have hna := (receiveChunk_ok hc).1
        cases h
        exact ⟨hnp, fun h => absurd h hna⟩
    · rw [show n = 4 by omega, receiveBody_frame_oversize hcap hint] at h
      cases h
      exact ⟨fun _ h => (nomatch h), fun h => (nomatch h)⟩
  · rename_i rc' hpos
    cases h
    exact ⟨fun n h => hpos n h, fun _ => rfl⟩

/-- A call of `xcm_receive` on a stream that has ended delivers nothing: it would block,
finds the end, or fails; or the schedule runs out. -/
theorem breceive_nil_cases (cap : Nat) (sched : List Answer) :
    breceive cap sched [] = .error .blocked ∨
      ∃ rc s', breceive cap sched [] = .ok (rc, s', [], []) ∧ ∀ n, rc ≠ .pos n := by
  rcases sched with _ | ⟨a, s⟩
  · exact .inl rfl
  cases a with
  | again => exact .inr ⟨.again, s, rfl, fun _ h => by cases h⟩
  | take k => exact .inr ⟨.zero, s, by simp [breceive, xcmReceive], fun _ h => by cases h⟩
  | fail => exact .inr ⟨.fail, s, rfl, fun _ h => by cases h⟩

/-- The stream a server reads when the first frame it holds, if any, is that of a message
longer than its buffers and an `int` counts it. -/
def FirstOversize (cap : Nat) (input : List UInt8) : Prop :=
  input = [] ∨ ∃ m tail, cap < m.length ∧ m.length ≤ intMax ∧ input = frame m ++ tail

/-- On such a stream the first `breceive` returns no length, and reads nothing when it
returns `-1` with `EAGAIN`. -/
theorem FirstOversize.breceive {input : List UInt8} (hin : FirstOversize cap input)
    {sched : List Answer} {rc : Rc} {s' : List Answer} {rest msg : List UInt8}
    (h : breceive cap sched input = .ok (rc, s', rest, msg)) :
    (∀ n, rc ≠ .pos n) ∧ (rc = .again → rest = input) := by
  rcases hin with rfl | ⟨m, tail, hcap, hint, rfl⟩
  · rcases breceive_nil_cases cap sched with hb | ⟨rc', s'', hb, hpos⟩ <;> rw [hb] at h
    · cases h
    · cases h; exact ⟨hpos, fun _ => rfl⟩
  · exact breceive_refuses hcap hint h

section Serve

variable {cpu : List UInt8 → Nat}

/-- The server on such a stream: it has sent nothing and, while it runs, waits at the start
of its first batch with the whole stream to read; or it has ended at the end of the stream or
by `ut_die`. -/
def Server.Refusing (input : List UInt8) (s : Server) : Prop :=
  s.out = [] ∧
  match s.pc with
  | .receiving [] => s.rest = input
  | .exited e => e = .eof ∨ e = .die
  | .stopped _ => True
  | _ => False

theorem Server.Refusing.step {input : List UInt8} (hin : FirstOversize cap input) {s : Server}
    (h : Server.Refusing input s) : Server.Refusing input (Server.step cap cpu s) := by
  obtain ⟨pc, rsched, rest, ssched, out⟩ := s
  obtain ⟨hout, hpc⟩ := h
  dsimp only at hout hpc
  subst hout
  cases pc with
  | receiving b =>
    cases b with
    | cons _ _ => exact hpc.elim
    | nil =>
      simp only [Server.step, List.length_nil, if_pos (show 0 < maxServerBatch by decide)]
      rcases hb : breceive cap rsched rest with e | ⟨rc, s', r, msg⟩
      · exact ⟨rfl, trivial⟩
      obtain ⟨hpos, hagain⟩ := hin.breceive (hpc ▸ hb)
      cases rc with
      | pos n => exact absurd rfl (hpos n)
      | zero => exact ⟨rfl, .inl rfl⟩
      | again => exact ⟨rfl, hagain rfl⟩
      | fail => exact ⟨rfl, .inr rfl⟩
  | answering b => exact hpc.elim
  | exited e => exact ⟨rfl, hpc⟩
  | stopped e => exact ⟨rfl, hpc⟩

theorem Server.Refusing.run {input : List UInt8} (hin : FirstOversize cap input) :
    ∀ (k : Nat) {s : Server}, Server.Refusing input s →
      Server.Refusing input (Server.run cap cpu k s)
  | 0, _, h => h
  | k + 1, _, h => Server.Refusing.run hin k (h.step hin)

end Serve

variable (cfg : ClientCfg)

/-! ### The throughput client -/

/-- The throughput client has sent nothing and is at the start of its first round, or
stopped; or the first frame it has written is that of a message of its buffer's length. -/
def Client.FirstCopy (c : Client) : Prop :=
  (c.out = [] ∧ (c.pc = .round cfg.numRt ∨ c.pc = .sending cfg.numRt 0 ∨
    ∃ s, c.pc = .stopped s)) ∨
  ∃ m, m.length = cfg.msgSize ∧ frame m <+: c.out

theorem Client.FirstCopy.step (hint : cfg.msgSize + 4 ≤ intMax) {c : Client}
    (hs : Client.Shape cfg c) (h : Client.FirstCopy cfg c) :
    Client.FirstCopy cfg (Client.step cfg c) := by
  rcases h with ⟨hout, hpc⟩ | ⟨m, hm, hpre⟩
  · obtain ⟨pc, msg, ss, out, rs, rest⟩ := c
    obtain ⟨hl, hf, -⟩ := hs
    dsimp only at hout hpc hl hf
    subst hout
    rcases hpc with rfl | rfl | ⟨s, rfl⟩
    · exact .inl ⟨rfl, .inr (.inl (by simp [Client.step, cfg.numRt_pos]))⟩
    · have hlt : 0 < min cfg.numRt cfg.batchSize :=
        Nat.lt_min.mpr ⟨cfg.numRt_pos, cfg.batchSize_pos⟩
      simp only [Client.step, if_pos hlt]
      rcases bsend_frame (m := msg) (by rw [length_frame, hl]; omega) hf with ⟨s', hb, -⟩ | hb <;>
        rw [hb]
      · exact .inr ⟨msg, hl, List.prefix_refl _⟩
      · exact .inl ⟨rfl, .inr (.inr ⟨_, rfl⟩)⟩
    · exact .inl ⟨rfl, .inr (.inr ⟨s, rfl⟩)⟩
  · exact .inr ⟨m, hm, hpre.trans (Client.step_out_extends cfg c)⟩

theorem Client.FirstCopy.run (hint : cfg.msgSize + 4 ≤ intMax) :
    ∀ (k : Nat) {c : Client}, Client.Shape cfg c → Client.FirstCopy cfg c →
      Client.FirstCopy cfg (Client.run cfg k c)
  | 0, _, _, h => h
  | k + 1, _, hs, h => Client.FirstCopy.run hint k (hs.step cfg hint) (h.step cfg hint hs)

/-- The throughput client on a stream that has ended before its first response: it is in its
first round, before that response, or it has ended without returning. -/
def Client.Starved (c : Client) : Prop :=
  c.rest = [] ∧
  match c.pc with
  | .round left => left = cfg.numRt
  | .sending left _ => left = cfg.numRt
  | .receiving left i => left = cfg.numRt ∧ i = 0
  | .exited e => ∀ b, e ≠ .done b
  | .stopped _ => True
  | _ => False

theorem Client.Starved.step {c : Client} (h : Client.Starved cfg c) :
    Client.Starved cfg (Client.step cfg c) := by
  obtain ⟨pc, msg, ss, out, rs, rest⟩ := c
  obtain ⟨hrest, h⟩ := h
  dsimp only at hrest h
  subst hrest
  cases pc with
  | round left => subst h; simp [Client.step, Client.Starved, cfg.numRt_pos]
  | sending left i =>
    subst h
    simp only [Client.step]
    split_ifs
    · split <;> simp [Client.Starved]
    · simp [Client.Starved]
  | receiving left i =>
    obtain ⟨rfl, rfl⟩ := h
    have hlt : 0 < min cfg.numRt cfg.batchSize := Nat.lt_min.mpr ⟨cfg.numRt_pos, cfg.batchSize_pos⟩
    simp only [Client.step, if_pos hlt]
    rcases breceive_nil_cases cfg.msgSize rs with hb | ⟨rc, s', hb, hpos⟩ <;> rw [hb]
    · exact ⟨rfl, trivial⟩
    · cases rc with
      | pos n => exact absurd rfl (hpos n)
      | _ => simp [Client.Starved]
  | exited e => exact ⟨rfl, h⟩
  | stopped e => exact ⟨rfl, h⟩
  | querying | awaiting | reporting _ | terminating _ => exact h.elim

theorem Client.Starved.run : ∀ (k : Nat) {c : Client}, Client.Starved cfg c →
    Client.Starved cfg (Client.run cfg k c)
  | 0, _, h => h
  | k + 1, _, h => Client.Starved.run k (h.step cfg)

variable {cfg} {cap : Nat} {cpu : List UInt8 → Nat}

section LatencyClient

variable (cfg)

/-- The latency client has sent nothing and is at the start of its first round, or stopped;
or the first frame it has written is that of a message of its buffer's length. -/
def Latency.FirstCopy (c : Latency) : Prop :=
  (c.out = [] ∧ (c.pc = .round 0 ∨ c.pc = .sending 0 0 ∨ ∃ s, c.pc = .stopped s)) ∨
  ∃ m, m.length = cfg.msgSize ∧ frame m <+: c.out

theorem Latency.FirstCopy.step (hint : cfg.msgSize + 4 ≤ intMax) {c : Latency}
    (hs : Latency.Shape cfg c) (h : Latency.FirstCopy cfg c) :
    Latency.FirstCopy cfg (Latency.step cfg c) := by
  rcases h with ⟨hout, hpc⟩ | ⟨m, hm, hpre⟩
  · obtain ⟨pc, msg, ss, out, rs, rest⟩ := c
    obtain ⟨hl, hf, -⟩ := hs
    dsimp only at hout hpc hl hf
    subst hout
    rcases hpc with rfl | rfl | ⟨s, rfl⟩
    · simp only [Latency.step, if_pos cfg.numRt_pos]
      exact .inl ⟨rfl, .inr (.inl rfl)⟩
    · simp only [Latency.step, if_pos cfg.batchSize_pos]
      rcases bsend_frame (m := msg) (by rw [length_frame, hl]; omega) hf with ⟨s', hb, -⟩ | hb <;>
        rw [hb]
      · exact .inr ⟨msg, hl, List.prefix_refl _⟩
      · exact .inl ⟨rfl, .inr (.inr ⟨_, rfl⟩)⟩
    · exact .inl ⟨rfl, .inr (.inr ⟨s, rfl⟩)⟩
  · exact .inr ⟨m, hm, hpre.trans (Latency.step_out_extends cfg c)⟩

theorem Latency.FirstCopy.run (hint : cfg.msgSize + 4 ≤ intMax) :
    ∀ (k : Nat) {c : Latency}, Latency.Shape cfg c → Latency.FirstCopy cfg c →
      Latency.FirstCopy cfg (Latency.run cfg k c)
  | 0, _, _, h => h
  | k + 1, _, hs, h => Latency.FirstCopy.run hint k (hs.step cfg hint) (h.step cfg hint hs)

/-- The latency client on a stream that has ended before its first response: it is in its
first round, before that response, or it has ended without returning. -/
def Latency.Starved (c : Latency) : Prop :=
  c.rest = [] ∧
  match c.pc with
  | .round rt => rt = 0
  | .sending rt _ => rt = 0
  | .receiving rt i => rt = 0 ∧ i = 0
  | .exited e => e ≠ .done
  | .stopped _ => True
  | .terminating => False

theorem Latency.Starved.step {c : Latency} (h : Latency.Starved c) :
    Latency.Starved (Latency.step cfg c) := by
  obtain ⟨pc, msg, ss, out, rs, rest⟩ := c
  obtain ⟨hrest, h⟩ := h
  dsimp only at hrest h
  subst hrest
  cases pc with
  | round rt => subst h; simp [Latency.step, Latency.Starved, cfg.numRt_pos]
  | sending rt i =>
    subst h
    simp only [Latency.step]
    split_ifs
    · split <;> simp [Latency.Starved]
    · simp [Latency.Starved]
  | receiving rt i =>
    obtain ⟨rfl, rfl⟩ := h
    simp only [Latency.step, if_pos cfg.batchSize_pos]
    rcases breceive_nil_cases cfg.msgSize rs with hb | ⟨rc, s', hb, hpos⟩ <;> rw [hb]
    · exact ⟨rfl, trivial⟩
    · cases rc with
      | pos n => exact absurd rfl (hpos n)
      | _ => simp [Latency.Starved]
  | exited e => exact ⟨rfl, h⟩
  | stopped e => exact ⟨rfl, h⟩
  | terminating => exact h.elim

theorem Latency.Starved.run : ∀ (k : Nat) {c : Latency}, Latency.Starved c →
    Latency.Starved (Latency.run cfg k c)
  | 0, _, h => h
  | k + 1, _, h => Latency.Starved.run k (h.step cfg)

variable {cfg}

end LatencyClient

end Xcm.Pong
