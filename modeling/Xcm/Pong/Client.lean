import Xcm.Pong.Server

/-!
# The Throughput Client

`run_throughput_client` sends `num_rt` copies of a buffer of `msg_size` bytes that begins
with `REFLECT_REQ`, in rounds of `batch_size`, and reads the responses of each round into
the same buffer; then `query_cpu` asks the server for its CPU time with `CPU_USAGE_REQ`, and
`send_term` ends it with `TERM_REQ`. As for the server, the byte-stream case is modelled,
one call of `bsend` or `breceive`, or one test of a loop, a step (`Client.step`).

Whatever it reads, the client writes the frames of whole messages, each of its buffer's
length or of one byte (`Client.Shape.run`). On a stream that begins with part of a frame,
`breceive` returns the message whole or ends with the stream (`breceive_prefix_frame`), and
the frame code is prefix-free (`frames_prefix_frames`): `Xcm.Pong.Session` puts these
together with the server.

## Main results

* `Client.Shape.run`: the client writes the frames of messages of its buffer's length or of
  one byte.
* `breceive_prefix_frame`: `breceive` on a stream that may end inside a frame.
* `frames_prefix_frames`: the messages of a prefix of a stream of frames are a prefix.
-/

namespace Xcm.Pong

/-- The settings `main` passes to `run_throughput_client` and `run_latency_client`, with the
checks it makes on them: at least one round trip, messages of at least one byte, batches of
at least one. -/
structure ClientCfg where
  numRt : Nat
  msgSize : Nat
  batchSize : Nat
  numRt_pos : 0 < numRt
  msgSize_pos : 0 < msgSize
  batchSize_pos : 0 < batchSize

/-- How `run_throughput_client` ends: it returns after `send_term`, with the bytes
`xreceive` stored in `n_ns` (fewer than eight leave the rest uninitialized); or
`ut_die` on a failed call; or exits with failure on "Server unexpectedly closed the
connection." or "Invalid message length.". -/
inductive ClientEnd
  | done (cpu : List UInt8)
  | die
  | closed
  | badLength
  deriving DecidableEq, Repr

/-- Where `run_throughput_client` is: at the test of its round loop with `left` round trips
left; sending message `i` of the round; receiving response `i` of the round; in
`query_cpu`, sending `CPU_USAGE_REQ` and then receiving the answer; reporting; in
`send_term`; or ended. -/
inductive ClientPc
  | round (left : Nat)
  | sending (left i : Nat)
  | receiving (left i : Nat)
  | querying
  | awaiting
  | reporting (cpu : List UInt8)
  | terminating (cpu : List UInt8)
  | exited (e : ClientEnd)
  | stopped (s : Stop)
  deriving DecidableEq, Repr

/-- The process of the throughput client: where it is, its message buffer `msg`, the
stream it has written with the transport's answers left to its `xcm_send` calls, and what
is left of the stream it reads with the answers left to its `xcm_receive` calls. -/
structure Client where
  pc : ClientPc
  msg : List UInt8
  ssched : List Answer
  out : List UInt8
  rsched : List Answer
  rest : List UInt8
  deriving DecidableEq, Repr

variable (cfg : ClientCfg)

/-- One pass of one of the loops of `run_throughput_client` on a byte-stream connection,
where `pick` chooses `bsend` and `breceive`: one call of `xsend` or `xreceive`, or one
test of a loop. A round sends `this_batch = UT_MIN(left, batch_size)` copies of the
buffer, returning to the loop on `EAGAIN`, and then receives as many responses into it,
each of which must be `msg_size` bytes long. `query_cpu` ignores what `xsend` returns and
checks only that `xreceive` does not return a negative value; `send_term` ignores what
`xsend` returns. The report computes `num_rt * 2` as an `int`. -/
def Client.step (c : Client) : Client :=
  match c.pc with
  | .round left => { c with pc := if 0 < left then .sending left 0 else .querying }
  | .sending left i =>
    if i < min left cfg.batchSize then
      match bsend c.msg c.ssched c.out with
      | .ok (true, ssched, out) => { c with pc := .sending left (i + 1), ssched, out }
      | .ok (false, ssched, out) => { c with pc := .exited .die, ssched, out }
      | .error e => { c with pc := .stopped e }
    else { c with pc := .receiving left 0 }
  | .receiving left i =>
    if i < min left cfg.batchSize then
      match breceive cfg.msgSize c.rsched c.rest with
      | .ok (rc, rsched, rest, m) =>
        let c := { c with msg := m ++ c.msg.drop m.length, rsched, rest }
        match rc with
        | .pos n =>
          { c with pc := if n = cfg.msgSize then .receiving left (i + 1) else .exited .badLength }
        | .again => c
        | .fail => { c with pc := .exited .die }
        | .zero => { c with pc := .exited .closed }
      | .error e => { c with pc := .stopped e }
    else { c with pc := .round (left - min left cfg.batchSize) }
  | .querying =>
    match bsend [cpuUsageReq] c.ssched c.out with
    | .ok (_, ssched, out) => { c with pc := .awaiting, ssched, out }
    | .error e => { c with pc := .stopped e }
  | .awaiting =>
    match breceive 8 c.rsched c.rest with
    | .ok (.pos _, rsched, rest, m) | .ok (.zero, rsched, rest, m) =>
      { c with pc := .reporting m, rsched, rest }
    | .ok (_, rsched, rest, _) => { c with pc := .exited .die, rsched, rest }
    | .error e => { c with pc := .stopped e }
  | .reporting cpu =>
    { c with pc := if intMax < cfg.numRt * 2 then .stopped .overflow else .terminating cpu }
  | .terminating cpu =>
    match bsend [termReq] c.ssched c.out with
    | .ok (_, ssched, out) => { c with pc := .exited (.done cpu), ssched, out }
    | .error e => { c with pc := .stopped e }
  | _ => c

/-- `k` steps of `run_throughput_client`. -/
def Client.run : Nat → Client → Client
  | 0, c => c
  | k + 1, c => Client.run k (Client.step cfg c)

/-- The buffer `msg` of `msg_size` bytes after `memset(msg, 0, msg_size)` and
`msg[0] = REFLECT_REQ`. -/
def initMsg (n : Nat) : List UInt8 := (List.replicate n 0).set 0 reflectReq

/-- `run_throughput_client` at the start of its round loop, reading the stream `input`. -/
def Client.init (ssched rsched : List Answer) (input : List UInt8) : Client :=
  ⟨.round cfg.numRt, initMsg cfg.msgSize, ssched, [], rsched, input⟩


/-! ### What `bsend` and `breceive` leave behind -/

theorem bsendLoop_out_extends {buf : List UInt8} {b : Bool} {s' : List Answer} {out' : List UInt8} :
    ∀ {sched : List Answer} {sent : Nat} {out : List UInt8},
      bsendLoop buf sent sched out = .ok (b, s', out') → out <+: out'
  | [], _, _, h => by cases h
  | a :: s, sent, out, h => by
    rw [bsendLoop] at h
    split at h
    · split_ifs at h
      · exact (List.prefix_append _ _).trans (bsendLoop_out_extends h)
      · cases h; exact List.prefix_append _ _
    · exact bsendLoop_out_extends h
    · cases h; exact List.prefix_refl _

theorem receiveChunk_length_le {size : Nat} {rc : Rc} {s' : List Answer} {rest' c' : List UInt8} :
    ∀ {sched : List Answer} {received : Nat} {rest chunk : List UInt8},
      receiveChunk size received sched rest chunk = .ok (rc, s', rest', c') →
        chunk.length ≤ received → received ≤ size → c'.length ≤ size
  | [], _, _, _, h => by cases h
  | a :: s, received, rest, chunk, h => by
    intro hc hr
    rw [receiveChunk] at h
    split at h
    · rename_i n hn
      have hn' : n ≤ size - received := by
        cases a with
        | again | fail => simp [xcmReceive] at hn
        | take k =>
          simp only [xcmReceive] at hn
          split_ifs at hn
          cases hn
          exact le_trans (min_le_right _ _) (min_le_left _ _)
      have hlen : (chunk ++ rest.take n).length ≤ received + n := by
        rw [List.length_append, List.length_take]
        exact Nat.add_le_add hc (min_le_left _ _)
      split_ifs at h
      · exact receiveChunk_length_le h hlen (by omega)
      · cases h; omega
    · cases h; omega
    · exact receiveChunk_length_le h hc hr
    · cases h; omega

theorem receiveBody_length_le {cap : Nat} {nlen : List UInt8} {sched : List Answer}
    {rest : List UInt8} {rc : Rc} {s' : List Answer} {rest' m : List UInt8}
    (h : receiveBody cap nlen sched rest = .ok (rc, s', rest', m)) : m.length ≤ cap := by
  simp only [receiveBody] at h
  split_ifs at h with hc
  · cases h; exact Nat.zero_le _
  rcases hr : receiveChunk (Buf.unle nlen.reverse) 0 sched rest [] with e | ⟨rc', s'', r'', c''⟩ <;>
    rw [hr] at h
  · cases h
  · have := receiveChunk_length_le hr (Nat.zero_le _) (Nat.zero_le _)
    cases rc' <;> cases h <;> omega

/-- What `breceive` stores fits the buffer it is given. -/
theorem breceive_length_le {cap : Nat} {sched : List Answer} {rest : List UInt8} {rc : Rc}
    {s' : List Answer} {rest' m : List UInt8}
    (h : breceive cap sched rest = .ok (rc, s', rest', m)) :
    m.length ≤ cap := by
  rcases sched with _ | ⟨a, s⟩
  · cases h
  rw [breceive] at h
  split at h
  · split_ifs at h
    · split at h
      · cases h
      · exact receiveBody_length_le h
      · cases h; exact Nat.zero_le _
    · exact receiveBody_length_le h
  · cases h; exact Nat.zero_le _

/-- **A stream that ends inside a chunk.** When fewer bytes are left than the chunk lacks,
`receive_chunk` stores all of them and returns `0` at the end of the stream, or the
schedule runs out. -/
theorem receiveChunk_short {size : Nat} (hsize : size ≤ intMax) :
    ∀ (sched : List Answer) (received : Nat) (rest chunk : List UInt8), Answer.fail ∉ sched →
      received + rest.length < size →
      receiveChunk size received sched rest chunk = .error .blocked ∨
        ∃ s', receiveChunk size received sched rest chunk = .ok (.zero, s', [], chunk ++ rest) := by
  intro sched
  induction sched with
  | nil => intro _ _ _ _ _; exact .inl rfl
  | cons a s ih =>
    intro received rest chunk hf hlt
    have hf' : Answer.fail ∉ s := fun h => hf (List.mem_cons_of_mem _ h)
    cases a with
    | fail => exact absurd (List.mem_cons_self _ _) hf
    | again => rw [receiveChunk_again]; exact ih received rest chunk hf' hlt
    | take k =>
      rcases rest with _ | ⟨x, xs⟩
      · exact .inr ⟨s, by simp [receiveChunk, xcmReceive]⟩
      rw [receiveChunk_take (by simp at hlt; omega) (by simp) hsize]
      set n := min (k + 1) (min (size - received) (min (x :: xs).length intMax))
      have hn : n ≤ (x :: xs).length := le_trans (min_le_right _ _)
        (le_trans (min_le_right _ _) (min_le_left _ _))
      rw [if_pos (by omega)]
      rcases ih (received + n) ((x :: xs).drop n) (chunk ++ (x :: xs).take n) hf'
          (by simp only [List.length_drop]; omega) with h | ⟨s', h⟩
      · exact .inl h
      · exact .inr ⟨s', by rw [h, List.append_assoc, List.take_append_drop]⟩

/-- **A frame cut by the end of the stream.** On a stream that holds only the first part
of the frame of a message that fits the buffer, `breceive` returns `0` with a prefix of
the message stored, or `-1` with `EAGAIN`, having read nothing, on an `EAGAIN` answer to
its first call, or the schedule runs out: it never returns a length. -/
theorem breceive_short_frame {m p : List UInt8} {cap : Nat} {sched : List Answer}
    (hm : m.length ≤ cap) (hint : m.length ≤ intMax) (hp : p <+: frame m)
    (hlt : p.length < (frame m).length) (hf : Answer.fail ∉ sched) :
    breceive cap sched p = .error .blocked ∨
    (∃ s', sched = .again :: s' ∧ breceive cap sched p = .ok (.again, s', p, [])) ∨
    ∃ s' x, breceive cap sched p = .ok (.zero, s', [], x) ∧ x <+: m := by
  by_cases h4 : 4 ≤ p.length
  · obtain ⟨t, ht⟩ := hp
    have hhdr : p.take 4 = (Buf.le 4 m.length).reverse := by
      have := congrArg (List.take 4) ht
      rwa [List.take_append_of_le_length h4, frame, List.take_left' length_header] at this
    have hq : p.drop 4 ++ t = m := by
      have := congrArg (List.drop 4) ht
      rwa [List.drop_append_of_le_length h4, frame, List.drop_left' length_header] at this
    have hqlt : (p.drop 4).length < m.length := by
      rw [length_frame] at hlt; rw [List.length_drop]; omega
    rw [← List.take_append_drop 4 p, hhdr]
    rcases @breceive_header (p.drop 4) cap _ _ length_header hf with ⟨s', hs, -, h⟩ | h | ⟨h, -⟩
    · rw [h]
      simp only [receiveBody, unle_header hint, if_neg (Nat.not_lt.mpr hm)]
      rcases receiveChunk_short hint s' 0 (p.drop 4) [] (fun h' => hf (hs.subset h')) (by omega)
        with h' | ⟨s'', h'⟩ <;> rw [h']
      · exact .inl rfl
      · exact .inr (.inr ⟨s'', p.drop 4, rfl, t, hq⟩)
    · exact .inr (.inl h)
    · exact .inl h
  rcases sched with _ | ⟨a, s⟩
  · exact .inl rfl
  have hf' : Answer.fail ∉ s := fun h => hf (List.mem_cons_of_mem _ h)
  cases a with
  | fail => exact absurd (List.mem_cons_self _ _) hf
  | again => exact .inr (.inl ⟨s, rfl, by simp [breceive, xcmReceive]⟩)
  | take k =>
    rcases p with _ | ⟨x, xs⟩
    · exact .inr (.inr ⟨s, [], by simp [breceive, xcmReceive], List.nil_prefix⟩)
    rw [breceive, xcmReceive_take (by decide) (by simp)]
    simp only
    set n := min (k + 1) (min 4 (min (x :: xs).length intMax))
    have hn : n ≤ (x :: xs).length := le_trans (min_le_right _ _)
      (le_trans (min_le_right _ _) (min_le_left _ _))
    rw [if_pos (by omega)]
    rcases receiveChunk_short (show 4 - n ≤ intMax by unfold intMax; omega) s 0 ((x :: xs).drop n)
      ((x :: xs).take n) hf' (by simp only [List.length_drop]; omega) with h | ⟨s', h⟩ <;> rw [h]
    · exact .inl rfl
    · exact .inr (.inr ⟨s', [], rfl, List.nil_prefix⟩)

/-! ### The frame code is prefix-free -/

/-- `bsend` with a transport that does not fail appends the whole frame, or the schedule
runs out. -/
theorem bsend_frame {m : List UInt8} {sched : List Answer} {out : List UInt8}
    (hm : (frame m).length ≤ intMax) (hf : Answer.fail ∉ sched) :
    (∃ s', bsend m sched out = .ok (true, s', out ++ frame m) ∧ s' <:+ sched) ∨
    bsend m sched out = .error .blocked := by
  rcases bsendLoop_spec hm sched 0 out hf (by simp) with ⟨s', h, hs, -⟩ | ⟨h, -⟩
  · exact .inl ⟨s', by rw [bsend, h, List.drop_zero], hs⟩
  · exact .inr h

/-- The client only appends to the stream it writes. -/
theorem Client.step_out_extends (c : Client) : c.out <+: (Client.step cfg c).out := by
  obtain ⟨pc, msg, ssched, out, rsched, rest⟩ := c
  cases pc <;> simp only [Client.step] <;> (try split_ifs) <;> (try split) <;>
    first
    | exact List.prefix_refl _
    | exact bsendLoop_out_extends ‹_›
    | (try split) <;> exact List.prefix_refl _

theorem Client.out_extends_run : ∀ (k : Nat) (c : Client), c.out <+: (Client.run cfg k c).out
  | 0, _ => List.prefix_refl _
  | k + 1, c => (Client.step_out_extends cfg c).trans (Client.out_extends_run k _)

theorem frames_append (xs ys : List (List UInt8)) :
    frames (xs ++ ys) = frames xs ++ frames ys := by
  induction xs with
  | nil => rfl
  | cons x xs ih => rw [List.cons_append, frames, frames, ih, List.append_assoc]

/-- A stream of the frames of messages that each satisfy `P`. -/
def Framed (P : List UInt8 → Prop) (out : List UInt8) : Prop :=
  ∃ ms : List (List UInt8), out = frames ms ∧ ∀ m ∈ ms, P m

theorem Framed.snoc {P : List UInt8 → Prop} {out m : List UInt8} (h : Framed P out) (hm : P m) :
    Framed P (out ++ frame m) := by
  obtain ⟨ms, rfl, hms⟩ := h
  refine ⟨ms ++ [m], by rw [frames_append, frames, frames, List.append_nil], fun x hx => ?_⟩
  rcases List.mem_append.mp hx with hx | hx
  · exact hms x hx
  · rw [List.mem_singleton.mp hx]; exact hm

/-- What the client has written, whatever it has read, when the transport it writes to
does not fail: the frames of its messages, each as long as its buffer or of one byte; and
its buffer keeps its length. -/
def Client.Shape (c : Client) : Prop :=
  c.msg.length = cfg.msgSize ∧ Answer.fail ∉ c.ssched ∧
    Framed (fun m => m.length = cfg.msgSize ∨ m.length = 1) c.out

/-- `bsend` of a message that satisfies `P` keeps a stream of such frames one, with a
transport that does not fail. -/
theorem bsend_framed {P : List UInt8 → Prop} {m out : List UInt8} {sched : List Answer}
    (hm : P m) (hfr : (frame m).length ≤ intMax) (hf : Answer.fail ∉ sched) (hout : Framed P out) :
    (∃ s', bsend m sched out = .ok (true, s', out ++ frame m) ∧ Answer.fail ∉ s' ∧
      Framed P (out ++ frame m)) ∨
    bsend m sched out = .error .blocked := by
  rcases bsend_frame hfr hf with ⟨s', h, hs⟩ | h
  · exact .inl ⟨s', h, fun h' => hf (hs.subset h'), hout.snoc hm⟩
  · exact .inr h

theorem frame_length_le_of_shape (hint : cfg.msgSize + 4 ≤ intMax) {m : List UInt8}
    (hm : m.length = cfg.msgSize ∨ m.length = 1) : (frame m).length ≤ intMax := by
  rw [length_frame]; rcases hm with hm | hm <;> rw [hm] <;> [omega; decide]

theorem Client.Shape.step (hint : cfg.msgSize + 4 ≤ intMax) {c : Client}
    (h : Client.Shape cfg c) : Client.Shape cfg (Client.step cfg c) := by
  obtain ⟨pc, msg, ssched, out, rsched, rest⟩ := c
  obtain ⟨hl, hf, hout⟩ := h
  have hsend (m : List UInt8) (hm : m.length = cfg.msgSize ∨ m.length = 1) :=
    @bsend_framed _ m out ssched hm (frame_length_le_of_shape cfg hint hm) hf hout
  cases pc with
  | round left => exact ⟨hl, hf, hout⟩
  | sending left i =>
    simp only [Client.step]
    split_ifs
    · rcases hsend msg (.inl hl) with ⟨s', h, hf', hout'⟩ | h <;> rw [h]
      · exact ⟨hl, hf', hout'⟩
      · exact ⟨hl, hf, hout⟩
    · exact ⟨hl, hf, hout⟩
  | receiving left i =>
    simp only [Client.step]
    split_ifs
    · rcases hr : breceive cfg.msgSize rsched rest with e | ⟨rc, rs, rt, m⟩
      · exact ⟨hl, hf, hout⟩
      have hm := breceive_length_le hr
      have hl' : (m ++ msg.drop m.length).length = cfg.msgSize := by simp [hl]; omega
      cases rc <;> exact ⟨hl', hf, hout⟩
    · exact ⟨hl, hf, hout⟩
  | querying =>
    simp only [Client.step]
    rcases hsend [cpuUsageReq] (.inr rfl) with ⟨s', h, hf', hout'⟩ | h <;> rw [h]
    · exact ⟨hl, hf', hout'⟩
    · exact ⟨hl, hf, hout⟩
  | awaiting =>
    simp only [Client.step]
    split <;> exact ⟨hl, hf, hout⟩
  | reporting cpu => exact ⟨hl, hf, hout⟩
  | terminating cpu =>
    simp only [Client.step]
    rcases hsend [termReq] (.inr rfl) with ⟨s', h, hf', hout'⟩ | h <;> rw [h]
    · exact ⟨hl, hf', hout'⟩
    · exact ⟨hl, hf, hout⟩
  | exited e => exact ⟨hl, hf, hout⟩
  | stopped e => exact ⟨hl, hf, hout⟩

theorem Client.Shape.run (hint : cfg.msgSize + 4 ≤ intMax) :
    ∀ (k : Nat) {c : Client}, Client.Shape cfg c → Client.Shape cfg (Client.run cfg k c)
  | 0, _, h => h
  | k + 1, _, h => Client.Shape.run hint k (h.step cfg hint)

@[simp] theorem length_initMsg (n : Nat) : (initMsg n).length = n := by simp [initMsg]

/-! ### Streams of copies of one message -/

theorem length_frames_replicate (m : List UInt8) (s : Nat) :
    (frames (List.replicate s m)).length = s * (m.length + 4) := by
  induction s with
  | zero => simp [frames]
  | succ s ih =>
    rw [List.replicate_succ, frames, List.length_append, ih, length_frame, Nat.succ_mul,
      Nat.add_comm]

theorem frames_replicate_drop (m : List UInt8) {r s : Nat} (h : r ≤ s) :
    (frames (List.replicate s m)).drop (r * (m.length + 4)) =
      frames (List.replicate (s - r) m) := by
  conv_lhs => rw [show s = r + (s - r) by omega, List.replicate_add, frames_append]
  exact List.drop_left' (length_frames_replicate m r)

/-- A prefix of `a ++ w` holds `a` whole, or is a shorter prefix of `a`. -/
theorem prefix_append_cases {l a w : List UInt8} (h : l <+: a ++ w) :
    l = a ++ l.drop a.length ∨ (l <+: a ∧ l.length < a.length) := by
  by_cases hl : a.length ≤ l.length
  · left
    have ht : l.take a.length = a := by
      rw [List.prefix_iff_eq_take.mp h, List.take_take, Nat.min_eq_left hl, List.take_left' rfl]
    conv_lhs => rw [← List.take_append_drop a.length l, ht]
  · right
    rw [List.prefix_iff_eq_take.mp h, List.take_append_of_le_length (by omega)]
    exact ⟨List.take_prefix _ _, by simp; omega⟩

theorem prefix_append_drop {x m : List UInt8} (h : x <+: m) : x ++ m.drop x.length = m := by
  obtain ⟨t, rfl⟩ := h
  rw [List.drop_left' rfl]

/-- **`breceive` on what may be a frame.** On a stream that is a prefix of the frame of a
message that fits the buffer followed by anything, `breceive` returns the message whole
when the stream holds its frame,
or `-1` with `EAGAIN` on an `EAGAIN` answer to its first call, or, when the stream ends
inside the frame, `0` with a prefix of the message stored; or the schedule runs out. -/
theorem breceive_prefix_frame {m rest w : List UInt8} {cap : Nat} {sched : List Answer}
    (hm0 : 0 < m.length) (hm : m.length ≤ cap) (hint : m.length ≤ intMax)
    (hR : rest <+: frame m ++ w) (hf : Answer.fail ∉ sched) :
    (∃ s', breceive cap sched rest = .ok (.pos m.length, s', rest.drop (frame m).length, m) ∧
      s' <:+ sched ∧ frame m <+: rest) ∨
    (∃ s', sched = .again :: s' ∧ breceive cap sched rest = .ok (.again, s', rest, [])) ∨
    (∃ s' x, breceive cap sched rest = .ok (.zero, s', [], x) ∧ x <+: m ∧
      rest.length < (frame m).length) ∨
    breceive cap sched rest = .error .blocked := by
  rcases prefix_append_cases hR with hfull | ⟨hpart, hlt⟩
  · rw [hfull]
    rcases breceive_frame (rest.drop (frame m).length) hm0 hm hint hf with
      ⟨s', h, hs, -⟩ | ⟨s', rfl, h⟩ | ⟨h, -⟩
    · exact .inl ⟨s', by rw [h, List.drop_left' rfl], hs, List.prefix_append _ _⟩
    · exact .inr (.inl ⟨s', rfl, h⟩)
    · exact .inr (.inr (.inr h))
  · rcases breceive_short_frame hm hint hpart hlt hf with h | h | ⟨s', x, h, hx⟩
    · exact .inr (.inr (.inr h))
    · exact .inr (.inl h)
    · exact .inr (.inr (.inl ⟨s', x, h, hx, hlt⟩))

theorem initMsg_headD {n : Nat} (h : 0 < n) : (initMsg n).headD 0 = reflectReq := by
  obtain ⟨k, rfl⟩ : ∃ k, n = k + 1 := ⟨n - 1, by omega⟩
  rfl

end Xcm.Pong
