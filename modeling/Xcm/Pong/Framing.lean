import Xcm.Pong.Stream

/-!
# Framing Round Trip

Messages sent by successive `bsend` calls come out of successive `breceive` calls
whole, in order and each with its length, however the transport splits the stream into
the chunks `xcm_send` takes and `xcm_receive` delivers, the 4-byte header included
(`framing_roundtrip`). This holds as long as a frame, header included, fits an `int`:
both loops count bytes in an `int`, and for a message of `2 ^ 31 - 4` bytes or more,
though its length fits the header, `bsend` never returns `0` without counting past
`INT_MAX` first (`bsend_ne_ok_of_long`), and it does count past it once the transport has
taken `INT_MAX` bytes (`bsend_overflows`).

The proof follows the calls: `receive_chunk` reads exactly the bytes it lacks
(`receiveChunk_spec`), so `breceive` reads exactly one frame (`breceive_frame`), and
by induction over the messages the receiving loop returns a prefix of them
(`receiveMsgs_frames`); on the other side `bsend`'s loop appends exactly its buffer
(`bsendLoop_spec`). Each of these also bounds the calls used, one per byte that takes
bytes, which gives the liveness half: a transport that never blocks delivers every
message.

## Main results

* `framing_roundtrip`: the round trip, for messages of `1` to `2 ^ 31 - 5` bytes.
* `bsend_ne_ok_of_long`, `bsend_overflows`: the bound is needed; past it `sent += rc`
  overflows.
* `breceive_oversize`: a message longer than the receiver's buffer is refused with
  `EMSGSIZE` after its header, and its bytes are left in the stream.
-/

namespace Xcm.Pong

/-! ### One call -/

theorem xcmReceive_take {len avail k : Nat} (hl : 0 < len) (ha : 0 < avail) :
    xcmReceive len avail (.take k) = .pos (min (k + 1) (min len (min avail intMax))) := by
  simp [xcmReceive, Nat.pos_iff_ne_zero.mp hl, Nat.pos_iff_ne_zero.mp ha]

theorem xcmSend_take {len k : Nat} (hl : 0 < len) :
    xcmSend len (.take k) = .pos (min (k + 1) (min len intMax)) := by
  simp [xcmSend, Nat.pos_iff_ne_zero.mp hl]

theorem receiveChunk_again {size received : Nat} {sched : List Answer}
    {rest chunk : List UInt8} :
    receiveChunk size received (.again :: sched) rest chunk =
      receiveChunk size received sched rest chunk := by
  simp [receiveChunk, xcmReceive]

theorem receiveChunk_take {size received k : Nat} {sched : List Answer}
    {rest chunk : List UInt8} (hlt : received < size) (hr : 0 < rest.length)
    (hsz : size ≤ intMax) :
    receiveChunk size received (.take k :: sched) rest chunk =
      let n := min (k + 1) (min (size - received) (min rest.length intMax))
      if received + n < size then
        receiveChunk size (received + n) sched (rest.drop n) (chunk ++ rest.take n)
      else .ok (.pos (received + n), sched, rest.drop n, chunk ++ rest.take n) := by
  rw [receiveChunk, xcmReceive_take (by omega) hr]
  simp only
  rw [if_neg (by omega)]

/-- **`receive_chunk` reads exactly its chunk.** From a stream that begins with the
`data` the chunk still lacks, it stores that data after what it has and leaves the
stream after it, without overflowing its counter, or the schedule runs out before it has
made one call per missing byte that takes bytes. -/
theorem receiveChunk_spec {size : Nat} (hsize : size ≤ intMax) :
    ∀ (sched : List Answer) (received : Nat) (data tail chunk : List UInt8),
      Answer.fail ∉ sched → 0 < data.length → received + data.length = size →
      (∃ s', receiveChunk size received sched (data ++ tail) chunk =
          .ok (.pos size, s', tail, chunk ++ data) ∧ s' <:+ sched ∧
          sched.countP Answer.isTake ≤ s'.countP Answer.isTake + data.length) ∨
      (receiveChunk size received sched (data ++ tail) chunk = .error .blocked ∧
        sched.countP Answer.isTake < data.length) := by
  intro sched
  induction sched with
  | nil => intro _ _ _ _ _ hd _; exact .inr ⟨rfl, hd⟩
  | cons a s ih =>
    intro received data tail chunk hf hd hsz
    have hf' : Answer.fail ∉ s := fun h => hf (List.mem_cons_of_mem _ h)
    cases a with
    | fail => exact absurd (List.mem_cons_self _ _) hf
    | again =>
      rw [receiveChunk_again]
      rcases ih received data tail chunk hf' hd hsz with ⟨s', h, hsuf, hc⟩ | ⟨h, hc⟩
      · exact .inl ⟨s', h, hsuf.trans (List.suffix_cons _ _),
          by simpa [Answer.isTake] using hc⟩
      · exact .inr ⟨h, by simpa [Answer.isTake] using hc⟩
    | take k =>
      rw [receiveChunk_take (by omega) (by simp; omega) hsize]
      simp only [List.length_append]
      set n := min (k + 1) (min (size - received) (min (data.length + tail.length) intMax))
      have hn : 0 < n ∧ n ≤ data.length := by omega
      rw [List.take_append_of_le_length hn.2, List.drop_append_of_le_length hn.2]
      have hcount : (Answer.take k :: s).countP Answer.isTake = s.countP Answer.isTake + 1 := by
        simp [Answer.isTake]
      split_ifs with hlt
      · rcases ih (received + n) (data.drop n) tail (chunk ++ data.take n) hf' (by simp; omega)
          (by simp; omega) with ⟨s', h, hsuf, hc⟩ | ⟨h, hc⟩
        · refine .inl ⟨s', by rw [h, List.append_assoc, List.take_append_drop], hsuf.trans
            (List.suffix_cons _ _), ?_⟩
          simp only [List.length_drop] at hc; omega
        · refine .inr ⟨h, ?_⟩
          simp only [List.length_drop] at hc; omega
      · have hnd : n = data.length := by omega
        rw [hnd, List.take_length, List.drop_length, List.nil_append]
        exact .inl ⟨s, by rw [show received + data.length = size by omega], List.suffix_cons _ _,
          by omega⟩

/-! ### The receiving side -/

variable {m tail : List UInt8} {cap : Nat} {sched : List Answer}

@[simp] theorem length_frame : (frame m).length = m.length + 4 := by
  simp [frame, Nat.add_comm]

/-- `be32toh` of the header `htobe32` stored gives the length back. -/
theorem unle_header (h : m.length ≤ intMax) :
    Buf.unle (Buf.le 4 m.length).reverse.reverse = m.length := by
  rw [List.reverse_reverse, Buf.unle_le, Nat.mod_eq_of_lt]
  unfold intMax at h; omega

variable (tail) in
/-- The body of a frame whose header has been read. -/
theorem receiveBody_spec (hm : 0 < m.length) (hcap : m.length ≤ cap)
    (hint : m.length ≤ intMax) (hf : Answer.fail ∉ sched) :
    (∃ s', receiveBody cap (Buf.le 4 m.length).reverse sched (m ++ tail) =
        .ok (.pos m.length, s', tail, m) ∧ s' <:+ sched ∧
        sched.countP Answer.isTake ≤ s'.countP Answer.isTake + m.length) ∨
    (receiveBody cap (Buf.le 4 m.length).reverse sched (m ++ tail) = .error .blocked ∧
      sched.countP Answer.isTake < m.length) := by
  unfold receiveBody
  simp only [unle_header hint, if_neg (Nat.not_lt.mpr hcap)]
  rcases receiveChunk_spec hint sched 0 m tail [] hf hm (Nat.zero_add _) with
    ⟨s', h, hs, hc⟩ | ⟨h, hc⟩
  · exact .inl ⟨s', by rw [h]; rfl, hs, hc⟩
  · exact .inr ⟨by rw [h], hc⟩

variable (tail) in
/-- **`breceive` reads the header whole.** From a stream that begins with a 4-byte header,
it reads exactly the header, with at most one call that takes bytes per byte of it, and
goes on with the body; or it returns `-1` with `EAGAIN`, having read nothing, on an
`EAGAIN` answer to its first call; or the schedule runs out. -/
theorem breceive_header {hdr : List UInt8} (hlen : hdr.length = 4) (hf : Answer.fail ∉ sched) :
    (∃ s', s' <:+ sched ∧ sched.countP Answer.isTake ≤ s'.countP Answer.isTake + 4 ∧
        breceive cap sched (hdr ++ tail) = receiveBody cap hdr s' tail) ∨
    (∃ s', sched = .again :: s' ∧
        breceive cap sched (hdr ++ tail) = .ok (.again, s', hdr ++ tail, [])) ∨
    (breceive cap sched (hdr ++ tail) = .error .blocked ∧ sched.countP Answer.isTake < 4) := by
  rcases sched with _ | ⟨a, s⟩
  · exact .inr (.inr ⟨rfl, by simp⟩)
  have hf' : Answer.fail ∉ s := fun h => hf (List.mem_cons_of_mem _ h)
  have hcount : (a :: s).countP Answer.isTake ≤ s.countP Answer.isTake + 1 := by
    rw [List.countP_cons]; split <;> omega
  cases a with
  | fail => exact absurd (List.mem_cons_self _ _) hf
  | again => exact .inr (.inl ⟨s, rfl, by simp [breceive, xcmReceive]⟩)
  | take k =>
    rw [breceive, xcmReceive_take (by decide) (by simp only [List.length_append, hlen]; omega)]
    simp only [List.length_append, hlen]
    have hpos : 0 < intMax := by decide
    set n := min (k + 1) (min 4 (min (4 + tail.length) intMax))
    have hn : 0 < n ∧ n ≤ 4 := by omega
    rw [List.take_append_of_le_length (hlen ▸ hn.2),
      List.drop_append_of_le_length (hlen ▸ hn.2)]
    split_ifs with h4
    · rcases receiveChunk_spec (show 4 - n ≤ intMax by unfold intMax; omega) s 0 (hdr.drop n)
        tail (hdr.take n) hf' (by simp [hlen]; omega) (by simp [hlen]) with
        ⟨s', h, hs, hc⟩ | ⟨h, hc⟩
      · rw [h, List.take_append_drop]
        simp only [List.length_drop, hlen] at hc
        exact .inl ⟨s', hs.trans (List.suffix_cons _ _), by omega, rfl⟩
      · rw [h]
        simp only [List.length_drop, hlen] at hc
        exact .inr (.inr ⟨rfl, by omega⟩)
    · have hn4 : n = 4 := by omega
      rw [hn4, List.take_of_length_le hlen.le, List.drop_of_length_le hlen.le, List.nil_append]
      exact .inl ⟨s, List.suffix_cons _ _, by omega, rfl⟩

theorem frame_append : frame m ++ tail = (Buf.le 4 m.length).reverse ++ (m ++ tail) := by
  simp [frame]

theorem length_header : (Buf.le 4 m.length).reverse.length = 4 := by simp

variable (tail) in
/-- **`breceive` reads exactly one frame.** From a stream that begins with the frame of a
message no longer than `capacity` nor `INT_MAX`, it returns the message's length with
the message in the buffer and leaves the stream after the frame; or it returns `-1` with
`EAGAIN`, having read nothing, on an `EAGAIN` answer to its first call; or the schedule
runs out before it has made one call per byte of the frame that takes bytes. -/
theorem breceive_frame (hm : 0 < m.length) (hcap : m.length ≤ cap) (hint : m.length ≤ intMax)
    (hf : Answer.fail ∉ sched) :
    (∃ s', breceive cap sched (frame m ++ tail) = .ok (.pos m.length, s', tail, m) ∧
        s' <:+ sched ∧
        sched.countP Answer.isTake ≤ s'.countP Answer.isTake + (frame m).length) ∨
    (∃ s', sched = .again :: s' ∧
        breceive cap sched (frame m ++ tail) = .ok (.again, s', frame m ++ tail, [])) ∨
    (breceive cap sched (frame m ++ tail) = .error .blocked ∧
      sched.countP Answer.isTake < (frame m).length) := by
  rw [frame_append, length_frame]
  rcases breceive_header (m ++ tail) length_header hf with ⟨s', hs, hc, h⟩ | h | ⟨h, hc⟩
  · rw [h]
    rcases receiveBody_spec tail hm hcap hint fun h => hf (hs.subset h) with
      ⟨s'', h', hs', hc'⟩ | ⟨h', hc'⟩
    · exact .inl ⟨s'', h', hs'.trans hs, by omega⟩
    · exact .inr (.inr ⟨h', by omega⟩)
  · exact .inr (.inl h)
  · exact .inr (.inr ⟨h, by omega⟩)

variable (tail) in
/-- **A message longer than the buffer is refused.** From a stream that begins with its
frame, `breceive` reads the header and returns `-1` (`EMSGSIZE`), storing nothing and
leaving the message in the stream; or it returns `-1` with `EAGAIN` on an `EAGAIN` answer
to its first call; or the schedule runs out. -/
theorem breceive_oversize (hcap : cap < m.length) (hint : m.length ≤ intMax)
    (hf : Answer.fail ∉ sched) :
    (∃ s', breceive cap sched (frame m ++ tail) = .ok (.fail, s', m ++ tail, []) ∧
      s' <:+ sched) ∨
    (∃ s', sched = .again :: s' ∧
      breceive cap sched (frame m ++ tail) = .ok (.again, s', frame m ++ tail, [])) ∨
    breceive cap sched (frame m ++ tail) = .error .blocked := by
  rw [frame_append]
  rcases breceive_header (m ++ tail) length_header hf with ⟨s', hs, -, h⟩ | h | ⟨h, -⟩
  · refine .inl ⟨s', ?_, hs⟩
    rw [h, receiveBody, unle_header hint, if_pos hcap]
  · exact .inr (.inl h)
  · exact .inr (.inr h)

/-- A two-byte message offered to a one-byte buffer by a transport that delivers it at
once. -/
theorem two_bytes_refused : (1 : Nat) < ([1, 2] : List UInt8).length ∧
    ([1, 2] : List UInt8).length ≤ intMax ∧ Answer.fail ∉ [Answer.take 9] ∧
    ((∃ s', breceive 1 [.take 9] (frame [1, 2] ++ []) = .ok (.fail, s', [1, 2] ++ [], []) ∧
      s' <:+ [.take 9]) ∨
    (∃ s', [Answer.take 9] = .again :: s' ∧
      breceive 1 [.take 9] (frame [1, 2] ++ []) = .ok (.again, s', frame [1, 2] ++ [], [])) ∨
    breceive 1 [.take 9] (frame [1, 2] ++ []) = .error .blocked) :=
  ⟨by decide, by decide, by decide, breceive_oversize [] (by decide) (by decide) (by decide)⟩

variable (cap) in
/-- At the end of the stream `breceive` returns `0`, or `-1` with `EAGAIN`, or waits. -/
theorem breceive_nil (hf : Answer.fail ∉ sched) :
    breceive cap sched [] = .error .blocked ∨
    (∃ s', sched = .again :: s' ∧ breceive cap sched [] = .ok (.again, s', [], [])) ∨
    ∃ s', breceive cap sched [] = .ok (.zero, s', [], []) := by
  rcases sched with _ | ⟨a, s⟩
  · exact .inl rfl
  cases a with
  | fail => exact absurd (List.mem_cons_self _ _) hf
  | again => exact .inr (.inl ⟨s, rfl, rfl⟩)
  | take k => exact .inr (.inr ⟨s, by simp [breceive, xcmReceive]⟩)

/-- **The receiving side.** Successive `breceive` calls on the frames of messages that fit
the buffer and an `int` return the messages, in order, each with its length: what any
number of calls returns is a prefix of the messages. A transport that never blocks and
answers at least once per byte delivers all of them. -/
theorem receiveMsgs_frames : ∀ (k : Nat) (ms : List (List UInt8)) (sched : List Answer),
    (∀ m ∈ ms, 0 < m.length ∧ m.length ≤ cap ∧ m.length ≤ intMax) →
    Answer.fail ∉ sched →
    receiveMsgs cap k sched (frames ms) <+: ms.map (fun m => (m.length, m)) ∧
    ((∀ a ∈ sched, a.isTake) → (frames ms).length ≤ sched.length → ms.length ≤ k →
      receiveMsgs cap k sched (frames ms) = ms.map (fun m => (m.length, m))) := by
  intro k
  induction k with
  | zero =>
    intro ms _ _ _
    refine ⟨List.nil_prefix, fun _ _ hk => ?_⟩
    rw [List.length_eq_zero.mp (Nat.le_zero.mp hk)]; rfl
  | succ k ih =>
    intro ms sched hms hf
    rcases ms with _ | ⟨m, ms⟩
    · rcases breceive_nil cap hf with h | ⟨s', rfl, h⟩ | ⟨s', h⟩
      · simp [receiveMsgs, frames, h]
      · have := (ih [] s' (by simp) fun h' => hf (List.mem_cons_of_mem _ h')).1
        simp only [receiveMsgs, frames, h] at this ⊢
        exact ⟨this, fun ht => absurd (ht _ (List.mem_cons_self _ _)) (by decide)⟩
      · simp [receiveMsgs, frames, h]
    · obtain ⟨hm, hcap, hint⟩ := hms m (List.mem_cons_self _ _)
      have hms' : ∀ m ∈ ms, 0 < m.length ∧ m.length ≤ cap ∧ m.length ≤ intMax :=
        fun m' h' => hms m' (List.mem_cons_of_mem _ h')
      rcases breceive_frame (frames ms) hm hcap hint hf with
        ⟨s', h, hs, hc⟩ | ⟨s', rfl, h⟩ | ⟨h, hc⟩
      · have hf' : Answer.fail ∉ s' := fun h' => hf (hs.subset h')
        obtain ⟨ihp, ihl⟩ := ih ms s' hms' hf'
        simp only [receiveMsgs, frames, h, List.map_cons]
        refine ⟨List.cons_prefix_cons.mpr ⟨rfl, ihp⟩, fun ht hlen hk => ?_⟩
        have hct : sched.countP Answer.isTake = sched.length := List.countP_eq_length.mpr ht
        rw [ihl (fun a ha => ht a (hs.subset ha)) ?_ (by simp at hk; omega)]
        have : s'.countP Answer.isTake ≤ s'.length := List.countP_le_length _
        simp only [frames, List.length_append] at hlen
        omega
      · obtain ⟨ihp, -⟩ := ih (m :: ms) s' hms fun h' => hf (List.mem_cons_of_mem _ h')
        simp only [frames] at ihp
        simp only [receiveMsgs, frames, h]
        exact ⟨ihp, fun ht => absurd (ht _ (List.mem_cons_self _ _)) (by decide)⟩
      · simp only [receiveMsgs, frames, h]
        refine ⟨List.nil_prefix, fun ht hlen _ => ?_⟩
        have hct : sched.countP Answer.isTake = sched.length := List.countP_eq_length.mpr ht
        simp only [List.length_append] at hlen
        omega

/-! ### The sending side -/

section Send

variable {buf : List UInt8} {sent : Nat} {out : List UInt8}

theorem bsendLoop_again :
    bsendLoop buf sent (.again :: sched) out = bsendLoop buf sent sched out := by
  simp [bsendLoop, xcmSend]

theorem bsendLoop_take {k : Nat} (hlt : sent < buf.length) :
    bsendLoop buf sent (.take k :: sched) out =
      let n := min (k + 1) (min (buf.length - sent) intMax)
      if intMax < sent + n then .error .overflow
      else if sent + n < buf.length then
        bsendLoop buf (sent + n) sched (out ++ (buf.drop sent).take n)
      else .ok (true, sched, out ++ (buf.drop sent).take n) := by
  rw [bsendLoop, xcmSend_take (by omega)]

/-- **`bsend`'s loop sends exactly the rest of its buffer** when the buffer's length fits
an `int`: it appends that rest to the stream and returns `0`, or the schedule runs out
before it has made one call per byte left that takes bytes. -/
theorem bsendLoop_spec (hb : buf.length ≤ intMax) :
    ∀ (sched : List Answer) (sent : Nat) (out : List UInt8), Answer.fail ∉ sched →
      sent < buf.length →
      (∃ s', bsendLoop buf sent sched out = .ok (true, s', out ++ buf.drop sent) ∧
          s' <:+ sched ∧
          sched.countP Answer.isTake ≤ s'.countP Answer.isTake + (buf.length - sent)) ∨
      (bsendLoop buf sent sched out = .error .blocked ∧
        sched.countP Answer.isTake < buf.length - sent) := by
  intro sched
  induction sched with
  | nil => intro _ _ _ hlt; exact .inr ⟨rfl, by simp; omega⟩
  | cons a s ih =>
    intro sent out hf hlt
    have hf' : Answer.fail ∉ s := fun h => hf (List.mem_cons_of_mem _ h)
    cases a with
    | fail => exact absurd (List.mem_cons_self _ _) hf
    | again =>
      rw [bsendLoop_again]
      rcases ih sent out hf' hlt with ⟨s', h, hsuf, hc⟩ | ⟨h, hc⟩
      · exact .inl ⟨s', h, hsuf.trans (List.suffix_cons _ _),
          by simpa [Answer.isTake] using hc⟩
      · exact .inr ⟨h, by simpa [Answer.isTake] using hc⟩
    | take k =>
      rw [bsendLoop_take hlt]
      set n := min (k + 1) (min (buf.length - sent) intMax)
      have hn : 0 < n ∧ sent + n ≤ buf.length := by omega
      have hcount : (Answer.take k :: s).countP Answer.isTake = s.countP Answer.isTake + 1 := by
        simp [Answer.isTake]
      simp only [if_neg (show ¬ intMax < sent + n by omega)]
      split_ifs with hlt'
      · rcases ih (sent + n) (out ++ (buf.drop sent).take n) hf' hlt' with
          ⟨s', h, hsuf, hc⟩ | ⟨h, hc⟩
        · refine .inl ⟨s', ?_, hsuf.trans (List.suffix_cons _ _), by omega⟩
          rw [h, List.append_assoc, ← List.drop_drop, List.take_append_drop]
        · exact .inr ⟨h, by omega⟩
      · refine .inl ⟨s, ?_, List.suffix_cons _ _, by omega⟩
        rw [List.take_of_length_le (by simp; omega)]

/-- A buffer longer than `INT_MAX` is never sent: the loop's `int` counter would have to
pass `INT_MAX`. -/
theorem bsendLoop_ne_ok_of_lt (hb : intMax < buf.length) :
    ∀ (sched : List Answer) (sent : Nat) (out : List UInt8) (s' : List Answer)
      (out' : List UInt8), bsendLoop buf sent sched out ≠ .ok (true, s', out') := by
  intro sched
  induction sched with
  | nil => intro _ _ _ _ h; cases h
  | cons a s ih =>
    intro sent out s' out' h
    cases a with
    | fail => simp [bsendLoop, xcmSend] at h
    | again => rw [bsendLoop_again] at h; exact ih _ _ _ _ h
    | take k =>
      by_cases hlt : sent < buf.length
      · rw [bsendLoop_take hlt] at h
        simp only at h
        split_ifs at h with h1 h2
        · exact ih _ _ _ _ h
        · cases h; omega
      · simp [bsendLoop, xcmSend, show buf.length - sent = 0 by omega] at h

/-- The bytes the answer lets a call of `xcm_send` take from a buffer longer than
`INT_MAX`: `k + 1` for `take k`, as far as an `int` counts them, and none for the others. -/
def Answer.room : Answer → Nat
  | .take k => min (k + 1) intMax
  | _ => 0

/-- The bytes a whole schedule lets `xcm_send` take, each answer counted by `Answer.room`. -/
def Answer.totalRoom : List Answer → Nat
  | [] => 0
  | a :: as => a.room + Answer.totalRoom as

/-- On a buffer longer than `INT_MAX`, the loop's counter overflows once the answers have
let the transport take more than `INT_MAX` bytes, if no call fails on the way. -/
theorem bsendLoop_overflow (hb : intMax < buf.length) :
    ∀ (sched : List Answer) (sent : Nat) (out : List UInt8), Answer.fail ∉ sched →
      sent ≤ intMax → intMax < sent + Answer.totalRoom sched →
      bsendLoop buf sent sched out = .error .overflow
  | [], _, _, _, _, hk => by simp only [Answer.totalRoom] at hk; omega
  | .fail :: _, _, _, hf, _, _ => absurd (List.mem_cons_self _ _) hf
  | .again :: s, sent, out, hf, hs, hk => by
    rw [bsendLoop_again]
    exact bsendLoop_overflow hb s sent out (List.not_mem_of_not_mem_cons hf) hs
      (by simpa only [Answer.totalRoom, Answer.room, Nat.zero_add] using hk)
  | .take k :: s, sent, out, hf, hs, hk => by
    rw [bsendLoop_take (by omega)]
    simp only [Answer.totalRoom, Answer.room] at hk
    dsimp only
    split_ifs with h1 h2
    · rfl
    · exact bsendLoop_overflow hb s _ _ (List.not_mem_of_not_mem_cons hf) (by omega) (by omega)
    · omega

end Send

/-- **`bsend` counts past `INT_MAX` on a long message.** For a message of `2 ^ 31 - 4` bytes
or more, whose frame is longer than `INT_MAX`, under every schedule of the transport that
makes no call fail and lets it take more than `INT_MAX` bytes in all, `bsend` reaches the
signed overflow of `sent += rc`, undefined behaviour, before it returns. -/
theorem bsend_overflows {m : List UInt8} (hm : 2 ^ 31 - 4 ≤ m.length) {sched : List Answer}
    (hf : Answer.fail ∉ sched) (hk : intMax < Answer.totalRoom sched) (out : List UInt8) :
    bsend m sched out = .error .overflow :=
  bsendLoop_overflow (by rw [length_frame]; unfold intMax; omega) sched 0 out hf (Nat.zero_le _)
    (by omega)

/-- The shortest message that overflows: `2 ^ 31 - 4` bytes, of whose frame the transport
takes `INT_MAX` bytes at once and then one more. -/
theorem shortest_message_overflows :
    2 ^ 31 - 4 ≤ (List.replicate (2 ^ 31 - 4) (0 : UInt8)).length ∧
    Answer.fail ∉ [Answer.take (2 ^ 31), .take 0] ∧
    intMax < Answer.totalRoom [.take (2 ^ 31), .take 0] ∧
    bsend (List.replicate (2 ^ 31 - 4) 0) [.take (2 ^ 31), .take 0] [] = .error .overflow :=
  ⟨(List.length_replicate _ _).ge, by decide, by decide,
    bsend_overflows (List.length_replicate _ _).ge (by decide) (by decide) []⟩

/-- **The sending side.** Successive `bsend` calls on messages whose frames fit an
`int` append their frames to the stream, in order, and all return `0`, or the schedule
runs out before they have made one call per byte that takes bytes. -/
theorem bsendAll_frames : ∀ (ms : List (List UInt8)) (sched : List Answer) (out : List UInt8),
    (∀ m ∈ ms, m.length + 4 ≤ intMax) → Answer.fail ∉ sched →
    (∃ s', bsendAll ms sched out = .ok (true, s', out ++ frames ms) ∧ s' <:+ sched ∧
        sched.countP Answer.isTake ≤ s'.countP Answer.isTake + (frames ms).length) ∨
    (bsendAll ms sched out = .error .blocked ∧
      sched.countP Answer.isTake < (frames ms).length) := by
  intro ms
  induction ms with
  | nil =>
    intro sched out _ _
    exact .inl ⟨sched, by simp [bsendAll, frames], List.suffix_refl _, by simp⟩
  | cons m ms ih =>
    intro sched out hms hf
    have hm : (frame m).length ≤ intMax := by simpa using hms m (List.mem_cons_self _ _)
    rcases bsendLoop_spec hm sched 0 out hf
        (by simp) with ⟨s', h, hs, hc⟩ | ⟨h, hc⟩
    · rcases ih s' (out ++ frame m) (fun m' h' => hms m' (List.mem_cons_of_mem _ h'))
          (fun h' => hf (hs.subset h')) with ⟨s'', h', hs', hc'⟩ | ⟨h', hc'⟩
      · refine .inl ⟨s'', ?_, hs'.trans hs,
          by simp only [frames, List.length_append] at *; omega⟩
        rw [bsendAll, bsend, h]
        simpa [frames] using h'
      · refine .inr ⟨?_, by simp only [frames, List.length_append] at *; omega⟩
        rw [bsendAll, bsend, h]
        simpa using h'
    · refine .inr ⟨by rw [bsendAll, bsend, h],
        by simp only [frames, List.length_append] at *; omega⟩

/-- **No message of `2 ^ 31 - 4` bytes or more is ever sent** without a signed overflow
first: its frame is longer than `INT_MAX`, so under no schedule of the transport does
`bsend` return `0` before `sent` would pass `INT_MAX`. -/
theorem bsend_ne_ok_of_long {m : List UInt8} (hm : 2 ^ 31 - 4 ≤ m.length)
    (sched : List Answer) (out : List UInt8) (s' : List Answer) (out' : List UInt8) :
    bsend m sched out ≠ .ok (true, s', out') :=
  bsendLoop_ne_ok_of_lt (by rw [length_frame]; unfold intMax; omega) sched 0 out s' out'

/-- The shortest message that is never sent. -/
theorem shortest_unsendable : 2 ^ 31 - 4 ≤ (List.replicate (2 ^ 31 - 4) (0 : UInt8)).length ∧
    ∀ (sched : List Answer) (out : List UInt8) (s' : List Answer) (out' : List UInt8),
      bsend (List.replicate (2 ^ 31 - 4) 0) sched out ≠ .ok (true, s', out') :=
  ⟨(List.length_replicate _ _).ge, bsend_ne_ok_of_long (List.length_replicate _ _).ge⟩

/-- **Framing round trip.** For messages `m₁ … mₖ` of `1` to `2 ^ 31 - 5` bytes that fit
the receiver's buffer, and every schedule of the transport that makes no call fail with
an error other than `EAGAIN`, whatever chunks it takes and delivers:
successive `bsend` calls append exactly the frames of the messages to the stream, in
order, and all return `0`, or are still waiting; a sender's transport that never blocks
and answers at least once per byte lets them finish; successive `breceive` calls on
that stream return the messages in order, each with its length, with nothing lost,
repeated or out of step (any number of calls returns a prefix of them); and a
receiver's transport that never blocks and answers at least once per byte delivers all
of them. -/
theorem framing_roundtrip {ms : List (List UInt8)} {cap : Nat} {ssched rsched : List Answer}
    (hms : ∀ m ∈ ms, 0 < m.length ∧ m.length ≤ cap ∧ m.length + 4 ≤ intMax)
    (hs : Answer.fail ∉ ssched) (hr : Answer.fail ∉ rsched) :
    (bsendAll ms ssched [] = .error .blocked ∨
      ∃ s', bsendAll ms ssched [] = .ok (true, s', frames ms)) ∧
    ((∀ a ∈ ssched, a.isTake) → (frames ms).length ≤ ssched.length →
      ∃ s', bsendAll ms ssched [] = .ok (true, s', frames ms)) ∧
    (∀ k, receiveMsgs cap k rsched (frames ms) <+: ms.map fun m => (m.length, m)) ∧
    ((∀ a ∈ rsched, a.isTake) → (frames ms).length ≤ rsched.length →
      ∀ k, ms.length ≤ k →
        receiveMsgs cap k rsched (frames ms) = ms.map fun m => (m.length, m)) := by
  have hsend := bsendAll_frames ms ssched [] (fun m h => (hms m h).2.2) hs
  have hrecv := fun k => receiveMsgs_frames k ms rsched
    (fun m h => ⟨(hms m h).1, (hms m h).2.1, by have := (hms m h).2.2; omega⟩) hr
  refine ⟨?_, fun ht hl => ?_, fun k => (hrecv k).1, fun ht hl k hk => (hrecv k).2 ht hl hk⟩
  · rcases hsend with ⟨s', h, -⟩ | ⟨h, -⟩
    · exact .inr ⟨s', by simpa using h⟩
    · exact .inl h
  · rcases hsend with ⟨s', h, -⟩ | ⟨-, hc⟩
    · exact ⟨s', by simpa using h⟩
    · have := List.countP_eq_length.mpr ht; omega

/-- A message of two bytes goes through a transport that takes one byte and then the
rest, and delivers after one `EAGAIN`. -/
theorem two_byte_roundtrip :
    (∀ m ∈ [[(1 : UInt8), 2]], 0 < m.length ∧ m.length ≤ 2 ∧ m.length + 4 ≤ intMax) ∧
    Answer.fail ∉ [Answer.take 0, .take 9] ∧
    Answer.fail ∉ [Answer.again, .take 0, .take 9] ∧
    (bsendAll [[1, 2]] [.take 0, .take 9] [] = .error .blocked ∨
      ∃ s', bsendAll [[1, 2]] [.take 0, .take 9] [] = .ok (true, s', frames [[1, 2]])) ∧
    ((∀ a ∈ [Answer.take 0, .take 9], a.isTake) →
      (frames [[1, 2]]).length ≤ [Answer.take 0, .take 9].length →
      ∃ s', bsendAll [[1, 2]] [.take 0, .take 9] [] = .ok (true, s', frames [[1, 2]])) ∧
    (∀ k, receiveMsgs 2 k [.again, .take 0, .take 9] (frames [[1, 2]]) <+:
      [[(1 : UInt8), 2]].map fun m => (m.length, m)) ∧
    ((∀ a ∈ [Answer.again, .take 0, .take 9], a.isTake) →
      (frames [[1, 2]]).length ≤ [Answer.again, .take 0, .take 9].length →
      ∀ k, [[(1 : UInt8), 2]].length ≤ k →
        receiveMsgs 2 k [.again, .take 0, .take 9] (frames [[1, 2]]) =
          [[(1 : UInt8), 2]].map fun m => (m.length, m)) :=
  have hms : ∀ m ∈ [[(1 : UInt8), 2]],
      0 < m.length ∧ m.length ≤ 2 ∧ m.length + 4 ≤ intMax := by
    decide
  ⟨hms, by decide, by decide, framing_roundtrip hms (by decide) (by decide)⟩

end Xcm.Pong
