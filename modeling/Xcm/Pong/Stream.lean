import Xcm.Memory

/-!
# Length-Prefixed Messages over a Byte Stream

`xcmpong` runs over XCM byte-stream transports by framing each message with its length:
`bsend` sends a 4-byte big-endian header and then the message, calling `xcm_send` until
the transport has taken every byte, and `breceive` reads the header and then the
message, calling `xcm_receive` in `receive_chunk` until each is complete.

The connection is a FIFO of bytes, modelled from the transport's contract. `xcm_send`
takes any non-empty prefix of what it is given or fails with `EAGAIN`; `xcm_receive`
returns any non-empty prefix of the bytes that have arrived, up to the size asked for,
fails with `EAGAIN` when none have, and returns `0` at the end of the stream. Both
return an `int`, so neither counts more than `INT_MAX` bytes. Which of these a call does
is the transport's choice, given as a schedule of answers, one for each call; an answer
may also make a call fail with another error. The receiving side reads the bytes the
sending side wrote, from the first on, so a receive that would block is an `EAGAIN`
answer there, whatever the sender is doing at that moment.

A run that uses up its schedule is blocked; a signed overflow of an `int` counter is
undefined behaviour. Both stop the model (`Stop`).
-/

namespace Xcm.Pong

/-- `INT_MAX` on the target. -/
def intMax : Nat := 2 ^ 31 - 1

/-- The transport's answer to one call of `xcm_send` or `xcm_receive`: would block
(`EAGAIN`); take or deliver `k + 1` bytes, or fewer if the call asks for fewer, fewer
have arrived, or an `int` cannot count them; or fail with another error. -/
inductive Answer
  | again
  | take (k : Nat)
  | fail
  deriving DecidableEq, Repr

/-- An answer that takes or delivers bytes. -/
def Answer.isTake : Answer → Bool
  | .take _ => true
  | _ => false

/-- What a call returns, as its caller tests it: `rc > 0`, `rc == 0`, or `rc < 0` with
`errno` `EAGAIN` or another `errno`. -/
inductive Rc
  | pos (n : Nat)
  | zero
  | again
  | fail
  deriving DecidableEq, Repr

/-- Why a run has no result: the transport's schedule ran out while the run waited, or
an `int` counter overflowed, which is undefined behaviour. -/
inductive Stop
  | blocked
  | overflow
  deriving DecidableEq, Repr

/-- Modelled from the transport's contract: `xcm_send(conn, buf, len)` under the
transport's answer. -/
def xcmSend (len : Nat) : Answer → Rc
  | .again => .again
  | .take k => if len = 0 then .zero else .pos (min (k + 1) (min len intMax))
  | .fail => .fail

/-- Modelled from the transport's contract: `xcm_receive(conn, buf, len)` with `avail`
bytes of the stream left to read, under the transport's answer. -/
def xcmReceive (len avail : Nat) : Answer → Rc
  | .again => .again
  | .take k =>
    if len = 0 ∨ avail = 0 then .zero else .pos (min (k + 1) (min len (min avail intMax)))
  | .fail => .fail

/-- The buffer `bsend` sends for the message `m`: `htobe32(msg_size)`, the length
reduced modulo `2 ^ 32` and stored big-endian, then the message. -/
def frame (m : List UInt8) : List UInt8 := (Buf.le 4 m.length).reverse ++ m

/-- The loop of `bsend` from `sent` bytes on, appending what the transport takes to the
stream `out`: `true` for the return value `0`, `false` for `-1`. `sent += rc` is a
signed addition. -/
def bsendLoop (buf : List UInt8) :
    Nat → List Answer → List UInt8 → Except Stop (Bool × List Answer × List UInt8)
  | _, [], _ => .error .blocked
  | sent, a :: sched, out =>
    match xcmSend (buf.length - sent) a with
    | .pos n =>
      if intMax < sent + n then .error .overflow else
      let out := out ++ (buf.drop sent).take n
      if sent + n < buf.length then bsendLoop buf (sent + n) sched out
      else .ok (true, sched, out)
    | .again => bsendLoop buf sent sched out
    | _ => .ok (false, sched, out)

/-- `bsend(conn, msg, msg_size, epoll_fd)`. -/
def bsend (m : List UInt8) (sched : List Answer) (out : List UInt8) :
    Except Stop (Bool × List Answer × List UInt8) :=
  bsendLoop (frame m) 0 sched out

/-- `receive_chunk(conn, chunk, size, epoll_fd)` from `received` bytes on, reading from the
rest `rest` of the stream and appending to `chunk`. It returns `received` once the chunk
is complete, `0` at the end of the stream and `-1` on an error other than `EAGAIN`.
`received += rc` is a signed addition. -/
def receiveChunk (size : Nat) :
    Nat → List Answer → List UInt8 → List UInt8 →
      Except Stop (Rc × List Answer × List UInt8 × List UInt8)
  | _, [], _, _ => .error .blocked
  | received, a :: sched, rest, chunk =>
    match xcmReceive (size - received) rest.length a with
    | .pos n =>
      if intMax < received + n then .error .overflow else
      let chunk := chunk ++ rest.take n
      let rest := rest.drop n
      if received + n < size then receiveChunk size (received + n) sched rest chunk
      else .ok (.pos (received + n), sched, rest, chunk)
    | .zero => .ok (.zero, sched, rest, chunk)
    | .again => receiveChunk size received sched rest chunk
    | .fail => .ok (.fail, sched, rest, chunk)

/-- The rest of `breceive` once the header `nlen` is complete: `be32toh(nlen)` is the
length; one larger than `capacity` fails with `EMSGSIZE`, otherwise the message is read
with `receive_chunk` and the length returned. -/
def receiveBody (cap : Nat) (nlen : List UInt8) (sched : List Answer) (rest : List UInt8) :
    Except Stop (Rc × List Answer × List UInt8 × List UInt8) :=
  let len := Buf.unle nlen.reverse
  if cap < len then .ok (.fail, sched, rest, []) else
  match receiveChunk len 0 sched rest [] with
  | .error s => .error s
  | .ok (.pos _, sched, rest, msg) => .ok (.pos len, sched, rest, msg)
  | .ok (rc, sched, rest, msg) => .ok (rc, sched, rest, msg)

/-- `breceive(conn, msg, capacity, epoll_fd)`: the return value, the rest of the schedule
and of the stream, and the bytes stored in `msg`. The first `xcm_receive` asks for the
whole header; a short one is completed with `receive_chunk`. -/
def breceive (cap : Nat) :
    List Answer → List UInt8 → Except Stop (Rc × List Answer × List UInt8 × List UInt8)
  | [], _ => .error .blocked
  | a :: sched, rest =>
    match xcmReceive 4 rest.length a with
    | .pos n =>
      if n < 4 then
        match receiveChunk (4 - n) 0 sched (rest.drop n) (rest.take n) with
        | .error s => .error s
        | .ok (.pos _, sched, rest, nlen) => receiveBody cap nlen sched rest
        | .ok (rc, sched, rest, _) => .ok (rc, sched, rest, [])
      else receiveBody cap (rest.take n) sched (rest.drop n)
    | rc => .ok (rc, sched, rest, [])

/-- Successive `bsend` calls, one for each message, until one does not return `0`. -/
def bsendAll : List (List UInt8) → List Answer → List UInt8 →
    Except Stop (Bool × List Answer × List UInt8)
  | [], sched, out => .ok (true, sched, out)
  | m :: ms, sched, out =>
    match bsend m sched out with
    | .ok (true, sched, out) => bsendAll ms sched out
    | r => r

/-- Up to `k` successive `breceive` calls, as the receiving loop of `handle_client` makes
them: each message received is kept with the length returned, a call that would block
is made again, and the loop stops at the end of the stream or on another error. -/
def receiveMsgs (cap : Nat) : Nat → List Answer → List UInt8 → List (Nat × List UInt8)
  | 0, _, _ => []
  | k + 1, sched, rest =>
    match breceive cap sched rest with
    | .ok (.pos n, sched, rest, msg) => (n, msg) :: receiveMsgs cap k sched rest
    | .ok (.again, sched, rest, _) => receiveMsgs cap k sched rest
    | _ => []

/-- The stream of the frames of the messages `ms`, in order. -/
def frames : List (List UInt8) → List UInt8
  | [] => []
  | m :: ms => frame m ++ frames ms

end Xcm.Pong
