import Mathlib.Logic.Function.Basic
import Mathlib.Data.List.Range
import Mathlib.Algebra.Group.Nat.Basic

/-!
# Memory as Bytes

The control protocol's messages are C structs whose members overlap (the payload of
`struct ctl_proto_msg` is an anonymous union) and which are sent whole, stale bytes
included. They are therefore modelled at the level of bytes: a `Buf` is the memory of
one object, addressed from its first byte, and every store the code makes (`memcpy`,
`memset`, `strcpy`, an assignment to an integer member) is a `Buf.write` of the bytes
that store lays down. Integers are stored little-endian, as on the x86-64 targets the
library is built for.

## Main results

* `read_write_self`, `read_write_of_apart`: a load sees the last store that covers it,
  and a store elsewhere leaves it alone.
* `write_write_of_length_le`: a store that covers an earlier store to the same place
  erases it. This is the whole of why `clear_attr` removes a key from a response
  (`Xcm.Ctl.Secrecy`).
* `unle_le`: loading back an integer store gives the integer modulo its width.
-/

namespace Xcm

/-- The bytes of one object in memory, addressed from its first byte. -/
abbrev Buf := Nat → UInt8

/-- The object whose bytes are all zero, as `ut_calloc` returns it. -/
def Buf.zeros : Buf := fun _ => 0

namespace Buf

/-- Store `bs` from offset `off`, as `memcpy(b + off, bs, bs.length)` does. -/
def write (b : Buf) (off : Nat) (bs : List UInt8) : Buf :=
  fun i => if off ≤ i ∧ i < off + bs.length then bs.getD (i - off) 0 else b i

/-- The `n` bytes from offset `off`. -/
def read (b : Buf) (off n : Nat) : List UInt8 :=
  (List.range n).map fun k => b (off + k)

/-- `memset(b + off, 0, n)`. -/
def zero (b : Buf) (off n : Nat) : Buf :=
  b.write off (List.replicate n 0)

variable {b : Buf} {off off' n : Nat} {bs bs' : List UInt8}

@[simp] theorem length_read : (b.read off n).length = n := by
  simp [read]

theorem write_apply_of_apart {i : Nat} (h : i < off ∨ off + bs.length ≤ i) :
    b.write off bs i = b i := by
  simp only [write]
  rw [if_neg (by omega)]

/-- A load of exactly the bytes of a store sees the stored bytes. -/
theorem read_write_self : (b.write off bs).read off bs.length = bs := by
  apply List.ext_getElem (by simp)
  intro k hk _
  simp only [read, write, List.getElem_map, List.getElem_range]
  rw [if_pos (by simp at hk; omega)]
  simp [List.getElem?_eq_getElem (by simpa using hk)]

/-- A load that does not overlap a store does not see it. -/
theorem read_write_of_apart (h : off' + n ≤ off ∨ off + bs.length ≤ off') :
    (b.write off bs).read off' n = b.read off' n := by
  simp only [read]
  apply List.map_congr_left
  intro k hk
  rw [List.mem_range] at hk
  exact write_apply_of_apart (by omega)

/-- **A covering store erases an earlier one**: storing `bs'` over a place where `bs`
was stored, at least as far, leaves no trace of `bs`. -/
theorem write_write_of_length_le (h : bs.length ≤ bs'.length) :
    (b.write off bs).write off bs' = b.write off bs' := by
  funext i
  simp only [write]
  split_ifs <;> first | rfl | omega

/-! ### Integers -/

/-- The `w` bytes of `v` stored little-endian, reduced modulo `2 ^ (8 * w)` as a C
store into an unsigned integer of `w` bytes. -/
def le : Nat → Nat → List UInt8
  | 0, _ => []
  | w + 1, v => (v % 256).toUInt8 :: le w (v / 256)

/-- The unsigned integer whose little-endian bytes are `bs`. -/
def unle : List UInt8 → Nat
  | [] => 0
  | x :: xs => x.toNat + 256 * unle xs

@[simp] theorem length_le (w v : Nat) : (le w v).length = w := by
  induction w generalizing v <;> simp [le, *]

theorem unle_le (w v : Nat) : unle (le w v) = v % 256 ^ w := by
  induction w generalizing v with
  | zero => simp [le, unle, Nat.mod_one]
  | succ w ih =>
    have hb : ((v % 256).toUInt8).toNat = v % 256 :=
      UInt8.toNat_ofNat_of_lt (Nat.mod_lt _ (by decide))
    rw [le, unle, hb, ih, Nat.pow_succ, Nat.mul_comm _ 256, Nat.mod_mul]

/-- Store the `w`-byte unsigned integer `v` at offset `off`. -/
def writeNat (b : Buf) (off w v : Nat) : Buf :=
  b.write off (le w v)

/-- Load the `w`-byte unsigned integer at offset `off`. -/
def readNat (b : Buf) (off w : Nat) : Nat :=
  unle (b.read off w)

theorem readNat_writeNat_self {w v : Nat} :
    (b.writeNat off w v).readNat off w = v % 256 ^ w := by
  have h := @read_write_self b off (le w v)
  rw [length_le] at h
  rw [readNat, writeNat, h, unle_le]

theorem readNat_write_of_apart {w : Nat} (h : off' + w ≤ off ∨ off + bs.length ≤ off') :
    (b.write off bs).readNat off' w = b.readNat off' w := by
  rw [readNat, readNat, read_write_of_apart h]

end Buf

/-! ### Fallible steps -/

@[simp] theorem ok_bind {ε α β : Type} (a : α) (f : α → Except ε β) :
    ((.ok a : Except ε α) >>= f) = f a := rfl

@[simp] theorem error_bind {ε α β : Type} (e : ε) (f : α → Except ε β) :
    ((.error e : Except ε α) >>= f) = .error e := rfl

end Xcm
