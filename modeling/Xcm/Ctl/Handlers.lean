import Xcm.Ctl.Proto

/-!
# The Request Handlers

`process_get_attr` and `process_get_all_attr` fill a client's `pending_response` in
place. The buffer is reused from request to request (and moved between pool slots by
`remove_client`), so every handler here takes the buffer's previous bytes and returns
its new bytes: what a handler does not store is left as it was.

The attribute table of the owning socket is outside the sources. It is a list of
attributes in the order `xcm_attr_get_all` visits them, and `xcmAttrGet` is its lookup,
modelled from the spec's contract for it.
-/

namespace Xcm

open Buf

/-- One attribute of the owning socket: its name, the value of its
`enum xcm_attr_type`, and its value bytes (the `len` the visitor is given is their
number). -/
structure Attr where
  name : String
  type : Nat
  value : List UInt8
  deriving DecidableEq, Repr

/-- Modelled from the spec: `XCM_ATTR_TLS_KEY`, the name of the attribute that holds
the private key, which the spec's example gives as `"tls.key"`. -/
def xcmAttrTlsKey : String := "tls.key"

/-- `is_sensitive`. -/
def isSensitive (name : String) : Bool := name = xcmAttrTlsKey

/-- The bytes `strcpy` stores for a name: its UTF-8 bytes and the terminating zero. -/
def cString (s : String) : List UInt8 := s.toUTF8.data.toList ++ [0]

/-- Modelled from the spec: `xcm_attr_get(socket, name, &type, value, capacity)`, the
attribute table's `get(name) -> (type, bytes, length) | not-found`. The first attribute
of that name is found; a value that does not fit the `capacity` bytes the caller gives
is reported as `EOVERFLOW`, so that the table never stores past them. On success the
call stores the type and the value bytes through the pointers it is given (the caller
does those stores, see `processGetAttr`). -/
def xcmAttrGet (tbl : List Attr) (name : String) (capacity : Nat) : Except Nat Attr :=
  match tbl.find? (·.name = name) with
  | none => .error ENOENT
  | some a => if a.value.length ≤ capacity then .ok a else .error EOVERFLOW

variable (L : ProtoLayout)

/-- `clear_attr`: `memset(attr->any_value, 0, CTL_ATTR_VALUE_MAX)` for the attribute at
offset `attr`. -/
def clearAttr (res : Buf) (attr : Nat) : Buf :=
  res.zero (attr + L.valueOff) L.valueMax

/-- `process_get_attr`. The lookup stores the type and the value into
`get_attr_cfm.attr`; for the sensitive name the value is then cleared and the outcome
forced to a rejection with `EACCES`. A success stores the tag `get_attr_cfm` and
`value_len`, a failure the tag `get_attr_rej` and `rej_errno`. -/
def processGetAttr (tbl : List Attr) (name : String) (res : Buf) : Buf :=
  let cfm := L.cfmOff
  let got := xcmAttrGet tbl name L.valueMax
  let res := match got with
    | .ok a => (res.writeNat (cfm + L.valueTypeOff) 4 a.type).write (cfm + L.valueOff) a.value
    | .error _ => res
  let (got, res) : Except Nat Attr × Buf :=
    if isSensitive name then (.error EACCES, clearAttr L res cfm) else (got, res)
  match got with
  | .ok a =>
    (res.writeNat L.typeOff 4 (L.typeCode .getAttrCfm)).writeNat (cfm + L.valueLenOff) 8
      a.value.length
  | .error e => (res.writeNat L.typeOff 4 (L.typeCode .getAttrRej)).writeNat L.rejOff 4 e

/-- `add_attr`, the visitor `process_get_all_attr` hands to `xcm_attr_get_all`. It
skips the sensitive attribute, takes the entry `attrs[attrs_len]` with `attrs_len` read
from the buffer, increments `attrs_len` and asserts it is below `CTL_PROTO_MAX_ATTRS`,
copies name and type, asserts the entry's (stale) `value_len` is below the size of
`any_value`, and copies the value and its length. A copy that would run past `name`,
`any_value` or the array `attrs` is undefined behaviour (`Fault.overflow`). -/
def addAttr (cfm : Buf) (a : Attr) : Except Fault Buf :=
  if isSensitive a.name then .ok cfm else
  let n := cfm.readNat L.attrsLenOff 8
  let attr := L.attrAt n
  let cfm := cfm.writeNat L.attrsLenOff 8 (n + 1)
  if ¬ cfm.readNat L.attrsLenOff 8 < L.maxAttrs then .error .attrsLen else
  if ¬ (n < L.maxAttrs ∧ (cString a.name).length ≤ L.nameMax) then .error .overflow else
  let cfm := (cfm.write (attr + L.nameOff) (cString a.name)).writeNat
    (attr + L.valueTypeOff) 4 a.type
  if ¬ cfm.readNat (attr + L.valueLenOff) 8 < L.valueMax then .error .valueLen else
  if ¬ a.value.length ≤ L.valueMax then .error .overflow else
  .ok ((cfm.write (attr + L.valueOff) a.value).writeNat (attr + L.valueLenOff) 8
    a.value.length)

/-- `process_get_all_attr`: `attrs_len = 0`, then `xcm_attr_get_all` visits every
attribute of the table in its order with `add_attr`. It stores no tag. -/
def processGetAllAttr (tbl : List Attr) (res : Buf) : Except Fault Buf :=
  tbl.foldlM (addAttr L) (res.writeNat L.attrsLenOff 8 0)

/-! ### Basic facts -/

theorem isSensitive_iff {name : String} : isSensitive name = true ↔ name = xcmAttrTlsKey := by
  simp [isSensitive]

/-- The sensitive attribute is skipped by `add_attr`. -/
theorem addAttr_of_isSensitive {cfm : Buf} {a : Attr} (h : isSensitive a.name = true) :
    addAttr L cfm a = .ok cfm := by
  simp [addAttr, h]

/-- `add_attr` stops only at one of its two assertions or at an overflowing copy. -/
theorem addAttr_error {cfm : Buf} {a : Attr} {f : Fault} (h : addAttr L cfm a = .error f) :
    f = .attrsLen ∨ f = .overflow ∨ f = .valueLen := by
  unfold addAttr at h
  dsimp only at h
  split_ifs at h <;> cases h <;> simp

/-- So does `process_get_all_attr`. -/
theorem processGetAllAttr_error {tbl : List Attr} {res : Buf} {f : Fault}
    (h : processGetAllAttr L tbl res = .error f) :
    f = .attrsLen ∨ f = .overflow ∨ f = .valueLen := by
  unfold processGetAllAttr at h
  generalize res.writeNat L.attrsLenOff 8 0 = b at h
  induction tbl generalizing b with
  | nil => cases h
  | cons a t ih =>
    rw [List.foldlM_cons] at h
    cases ha : addAttr L b a with
    | error f' => rw [ha, error_bind] at h; cases h; exact addAttr_error L ha
    | ok b' => rw [ha, ok_bind] at h; exact ih b' h

@[simp] theorem processGetAllAttr_nil {res : Buf} :
    processGetAllAttr L [] res = .ok (res.writeNat L.attrsLenOff 8 0) := rfl

end Xcm
