import Xcm.Memory

/-!
# The Control Protocol's Messages

A control client and the endpoint exchange `struct ctl_proto_msg`, one fixed-size
message per `recv` or `send` on a `SOCK_SEQPACKET` connection: a `type` member and an
anonymous union of the four payloads `get_attr_req`, `get_attr_cfm`, `get_attr_rej` and
`get_all_attr_cfm`. The header that declares them, `ctl_proto.h`, is not among the
sources, so its limits and the layout the compiler gives its structs are parameters here
(`ProtoLayout`). A layout is only assumed to obey the C rules for structs and unions
(`ProtoLayout.WF`): the members of a struct do not overlap, each lies inside its struct,
and the members of a union all start at the union.

`int` and enumerations are 4 bytes wide and `size_t` 8, as on x86-64 Linux.
-/

namespace Xcm

/-- `enum ctl_proto_type`. -/
inductive CtlProtoType
  | getAttrReq
  | getAttrCfm
  | getAttrRej
  | getAllAttrReq
  | getAllAttrCfm
  deriving DecidableEq, Repr

/-- The layout of `struct ctl_proto_msg` and `struct ctl_proto_attr` on the target, and
the limits `ctl_proto.h` defines. Offsets of the message's members are from the start
of the message, those of an attribute's members from the start of the attribute. -/
structure ProtoLayout where
  /-- `sizeof(struct ctl_proto_msg)`, the length of every message on the wire. -/
  size : Nat
  /-- The member `type`. -/
  typeOff : Nat
  /-- The values of the enumerators of `enum ctl_proto_type`. -/
  typeCode : CtlProtoType → Nat
  /-- The member `get_attr_cfm.attr`. -/
  cfmOff : Nat
  /-- The member `get_attr_rej.rej_errno`. -/
  rejOff : Nat
  /-- The member `get_all_attr_cfm.attrs_len`. -/
  attrsLenOff : Nat
  /-- The member `get_all_attr_cfm.attrs`. -/
  attrsOff : Nat
  /-- `sizeof(struct ctl_proto_attr)`. -/
  attrSize : Nat
  /-- The attribute members `name`, `value_type`, `any_value` and `value_len`. -/
  nameOff : Nat
  valueTypeOff : Nat
  valueOff : Nat
  valueLenOff : Nat
  /-- `CTL_ATTR_NAME_MAX`, the size of `name`. -/
  nameMax : Nat
  /-- `CTL_ATTR_VALUE_MAX`, the size of `any_value`. -/
  valueMax : Nat
  /-- `CTL_PROTO_MAX_ATTRS`, the number of entries of `attrs`. -/
  maxAttrs : Nat

/-- The byte ranges `[a, a + n)` and `[a', a' + n')` do not overlap. -/
def Apart (a n a' n' : Nat) : Prop := a + n ≤ a' ∨ a' + n' ≤ a

instance (a n a' n' : Nat) : Decidable (Apart a n a' n') := inferInstanceAs (Decidable (_ ∨ _))

namespace ProtoLayout

variable (L : ProtoLayout)

/-- The offset of `get_all_attr_cfm.attrs[i]`. -/
def attrAt (i : Nat) : Nat := L.attrsOff + i * L.attrSize

/-- What C guarantees of any layout of the two structs: members of a struct are apart
and inside it, the union's members are apart from `type`, `attrs_len` is apart from the
array `attrs`, which lies inside the message, the message is smaller than `PTRDIFF_MAX`,
arrays have a positive size, and the enumerators are distinct and fit an `int`. -/
structure WF : Prop where
  name_le : L.nameOff + L.nameMax ≤ L.attrSize
  valueType_le : L.valueTypeOff + 4 ≤ L.attrSize
  value_le : L.valueOff + L.valueMax ≤ L.attrSize
  valueLen_le : L.valueLenOff + 8 ≤ L.attrSize
  name_valueType : Apart L.nameOff L.nameMax L.valueTypeOff 4
  name_value : Apart L.nameOff L.nameMax L.valueOff L.valueMax
  name_valueLen : Apart L.nameOff L.nameMax L.valueLenOff 8
  valueType_value : Apart L.valueTypeOff 4 L.valueOff L.valueMax
  valueType_valueLen : Apart L.valueTypeOff 4 L.valueLenOff 8
  value_valueLen : Apart L.valueOff L.valueMax L.valueLenOff 8
  type_cfm : Apart L.typeOff 4 L.cfmOff L.attrSize
  type_rej : Apart L.typeOff 4 L.rejOff 4
  type_attrsLen : Apart L.typeOff 4 L.attrsLenOff 8
  type_attrs : Apart L.typeOff 4 L.attrsOff (L.maxAttrs * L.attrSize)
  attrsLen_attrs : Apart L.attrsLenOff 8 L.attrsOff (L.maxAttrs * L.attrSize)
  attrs_le : L.attrsOff + L.maxAttrs * L.attrSize ≤ L.size
  size_lt : L.size < 2 ^ 63
  valueMax_pos : 0 < L.valueMax
  maxAttrs_pos : 0 < L.maxAttrs
  typeCode_inj : Function.Injective L.typeCode
  typeCode_lt : ∀ t, L.typeCode t < 2 ^ 32

/-- A small layout that obeys the C rules: the union at offset 8, attributes of 24 bytes
with an 8-byte `name` and a 4-byte `any_value`, and room for two of them. -/
def small : ProtoLayout where
  size := 64
  typeOff := 0
  typeCode
    | .getAttrReq => 0
    | .getAttrCfm => 1
    | .getAttrRej => 2
    | .getAllAttrReq => 3
    | .getAllAttrCfm => 4
  cfmOff := 8
  rejOff := 8
  attrsLenOff := 8
  attrsOff := 16
  attrSize := 24
  nameOff := 0
  valueTypeOff := 8
  valueOff := 12
  valueLenOff := 16
  nameMax := 8
  valueMax := 4
  maxAttrs := 2

/-- `small` obeys the C rules. -/
theorem small_wf : small.WF where
  name_le := by decide
  valueType_le := by decide
  value_le := by decide
  valueLen_le := by decide
  name_valueType := by decide
  name_value := by decide
  name_valueLen := by decide
  valueType_value := by decide
  valueType_valueLen := by decide
  value_valueLen := by decide
  type_cfm := by decide
  type_rej := by decide
  type_attrsLen := by decide
  type_attrs := by decide
  attrsLen_attrs := by decide
  attrs_le := by decide
  size_lt := by decide
  valueMax_pos := by decide
  maxAttrs_pos := by decide
  typeCode_inj a b h := by cases a <;> cases b <;> first | rfl | cases h
  typeCode_lt t := by cases t <;> decide

end ProtoLayout

/-- A received request as `process_client` reads it out of `struct ctl_proto_msg req`:
the raw value of its `type` member, which need not be an enumerator, and the string in
`get_attr_req.attr_name`. -/
structure Request where
  type : Nat
  attrName : String
  deriving DecidableEq, Repr

/-- Why a run of the process stops short. -/
inductive Fault
  /-- The registration set refused an add of a registered descriptor, or a modify or
  delete of an unregistered one. -/
  | regSet
  /-- `ut_assert(cfm->attrs_len < CTL_PROTO_MAX_ATTRS)` in `add_attr` failed. -/
  | attrsLen
  /-- `ut_assert(attr->value_len < sizeof(attr->any_value))` in `add_attr` failed. -/
  | valueLen
  /-- A store ran past the end of the member it was aimed at: undefined behaviour. -/
  | overflow
  /-- Not a behaviour of the C code: the model's budget for the recursion and the loop
  of `ctl_process` ran out (`Xcm.Ctl.Termination` shows it never does). -/
  | fuel
  deriving DecidableEq, Repr

/-- `ENOENT`, as `xcm_attr_get` reports an unknown attribute. -/
def ENOENT : Nat := 2

/-- `EACCES`, the rejection of a sensitive attribute. -/
def EACCES : Nat := 13

/-- `EOVERFLOW`, as `xcm_attr_get` reports a value larger than the buffer given. -/
def EOVERFLOW : Nat := 75

end Xcm
