import Xcm.Ctl.HandlerSpec
import Xcm.Ctl.Process

/-!
# The Key Is Never Sent

No control client can learn the value of the sensitive attribute `XCM_ATTR_TLS_KEY`,
not even from the stale bytes of a reused response buffer. Take two attribute tables
that list the same non-sensitive attributes and agree on whether the key exists and on
its type, with a key value that fits `any_value` in both (`LowEq`). The handlers then
compute the same bytes from the same buffer. `process_get_attr` copies the key's value
into the response, but `clear_attr` erases every byte of it again
(`processGetAttr_lowEq`), and `add_attr` skips the key (`processGetAllAttr_lowEq`). So
the two tables make every run of the endpoint the same, byte for byte
(`runs_lowEq`): the same events in the same order, every `send` included.

The condition that the value fits matters: a key too long for `any_value` makes the
lookup fail with `EOVERFLOW`, which stores nothing, so whether the key fits shows in the
bytes the buffer keeps. The key's type is not hidden either: the rejection of a request
for the key carries it in `value_type` (`processGetAttr_key_type`), which is why the two
tables must agree on it.

## Main results

* `processGetAttr_lowEq`, `processGetAllAttr_lowEq`: the handlers do not read the key's
  value.
* `runs_lowEq`: every sequence of `ctl_process` calls gives the same result under the two
  tables.
-/

namespace Xcm

variable (L : ProtoLayout) in
/-- Two attribute tables no control client can tell apart: the same non-sensitive
attributes in the same order, and the key present in both or in neither, with the same
type. The key's value may differ arbitrarily, as long as it fits `any_value` in both. -/
structure LowEq (tbl tbl' : List Attr) : Prop where
  listed : listedAttrs tbl = listedAttrs tbl'
  key : (tbl.find? (·.name = xcmAttrTlsKey)).map Attr.type =
    (tbl'.find? (·.name = xcmAttrTlsKey)).map Attr.type
  key_fits : ∀ a ∈ tbl, a.name = xcmAttrTlsKey → a.value.length ≤ L.valueMax
  key_fits' : ∀ a ∈ tbl', a.name = xcmAttrTlsKey → a.value.length ≤ L.valueMax

section Handlers

variable {L : ProtoLayout} {tbl tbl' : List Attr} {name : String} {res : Buf}

/-- A lookup of a non-sensitive name finds what it finds among the listed attributes. -/
theorem xcmAttrGet_listedAttrs {cap : Nat} (hs : isSensitive name = false) :
    xcmAttrGet (listedAttrs tbl) name cap = xcmAttrGet tbl name cap := by
  have hfind : (listedAttrs tbl).find? (·.name = name) = tbl.find? (·.name = name) := by
    rw [listedAttrs, List.find?_filter]
    congr 1; funext a
    by_cases h : a.name = name <;> simp [h, hs]
  simp only [xcmAttrGet, hfind]

theorem processGetAttr_listedAttrs (hs : isSensitive name = false) :
    processGetAttr L (listedAttrs tbl) name res = processGetAttr L tbl name res := by
  unfold processGetAttr
  rw [xcmAttrGet_listedAttrs hs]

/-- The lookups of the key in the two tables both fail, or both find it with the same
type. -/
theorem xcmAttrGet_key_lowEq (h : LowEq L tbl tbl') :
    (∃ a a', xcmAttrGet tbl xcmAttrTlsKey L.valueMax = .ok a ∧
      xcmAttrGet tbl' xcmAttrTlsKey L.valueMax = .ok a' ∧ a.type = a'.type) ∨
    (∃ e e', xcmAttrGet tbl xcmAttrTlsKey L.valueMax = .error e ∧
      xcmAttrGet tbl' xcmAttrTlsKey L.valueMax = .error e') := by
  have hk := h.key
  unfold xcmAttrGet
  rcases hf : tbl.find? (·.name = xcmAttrTlsKey) with _ | a <;>
    rcases hf' : tbl'.find? (·.name = xcmAttrTlsKey) with _ | a' <;>
    rw [hf, hf'] at hk ⊢ <;> simp only [Option.map_none', Option.map_some', reduceCtorEq] at hk
  · exact .inr ⟨_, _, rfl, rfl⟩
  · have hn : a.name = xcmAttrTlsKey := by simpa using List.find?_some hf
    have hn' : a'.name = xcmAttrTlsKey := by simpa using List.find?_some hf'
    refine .inl ⟨a, a', ?_, ?_, Option.some.inj hk⟩
    · simp [h.key_fits a (List.mem_of_find?_eq_some hf) hn]
    · simp [h.key_fits' a' (List.mem_of_find?_eq_some hf') hn']

/-- **`process_get_attr` does not read the key's value.** -/
theorem processGetAttr_lowEq (h : LowEq L tbl tbl') :
    processGetAttr L tbl name res = processGetAttr L tbl' name res := by
  by_cases hs : isSensitive name = true
  · rw [processGetAttr_of_isSensitive hs, processGetAttr_of_isSensitive hs, isSensitive_iff.mp hs]
    rcases xcmAttrGet_key_lowEq h with ⟨a, a', h1, h2, ht⟩ | ⟨e, e', h1, h2⟩
    · simp only [h1, h2, ht]
    · simp only [h1, h2]
  · rw [Bool.not_eq_true] at hs
    rw [← processGetAttr_listedAttrs hs, h.listed, processGetAttr_listedAttrs hs]

/-- **`process_get_all_attr` does not read the key.** -/
theorem processGetAllAttr_lowEq (h : LowEq L tbl tbl') :
    processGetAllAttr L tbl res = processGetAllAttr L tbl' res := by
  rw [processGetAllAttr, foldlM_addAttr_listedAttrs, h.listed, ← foldlM_addAttr_listedAttrs,
    processGetAllAttr]

end Handlers

/-! ### Runs -/

variable {L : ProtoLayout} {tbl tbl' : List Attr} (h : LowEq L tbl tbl')
include h

theorem processClient_lowEq (env : Env) (w : World) (i : Fin maxClients) :
    processClient L tbl env w i = processClient L tbl' env w i := by
  simp only [processClient, processGetAttr_lowEq h, processGetAllAttr_lowEq h]

theorem processLoop_lowEq (env : Env) (nested : World → Except Fault World) :
    ∀ k i w, processLoop L tbl env nested k i w = processLoop L tbl' env nested k i w := by
  intro k
  induction k with
  | zero => intro i w; rfl
  | succ k ih => intro i w; simp only [processLoop, processClient_lowEq h, ih]

theorem ctlProcessn_lowEq (env : Env) :
    ∀ d w, ctlProcessn L tbl env d w = ctlProcessn L tbl' env d w := by
  intro d
  induction d with
  | zero => intro w; rfl
  | succ d ih =>
    intro w
    have hn : ctlProcessn L tbl env d = ctlProcessn L tbl' env d := funext ih
    simp only [ctlProcessn, processLoop_lowEq h, hn]

/-- **Noninterference of the key.** Two tables that differ only in the value of the key,
each fitting `any_value`, give the same result for every sequence of `ctl_process`
calls, each under its own environment, from every endpoint: the same endpoint and the
same trace, so the same bytes in every `send` on every client's descriptor, stale
bytes of the response buffers included. -/
theorem runs_lowEq (envs : List Env) (w : World) :
    envs.foldlM (fun w env => ctlProcess L tbl env w) w =
      envs.foldlM (fun w env => ctlProcess L tbl' env w) w := by
  have hc : (fun w env => ctlProcess L tbl env w) = fun w env => ctlProcess L tbl' env w := by
    funext w env; exact ctlProcessn_lowEq h env _ w
  rw [hc]

omit h in
/-- Two tables whose keys hold `[1, 2, 3]` and nothing, beside an attribute `"a"`, are
told apart by no run. -/
theorem key_value_invisible :
    LowEq ProtoLayout.small [⟨"tls.key", 2, [1, 2, 3]⟩, ⟨"a", 1, [7]⟩]
      [⟨"tls.key", 2, []⟩, ⟨"a", 1, [7]⟩] ∧
    ∀ (envs : List Env) (w : World),
      envs.foldlM (fun w env => ctlProcess ProtoLayout.small
        [⟨"tls.key", 2, [1, 2, 3]⟩, ⟨"a", 1, [7]⟩] env w) w =
      envs.foldlM (fun w env => ctlProcess ProtoLayout.small
        [⟨"tls.key", 2, []⟩, ⟨"a", 1, [7]⟩] env w) w :=
  have hl : LowEq ProtoLayout.small [⟨"tls.key", 2, [1, 2, 3]⟩, ⟨"a", 1, [7]⟩]
      [⟨"tls.key", 2, []⟩, ⟨"a", 1, [7]⟩] :=
    ⟨by decide, by decide, by decide, by decide⟩
  ⟨hl, runs_lowEq hl⟩

end Xcm
