import Xcm.Ctl.Handlers

/-!
# What the Handlers Store

The stores `process_get_attr` and `process_get_all_attr` make into a response buffer,
read back through the layout: which members of the response a handler sets, to what,
and which bytes it leaves as the buffer's previous occupant left them.

A layout obeying the C rules (`ProtoLayout.WF`) is assumed throughout. An attribute
entry is described by what loads from it give (`ProtoLayout.EntryHolds`), and the
stores `add_attr` makes for one entry by `ProtoLayout.storeEntry`.

## Main results

* `processGetAttr_of_ok`, `processGetAttr_of_error`, `processGetAttr_rej_of_isSensitive`:
  the response to `GetAttrReq`, for each outcome of the lookup; `processGetAttr_key_type`:
  the rejection of the key still carries its type.
* `processGetAllAttr_ok_iff`: `add_attr` completes every visit exactly when fewer than
  `CTL_PROTO_MAX_ATTRS` attributes are listed, each name and value fits its member, and
  the stale `value_len` of each entry used is below `CTL_ATTR_VALUE_MAX`.
* `processGetAllAttr_ok`: a completed `GetAllAttrReq` response lists the non-sensitive
  attributes in order, and every other byte of the buffer is as it was, `type` included
  (`processGetAllAttr_readNat_type`).
-/

namespace Xcm

open Buf

/-! ### Loads through stores -/

namespace Buf

variable {b b' : Buf} {off off' n w : Nat}

/-- Objects that agree on a region load the same bytes from it. -/
theorem read_congr (h : ∀ p, off ≤ p → p < off + n → b p = b' p) :
    b.read off n = b'.read off n := by
  simp only [read]
  apply List.map_congr_left
  intro k hk
  rw [List.mem_range] at hk
  exact h _ (by omega) (by omega)

theorem readNat_congr (h : ∀ p, off ≤ p → p < off + n → b p = b' p) :
    b.readNat off n = b'.readNat off n := by
  rw [readNat, readNat, read_congr h]

theorem readNat_writeNat_of_lt {v : Nat} (h : v < 2 ^ (8 * w)) :
    (b.writeNat off w v).readNat off w = v := by
  rw [readNat_writeNat_self, Nat.mod_eq_of_lt (by rwa [pow_mul] at h)]

theorem read_writeNat_of_apart {v : Nat} (h : off' + n ≤ off ∨ off + w ≤ off') :
    (b.writeNat off w v).read off' n = b.read off' n :=
  read_write_of_apart (by rwa [length_le])

theorem readNat_writeNat_of_apart {w' v : Nat} (h : off' + w' ≤ off ∨ off + w ≤ off') :
    (b.writeNat off w v).readNat off' w' = b.readNat off' w' :=
  readNat_write_of_apart (by rwa [length_le])

theorem writeNat_apply_of_apart {v i : Nat} (h : i < off ∨ off + w ≤ i) :
    b.writeNat off w v i = b i :=
  write_apply_of_apart (by rwa [length_le])

end Buf

namespace ProtoLayout

variable {L : ProtoLayout}

theorem apart_iff {a n a' n' : Nat} : Apart a n a' n' ↔ a + n ≤ a' ∨ a' + n' ≤ a := Iff.rfl

/-- Entries of `attrs` follow each other without gaps. -/
theorem attrAt_succ (k : Nat) : L.attrAt (k + 1) = L.attrAt k + L.attrSize := by
  simp only [attrAt, Nat.succ_mul]; omega

theorem attrAt_le_attrAt {k k' : Nat} (h : k ≤ k') : L.attrAt k ≤ L.attrAt k' := by
  simp only [attrAt]; have := Nat.mul_le_mul_right L.attrSize h; omega

/-- Entry `k` lies inside the array `attrs` while `k < CTL_PROTO_MAX_ATTRS`. -/
theorem attrAt_add_le {k : Nat} (h : k < L.maxAttrs) :
    L.attrAt k + L.attrSize ≤ L.attrsOff + L.maxAttrs * L.attrSize := by
  rw [← attrAt_succ]; simp only [attrAt]
  have := Nat.mul_le_mul_right L.attrSize (show k + 1 ≤ L.maxAttrs by omega); omega

theorem WF.attrSize_pos (hL : L.WF) : 0 < L.attrSize := by
  have := hL.value_le; have := hL.valueMax_pos; omega

/-- Every count the array can hold fits the 8-byte `attrs_len`. -/
theorem WF.maxAttrs_lt (hL : L.WF) : L.maxAttrs < 2 ^ 63 := by
  have := Nat.le_mul_of_pos_right L.maxAttrs hL.attrSize_pos
  have := hL.attrs_le; have := hL.size_lt; omega

theorem WF.valueMax_lt (hL : L.WF) : L.valueMax < 2 ^ 63 := by
  have := Nat.le_mul_of_pos_left L.attrSize hL.maxAttrs_pos
  have := hL.value_le; have := hL.attrs_le; have := hL.size_lt; omega

end ProtoLayout

/-! ### One entry -/

namespace ProtoLayout

variable (L : ProtoLayout)

/-- Entry `k` of `get_all_attr_cfm.attrs` in `b` holds the attribute `a`: its name as
`strcpy` stores it, its type as a 4-byte enumeration, its value bytes and their
number. -/
def EntryHolds (b : Buf) (k : Nat) (a : Attr) : Prop :=
  b.read (L.attrAt k + L.nameOff) (cString a.name).length = cString a.name ∧
  b.readNat (L.attrAt k + L.valueTypeOff) 4 = a.type % 2 ^ 32 ∧
  b.read (L.attrAt k + L.valueOff) a.value.length = a.value ∧
  b.readNat (L.attrAt k + L.valueLenOff) 8 = a.value.length

/-- What `add_attr` needs of the attribute `a` and of entry `k` of `b`, besides a free
entry: the name fits `name`, the entry's stale `value_len` passes the assertion, and the
value fits `any_value`. -/
def Fits (b : Buf) (k : Nat) (a : Attr) : Prop :=
  (cString a.name).length ≤ L.nameMax ∧
  b.readNat (L.attrAt k + L.valueLenOff) 8 < L.valueMax ∧ a.value.length ≤ L.valueMax

instance (b : Buf) (k : Nat) (a : Attr) : Decidable (L.Fits b k a) :=
  inferInstanceAs (Decidable (_ ∧ _ ∧ _))

/-- The four stores `add_attr` makes into entry `k`: name, type, value and its length. -/
def storeEntry (b : Buf) (k : Nat) (a : Attr) : Buf :=
  (((b.write (L.attrAt k + L.nameOff) (cString a.name)).writeNat
    (L.attrAt k + L.valueTypeOff) 4 a.type).write (L.attrAt k + L.valueOff) a.value).writeNat
    (L.attrAt k + L.valueLenOff) 8 a.value.length

end ProtoLayout

section Entry

variable {L : ProtoLayout} (hL : L.WF) {b b' : Buf} {k : Nat} {a : Attr}
include hL

/-- `storeEntry` stores only inside entry `k`. -/
theorem storeEntry_apply_of_apart (hn : (cString a.name).length ≤ L.nameMax)
    (hv : a.value.length ≤ L.valueMax) {p : Nat}
    (hp : p < L.attrAt k ∨ L.attrAt k + L.attrSize ≤ p) : L.storeEntry b k a p = b p := by
  have := hL.name_le; have := hL.valueType_le; have := hL.value_le; have := hL.valueLen_le
  simp only [ProtoLayout.storeEntry]
  rw [writeNat_apply_of_apart (by omega), write_apply_of_apart (by omega),
    writeNat_apply_of_apart (by omega), write_apply_of_apart (by omega)]

/-- What `storeEntry` stores, loads back. -/
theorem entryHolds_storeEntry (hn : (cString a.name).length ≤ L.nameMax)
    (hv : a.value.length ≤ L.valueMax) : L.EntryHolds (L.storeEntry b k a) k a := by
  have h1 := hL.name_valueType; have h2 := hL.name_value; have h3 := hL.name_valueLen
  have h4 := hL.valueType_value; have h5 := hL.valueType_valueLen; have h6 := hL.value_valueLen
  simp only [ProtoLayout.apart_iff] at h1 h2 h3 h4 h5 h6
  have hvl : a.value.length < 2 ^ (8 * 8) := by have := hL.valueMax_lt; omega
  refine ⟨?_, ?_, ?_, readNat_writeNat_of_lt hvl⟩ <;> simp only [ProtoLayout.storeEntry]
  · rw [read_writeNat_of_apart (by omega), read_write_of_apart (by omega),
      read_writeNat_of_apart (by omega), read_write_self]
  · rw [readNat_writeNat_of_apart (by omega), readNat_write_of_apart (by omega),
      readNat_writeNat_self]; rfl
  · rw [read_writeNat_of_apart (by omega), read_write_self]

/-- The stale `value_len` of entry `k` that the assertion of `add_attr` loads is the one
the buffer held before the visit. -/
theorem readNat_valueLen_storeName (hk : k < L.maxAttrs) {v : Nat}
    (hn : (cString a.name).length ≤ L.nameMax) :
    ((((b.writeNat L.attrsLenOff 8 v).write (L.attrAt k + L.nameOff) (cString a.name)).writeNat
      (L.attrAt k + L.valueTypeOff) 4 a.type).readNat (L.attrAt k + L.valueLenOff) 8) =
      b.readNat (L.attrAt k + L.valueLenOff) 8 := by
  have h1 := hL.name_valueLen; have h2 := hL.valueType_valueLen; have h3 := hL.attrsLen_attrs
  have := hL.valueLen_le; have := ProtoLayout.attrAt_add_le hk
  have : L.attrsOff ≤ L.attrAt k := Nat.le_add_right _ _
  simp only [ProtoLayout.apart_iff] at h1 h2 h3
  rw [readNat_writeNat_of_apart (by omega), readNat_write_of_apart (by omega),
    readNat_writeNat_of_apart (by omega)]

/-- **Spec of `add_attr`** for a non-sensitive attribute visited while `attrs_len` is
`k`: it stores the entry and counts it, or stops at the first check that fails. -/
theorem addAttr_eq (hs : isSensitive a.name = false) (hk : b.readNat L.attrsLenOff 8 = k)
    (hkm : k < L.maxAttrs) :
    addAttr L b a = if k + 1 < L.maxAttrs ∧ L.Fits b k a then
      .ok (L.storeEntry (b.writeNat L.attrsLenOff 8 (k + 1)) k a)
    else .error (if k + 1 < L.maxAttrs then
      if (cString a.name).length ≤ L.nameMax then
        if b.readNat (L.attrAt k + L.valueLenOff) 8 < L.valueMax then .overflow else .valueLen
      else .overflow
    else .attrsLen) := by
  have hk1 : k + 1 < 2 ^ (8 * 8) := by have := hL.maxAttrs_lt; omega
  simp only [addAttr, hs, hk, readNat_writeNat_of_lt hk1, hkm, true_and, ProtoLayout.Fits,
    if_false, Bool.false_eq_true]
  by_cases h1 : k + 1 < L.maxAttrs
  · by_cases h2 : (cString a.name).length ≤ L.nameMax
    · rw [readNat_valueLen_storeName hL hkm h2]
      split_ifs <;> first | rfl | omega
    · simp [h1, h2]
  · simp [h1]

end Entry

/-! ### The whole table -/

/-- The attributes a `GetAllAttrReq` response lists: the table's non-sensitive ones, in
the order `xcm_attr_get_all` visits them. -/
def listedAttrs (tbl : List Attr) : List Attr :=
  tbl.filter fun a => !isSensitive a.name

theorem isSensitive_of_mem_listedAttrs {tbl : List Attr} {a : Attr} (h : a ∈ listedAttrs tbl) :
    isSensitive a.name = false := by
  simpa [listedAttrs] using (List.mem_filter.mp h).2

/-- `add_attr` returns at once for the sensitive attribute, so visiting the table is
visiting its listed attributes. -/
theorem foldlM_addAttr_listedAttrs (L : ProtoLayout) (tbl : List Attr) (b : Buf) :
    tbl.foldlM (addAttr L) b = (listedAttrs tbl).foldlM (addAttr L) b := by
  induction tbl generalizing b with
  | nil => rfl
  | cons a t ih =>
    by_cases hs : isSensitive a.name
    · rw [List.foldlM_cons, addAttr_of_isSensitive L hs, ok_bind, ih]
      simp [listedAttrs, hs]
    · simp only [listedAttrs, List.filter_cons, hs, Bool.not_false, if_true, List.foldlM_cons]
      congr 1; funext b'; exact ih b'

section Fold

variable {L : ProtoLayout} (hL : L.WF) {b b' : Buf} {k : Nat} {a : Attr}
include hL

/-- A store into entry `k` and `attrs_len` leaves the stale `value_len` of every other
entry of the array. -/
theorem readNat_valueLen_of_frame {k' : Nat} (hk' : k' < L.maxAttrs)
    (hf : ∀ p, (p < L.attrsLenOff ∨ L.attrsLenOff + 8 ≤ p) →
      (p < L.attrAt k ∨ L.attrAt k + L.attrSize ≤ p) → b' p = b p) (hne : k' ≠ k) :
    b'.readNat (L.attrAt k' + L.valueLenOff) 8 = b.readNat (L.attrAt k' + L.valueLenOff) 8 := by
  have h3 := hL.attrsLen_attrs; simp only [ProtoLayout.apart_iff] at h3
  have := hL.valueLen_le; have := ProtoLayout.attrAt_add_le hk'
  have : L.attrsOff ≤ L.attrAt k' := Nat.le_add_right _ _
  have hsep : L.attrAt k' + L.attrSize ≤ L.attrAt k ∨ L.attrAt k + L.attrSize ≤ L.attrAt k' := by
    rcases Nat.lt_or_gt_of_ne hne with h | h
    · exact .inl (ProtoLayout.attrAt_succ k' ▸ ProtoLayout.attrAt_le_attrAt h)
    · exact .inr (ProtoLayout.attrAt_succ k ▸ ProtoLayout.attrAt_le_attrAt h)
  exact readNat_congr fun p h1 h2 => hf p (by omega) (by omega)

/-- Entry `k` holding `a` depends only on the bytes of entry `k`. -/
theorem EntryHolds.congr (hn : (cString a.name).length ≤ L.nameMax)
    (hv : a.value.length ≤ L.valueMax)
    (hf : ∀ p, L.attrAt k ≤ p → p < L.attrAt k + L.attrSize → b' p = b p)
    (he : L.EntryHolds b k a) : L.EntryHolds b' k a := by
  have := hL.name_le; have := hL.valueType_le; have := hL.value_le; have := hL.valueLen_le
  obtain ⟨h1, h2, h3, h4⟩ := he
  refine ⟨?_, ?_, ?_, ?_⟩
  · rw [read_congr fun p _ _ => hf p (by omega) (by omega)]; exact h1
  · rw [readNat_congr fun p _ _ => hf p (by omega) (by omega)]; exact h2
  · rw [read_congr fun p _ _ => hf p (by omega) (by omega)]; exact h3
  · rw [readNat_congr fun p _ _ => hf p (by omega) (by omega)]; exact h4

/-- One visit that stores entry `k`: `attrs_len` becomes `k + 1`, and nothing outside
`attrs_len` and entry `k` changes. -/
theorem storeEntry_visit (b : Buf) (hk : k < L.maxAttrs)
    (hn : (cString a.name).length ≤ L.nameMax) (hv : a.value.length ≤ L.valueMax) :
    (L.storeEntry (b.writeNat L.attrsLenOff 8 (k + 1)) k a).readNat L.attrsLenOff 8 = k + 1 ∧
    ∀ p, (p < L.attrsLenOff ∨ L.attrsLenOff + 8 ≤ p) →
      (p < L.attrAt k ∨ L.attrAt k + L.attrSize ≤ p) →
      L.storeEntry (b.writeNat L.attrsLenOff 8 (k + 1)) k a p = b p := by
  have h3 := hL.attrsLen_attrs; simp only [ProtoLayout.apart_iff] at h3
  have := ProtoLayout.attrAt_add_le hk
  have : L.attrsOff ≤ L.attrAt k := Nat.le_add_right _ _
  have hk1 : k + 1 < 2 ^ (8 * 8) := by have := hL.maxAttrs_lt; omega
  refine ⟨?_, fun p h1 h2 => ?_⟩
  · exact (readNat_congr fun p _ _ => storeEntry_apply_of_apart hL hn hv (by omega)).trans
      (readNat_writeNat_of_lt hk1)
  · rw [storeEntry_apply_of_apart hL hn hv h2, writeNat_apply_of_apart h1]

/-- Whether an entry other than the one stored fits is not changed by the store. -/
theorem fits_iff_of_frame {k' : Nat} {x : Attr} (hk' : k' < L.maxAttrs)
    (hf : ∀ p, (p < L.attrsLenOff ∨ L.attrsLenOff + 8 ≤ p) →
      (p < L.attrAt k ∨ L.attrAt k + L.attrSize ≤ p) → b' p = b p) (hne : k' ≠ k) :
    L.Fits b' k' x ↔ L.Fits b k' x := by
  simp only [ProtoLayout.Fits, readNat_valueLen_of_frame hL hk' hf hne]

/-- The visits of `add_attr` from `attrs_len = k` all complete exactly when the entries
`k, k + 1, ...` they use are inside the array and each attribute fits its entry. -/
theorem foldlM_addAttr_ok_iff : ∀ (ns : List Attr) (k : Nat) (b : Buf),
    (∀ a ∈ ns, isSensitive a.name = false) → b.readNat L.attrsLenOff 8 = k → k < L.maxAttrs →
    ((∃ b', ns.foldlM (addAttr L) b = .ok b') ↔
      k + ns.length < L.maxAttrs ∧ ∀ j (hj : j < ns.length), L.Fits b (k + j) ns[j]) := by
  intro ns
  induction ns with
  | nil =>
    intro k b _ _ hkm
    exact ⟨fun _ => ⟨hkm, fun j hj => absurd hj (Nat.not_lt_zero _)⟩, fun _ => ⟨b, rfl⟩⟩
  | cons a t ih =>
    intro k b hs hk hkm
    rw [List.foldlM_cons, addAttr_eq hL (hs a (List.mem_cons_self _ _)) hk hkm]
    by_cases hc : k + 1 < L.maxAttrs ∧ L.Fits b k a
    · obtain ⟨hk1, hn, hstale, hv⟩ := hc
      obtain ⟨hlen, hframe⟩ := storeEntry_visit hL b hkm hn hv
      rw [if_pos ⟨hk1, hn, hstale, hv⟩, ok_bind,
        ih _ _ (fun x hx => hs x (List.mem_cons_of_mem _ hx)) hlen hk1]
      have hl : (a :: t).length = t.length + 1 := rfl
      constructor
      · rintro ⟨h1, h2⟩
        refine ⟨by omega, fun j hj => ?_⟩
        cases j with
        | zero => exact ⟨hn, hstale, hv⟩
        | succ j =>
          have := h2 j (by omega)
          rw [fits_iff_of_frame hL (by omega) hframe (by omega)] at this
          rwa [show k + (j + 1) = k + 1 + j by omega]
      · rintro ⟨h1, h2⟩
        refine ⟨by omega, fun j hj => ?_⟩
        have := h2 (j + 1) (by omega)
        rwa [fits_iff_of_frame hL (by omega) hframe (by omega),
          show k + 1 + j = k + (j + 1) by omega]
    · rw [if_neg hc, error_bind]
      constructor
      · rintro ⟨_, h⟩; cases h
      · rintro ⟨h1, h2⟩
        exact absurd ⟨by simp at h1; omega, by simpa using h2 0 (by simp)⟩ hc

/-- **The visits' stores.** After the visits of `add_attr` from `attrs_len = k` complete,
`attrs_len` counts the attributes, entries `k, k + 1, ...` hold them in order, and every
byte outside `attrs_len` and those entries is as it was. -/
theorem foldlM_addAttr_ok : ∀ (ns : List Attr) (k : Nat) (b b' : Buf),
    (∀ a ∈ ns, isSensitive a.name = false) → b.readNat L.attrsLenOff 8 = k → k < L.maxAttrs →
    ns.foldlM (addAttr L) b = .ok b' →
    b'.readNat L.attrsLenOff 8 = k + ns.length ∧
    (∀ j (hj : j < ns.length), L.EntryHolds b' (k + j) ns[j]) ∧
    ∀ p, (p < L.attrsLenOff ∨ L.attrsLenOff + 8 ≤ p) →
      (p < L.attrAt k ∨ L.attrAt (k + ns.length) ≤ p) → b' p = b p := by
  intro ns
  induction ns with
  | nil =>
    intro k b b' _ hk _ h
    cases h
    exact ⟨hk, fun j hj => absurd hj (Nat.not_lt_zero _), fun _ _ _ => rfl⟩
  | cons a t ih =>
    intro k b b' hs hk hkm h
    rw [List.foldlM_cons, addAttr_eq hL (hs a (List.mem_cons_self _ _)) hk hkm] at h
    by_cases hc : k + 1 < L.maxAttrs ∧ L.Fits b k a
    · rw [if_pos hc] at h
      obtain ⟨hk1, hn, -, hv⟩ := hc
      obtain ⟨hlen, hframe⟩ := storeEntry_visit hL b hkm hn hv
      obtain ⟨h1, h2, h3⟩ := ih _ _ _ (fun x hx => hs x (List.mem_cons_of_mem _ hx)) hlen hk1 h
      have h3' : ∀ p, L.attrAt k ≤ p → p < L.attrAt k + L.attrSize → b' p = _ := fun p hp1 hp2 => by
        have := hL.attrsLen_attrs; simp only [ProtoLayout.apart_iff] at this
        have := ProtoLayout.attrAt_add_le hkm
        have : L.attrsOff ≤ L.attrAt k := Nat.le_add_right _ _
        exact h3 p (by omega) (.inl (by rw [ProtoLayout.attrAt_succ]; omega))
      refine ⟨by rw [h1, List.length_cons]; omega, fun j hj => ?_, fun p hp1 hp2 => ?_⟩
      · cases j with
        | zero => exact EntryHolds.congr hL hn hv h3' (entryHolds_storeEntry hL hn hv)
        | succ j =>
          have := h2 j (by simpa using hj)
          rwa [Nat.add_right_comm] at this
      · have := ProtoLayout.attrAt_succ (L := L) k
        have := ProtoLayout.attrAt_le_attrAt (L := L) (Nat.le_add_right (k + 1) t.length)
        rw [show k + (a :: t).length = k + 1 + t.length by simp; omega] at hp2
        rw [h3 p hp1 (by omega)]
        exact hframe p hp1 (by omega)
    · rw [if_neg hc, error_bind] at h; cases h

end Fold

/-! ### The two handlers -/

/-- A found attribute has the name asked for and fits the capacity given. -/
theorem xcmAttrGet_ok {tbl : List Attr} {name : String} {cap : Nat} {a : Attr}
    (h : xcmAttrGet tbl name cap = .ok a) : a ∈ tbl ∧ a.name = name ∧ a.value.length ≤ cap := by
  unfold xcmAttrGet at h
  split at h
  · cases h
  · rename_i a' ha'
    split at h
    · cases h; exact ⟨List.mem_of_find?_eq_some ha', by simpa using List.find?_some ha', ‹_›⟩
    · cases h

/-- A lookup fails with `ENOENT` or `EOVERFLOW`. -/
theorem xcmAttrGet_error {tbl : List Attr} {name : String} {cap e : Nat}
    (h : xcmAttrGet tbl name cap = .error e) : e = ENOENT ∨ e = EOVERFLOW := by
  unfold xcmAttrGet at h
  split at h
  · cases h; exact .inl rfl
  · split at h
    · cases h
    · cases h; exact .inr rfl

/-- For the sensitive name, `process_get_attr` stores the type the lookup found, clears
`any_value` over whatever value the lookup stored there, and rejects: none of the
attribute's value bytes is left. -/
theorem processGetAttr_of_isSensitive {L : ProtoLayout} {tbl : List Attr} {name : String}
    {res : Buf} (hs : isSensitive name = true) :
    processGetAttr L tbl name res =
      ((((match xcmAttrGet tbl name L.valueMax with
        | .ok a => res.writeNat (L.cfmOff + L.valueTypeOff) 4 a.type
        | .error _ => res).zero (L.cfmOff + L.valueOff) L.valueMax).writeNat L.typeOff 4
        (L.typeCode .getAttrRej)).writeNat L.rejOff 4 EACCES) := by
  rcases ha : xcmAttrGet tbl name L.valueMax with e | a <;>
    simp only [processGetAttr, hs, ha, if_true, clearAttr]
  rw [zero, zero, write_write_of_length_le (by simpa using (xcmAttrGet_ok ha).2.2)]

section Handlers

variable {L : ProtoLayout} (hL : L.WF) {tbl : List Attr} {res res' : Buf}
include hL

omit hL in
/-- `attrs_len = 0`, as `process_get_all_attr` begins. -/
theorem readNat_attrsLen_reset (res : Buf) :
    (res.writeNat L.attrsLenOff 8 0).readNat L.attrsLenOff 8 = 0 :=
  readNat_writeNat_of_lt (Nat.two_pow_pos _)

theorem fits_writeNat_attrsLen {k v : Nat} {x : Attr} (hk : k < L.maxAttrs) :
    L.Fits (res.writeNat L.attrsLenOff 8 v) k x ↔ L.Fits res k x := by
  have h3 := hL.attrsLen_attrs; simp only [ProtoLayout.apart_iff] at h3
  have := hL.valueLen_le; have := ProtoLayout.attrAt_add_le hk
  have : L.attrsOff ≤ L.attrAt k := Nat.le_add_right _ _
  have hap : L.attrAt k + L.valueLenOff + 8 ≤ L.attrsLenOff ∨
      L.attrsLenOff + 8 ≤ L.attrAt k + L.valueLenOff := by omega
  simp only [ProtoLayout.Fits, readNat_writeNat_of_apart hap]

/-- **When `process_get_all_attr` completes**: exactly when fewer than
`CTL_PROTO_MAX_ATTRS` attributes are listed and each fits its entry, the entry's stale
`value_len` included. -/
theorem processGetAllAttr_ok_iff :
    (∃ res', processGetAllAttr L tbl res = .ok res') ↔
      (listedAttrs tbl).length < L.maxAttrs ∧
      ∀ j (hj : j < (listedAttrs tbl).length), L.Fits res j (listedAttrs tbl)[j] := by
  rw [processGetAllAttr, foldlM_addAttr_listedAttrs, foldlM_addAttr_ok_iff hL _ 0 _
    (fun _ => isSensitive_of_mem_listedAttrs) (readNat_attrsLen_reset res) hL.maxAttrs_pos]
  simp only [Nat.zero_add]
  constructor <;> rintro ⟨h1, h2⟩ <;> refine ⟨h1, fun j hj => ?_⟩
  · exact (fits_writeNat_attrsLen hL (by omega)).mp (h2 j hj)
  · exact (fits_writeNat_attrsLen hL (by omega)).mpr (h2 j hj)

omit hL in
/-- The listing of a table of one attribute on the small layout, from a zeroed buffer. -/
theorem one_attr_listing_ok_iff : ProtoLayout.small.WF ∧
    ((∃ res', processGetAllAttr ProtoLayout.small [⟨"a", 0, []⟩] Buf.zeros = .ok res') ↔
      (listedAttrs [⟨"a", 0, []⟩]).length < ProtoLayout.small.maxAttrs ∧
      ∀ j (hj : j < (listedAttrs [⟨"a", 0, []⟩]).length),
        ProtoLayout.small.Fits Buf.zeros j (listedAttrs [⟨"a", 0, []⟩])[j]) :=
  ⟨ProtoLayout.small_wf, processGetAllAttr_ok_iff ProtoLayout.small_wf⟩

omit hL in
/-- The bounds `add_attr` enforces, at three inputs on the small layout
(`CTL_PROTO_MAX_ATTRS = 2`, `CTL_ATTR_VALUE_MAX = 4`): two attributes, which the array
holds, stop at the `attrs_len` assertion; a five-byte value passes the assertions and
is copied past `any_value`; and whether one empty value stops at the `value_len`
assertion depends on the stale `value_len` the buffer held. -/
theorem processGetAllAttr_bounds_diverge :
    processGetAllAttr ProtoLayout.small [⟨"a", 0, []⟩, ⟨"b", 0, []⟩] Buf.zeros =
      .error .attrsLen ∧
    processGetAllAttr ProtoLayout.small [⟨"a", 0, [0, 0, 0, 0, 0]⟩] Buf.zeros =
      .error .overflow ∧
    (∃ b, processGetAllAttr ProtoLayout.small [⟨"a", 0, []⟩] Buf.zeros = .ok b) ∧
    processGetAllAttr ProtoLayout.small [⟨"a", 0, []⟩]
      (Buf.zeros.writeNat (ProtoLayout.small.attrAt 0 + ProtoLayout.small.valueLenOff) 8 4) =
      .error .valueLen :=
  ⟨rfl, rfl, ⟨_, rfl⟩, rfl⟩

/-- The bytes `process_get_all_attr` leaves as they were: all but `attrs_len` and the
entries it fills. -/
theorem processGetAllAttr_frame (h : processGetAllAttr L tbl res = .ok res') :
    ∀ p, (p < L.attrsLenOff ∨ L.attrsLenOff + 8 ≤ p) →
      (p < L.attrsOff ∨ L.attrAt (listedAttrs tbl).length ≤ p) → res' p = res p := by
  rw [processGetAllAttr, foldlM_addAttr_listedAttrs] at h
  obtain ⟨-, -, hf⟩ := foldlM_addAttr_ok hL _ 0 _ _
    (fun _ => isSensitive_of_mem_listedAttrs) (readNat_attrsLen_reset res) hL.maxAttrs_pos h
  intro p hp1 hp2
  rw [hf p hp1 (by simpa [ProtoLayout.attrAt] using hp2)]
  exact writeNat_apply_of_apart hp1

/-- **What `process_get_all_attr` stores**: `attrs_len` counts the listed attributes,
`attrs` holds them in order, and every other byte is as it was. -/
theorem processGetAllAttr_ok (h : processGetAllAttr L tbl res = .ok res') :
    res'.readNat L.attrsLenOff 8 = (listedAttrs tbl).length ∧
    (∀ j (hj : j < (listedAttrs tbl).length), L.EntryHolds res' j (listedAttrs tbl)[j]) ∧
    ∀ p, (p < L.attrsLenOff ∨ L.attrsLenOff + 8 ≤ p) →
      (p < L.attrsOff ∨ L.attrAt (listedAttrs tbl).length ≤ p) → res' p = res p := by
  have hframe := processGetAllAttr_frame hL h
  rw [processGetAllAttr, foldlM_addAttr_listedAttrs] at h
  obtain ⟨h1, h2, -⟩ := foldlM_addAttr_ok hL _ 0 _ _
    (fun _ => isSensitive_of_mem_listedAttrs) (readNat_attrsLen_reset res) hL.maxAttrs_pos h
  exact ⟨by rw [h1, Nat.zero_add], fun j hj => by simpa using h2 j hj, hframe⟩

omit hL in
/-- Listing a table that holds the key and one other attribute, on the small layout. -/
theorem key_left_out_of_listing : ∃ res', ProtoLayout.small.WF ∧
    processGetAllAttr ProtoLayout.small [⟨"tls.key", 2, [1]⟩, ⟨"a", 0, []⟩] Buf.zeros =
      .ok res' ∧
    res'.readNat ProtoLayout.small.attrsLenOff 8 =
      (listedAttrs [⟨"tls.key", 2, [1]⟩, ⟨"a", 0, []⟩]).length ∧
    (∀ j (hj : j < (listedAttrs [⟨"tls.key", 2, [1]⟩, ⟨"a", 0, []⟩]).length),
      ProtoLayout.small.EntryHolds res' j (listedAttrs [⟨"tls.key", 2, [1]⟩, ⟨"a", 0, []⟩])[j]) ∧
    ∀ p, (p < ProtoLayout.small.attrsLenOff ∨ ProtoLayout.small.attrsLenOff + 8 ≤ p) →
      (p < ProtoLayout.small.attrsOff ∨
        ProtoLayout.small.attrAt (listedAttrs [⟨"tls.key", 2, [1]⟩, ⟨"a", 0, []⟩]).length ≤ p) →
      res' p = Buf.zeros p :=
  have h : processGetAllAttr ProtoLayout.small [⟨"tls.key", 2, [1]⟩, ⟨"a", 0, []⟩] Buf.zeros =
      .ok _ := rfl
  ⟨_, ProtoLayout.small_wf, h, processGetAllAttr_ok ProtoLayout.small_wf h⟩

/-- `process_get_all_attr` leaves the message's `type` as it was. -/
theorem processGetAllAttr_readNat_type (h : processGetAllAttr L tbl res = .ok res') :
    res'.readNat L.typeOff 4 = res.readNat L.typeOff 4 := by
  have hf := processGetAllAttr_frame hL h
  rw [processGetAllAttr, foldlM_addAttr_listedAttrs] at h
  obtain ⟨hlt, -⟩ := (foldlM_addAttr_ok_iff hL _ 0 _ (fun _ => isSensitive_of_mem_listedAttrs)
    (readNat_attrsLen_reset res) hL.maxAttrs_pos).mp ⟨_, h⟩
  have h1 := hL.type_attrsLen; have h2 := hL.type_attrs
  simp only [ProtoLayout.apart_iff] at h1 h2
  have := ProtoLayout.attrAt_le_attrAt (L := L)
    (show (listedAttrs tbl).length ≤ L.maxAttrs by omega)
  have : L.attrAt L.maxAttrs = L.attrsOff + L.maxAttrs * L.attrSize := rfl
  have : L.attrsOff ≤ L.attrAt (listedAttrs tbl).length := Nat.le_add_right _ _
  exact readNat_congr fun p _ _ => hf p (by omega) (by omega)

variable {name : String}

/-- **`GetAttrReq` for the sensitive name** is rejected with `EACCES`. -/
theorem processGetAttr_rej_of_isSensitive (hs : isSensitive name = true) :
    (processGetAttr L tbl name res).readNat L.typeOff 4 = L.typeCode .getAttrRej ∧
    (processGetAttr L tbl name res).readNat L.rejOff 4 = EACCES := by
  have h := hL.type_rej; simp only [ProtoLayout.apart_iff] at h
  rw [processGetAttr_of_isSensitive hs, readNat_writeNat_of_apart (by omega),
    readNat_writeNat_of_lt (hL.typeCode_lt _), readNat_writeNat_of_lt (by decide)]
  exact ⟨rfl, rfl⟩

/-- **The rejection of the key hides its value, not its type.** For the sensitive name,
the response's `any_value` is all zero, while its `value_type` holds the type of the key
the lookup found: on every layout whose `rej_errno` lies apart from both, as it does when
`name` comes first in `struct ctl_proto_attr`. -/
theorem processGetAttr_key_type {a : Attr} (hs : isSensitive name = true)
    (ha : xcmAttrGet tbl name L.valueMax = .ok a)
    (ht : Apart L.rejOff 4 (L.cfmOff + L.valueTypeOff) 4)
    (hv : Apart L.rejOff 4 (L.cfmOff + L.valueOff) L.valueMax) :
    (processGetAttr L tbl name res).read (L.cfmOff + L.valueOff) L.valueMax =
      List.replicate L.valueMax 0 ∧
    (processGetAttr L tbl name res).readNat (L.cfmOff + L.valueTypeOff) 4 = a.type % 2 ^ 32 := by
  have h1 := hL.type_cfm; have h2 := hL.valueType_value
  have := hL.valueType_le; have := hL.value_le
  simp only [ProtoLayout.apart_iff] at h1 h2 ht hv
  rw [processGetAttr_of_isSensitive hs, ha]
  refine ⟨?_, ?_⟩
  · have h := @read_write_self (res.writeNat (L.cfmOff + L.valueTypeOff) 4 a.type)
      (L.cfmOff + L.valueOff) (List.replicate L.valueMax 0)
    rw [List.length_replicate] at h
    rw [read_writeNat_of_apart (by omega), read_writeNat_of_apart (by omega), zero, h]
  · rw [readNat_writeNat_of_apart (by omega), readNat_writeNat_of_apart (by omega), zero,
      readNat_write_of_apart (by simp; omega), readNat_writeNat_self]; rfl

/-- **`GetAttrReq` for a found attribute** is confirmed with its type, value and length. -/
theorem processGetAttr_of_ok {a : Attr} (hs : isSensitive name = false)
    (ha : xcmAttrGet tbl name L.valueMax = .ok a) :
    (processGetAttr L tbl name res).readNat L.typeOff 4 = L.typeCode .getAttrCfm ∧
    (processGetAttr L tbl name res).readNat (L.cfmOff + L.valueTypeOff) 4 = a.type % 2 ^ 32 ∧
    (processGetAttr L tbl name res).read (L.cfmOff + L.valueOff) a.value.length = a.value ∧
    (processGetAttr L tbl name res).readNat (L.cfmOff + L.valueLenOff) 8 = a.value.length := by
  have hv := (xcmAttrGet_ok ha).2.2
  have h1 := hL.type_cfm; have h2 := hL.valueType_value; have h3 := hL.valueType_valueLen
  have h4 := hL.value_valueLen
  have := hL.valueType_le; have := hL.value_le; have := hL.valueLen_le
  simp only [ProtoLayout.apart_iff] at h1 h2 h3 h4
  have hvl : a.value.length < 2 ^ (8 * 8) := by have := hL.valueMax_lt; omega
  simp only [processGetAttr, hs, ha, if_false, Bool.false_eq_true]
  refine ⟨?_, ?_, ?_, readNat_writeNat_of_lt hvl⟩
  · rw [readNat_writeNat_of_apart (by omega), readNat_writeNat_of_lt (hL.typeCode_lt _)]
  · rw [readNat_writeNat_of_apart (by omega), readNat_writeNat_of_apart (by omega),
      readNat_write_of_apart (by omega), readNat_writeNat_self]; rfl
  · rw [read_writeNat_of_apart (by omega), read_writeNat_of_apart (by omega), read_write_self]

/-- **`GetAttrReq` for a name the lookup fails on** is rejected with the lookup's
`errno`. -/
theorem processGetAttr_of_error {e : Nat} (hs : isSensitive name = false)
    (he : xcmAttrGet tbl name L.valueMax = .error e) :
    (processGetAttr L tbl name res).readNat L.typeOff 4 = L.typeCode .getAttrRej ∧
    (processGetAttr L tbl name res).readNat L.rejOff 4 = e := by
  have h := hL.type_rej; simp only [ProtoLayout.apart_iff] at h
  have he' : e < 2 ^ (8 * 4) := by rcases xcmAttrGet_error he with rfl | rfl <;> decide
  simp only [processGetAttr, hs, he, if_false, Bool.false_eq_true]
  rw [readNat_writeNat_of_apart (by omega), readNat_writeNat_of_lt (hL.typeCode_lt _),
    readNat_writeNat_of_lt he']
  exact ⟨rfl, rfl⟩

end Handlers

end Xcm
