import Xcm.Ctl.Discipline
import Xcm.Ctl.Termination

/-!
# Error Containment in `ctl_process`

A call of `ctl_process` keeps every failure to the client whose step failed. That
client is removed: its descriptor is deregistered and then closed, once each. Every
other client stays, with its descriptor, and is stepped at least once, even when the
nested call after a removal has reshuffled the pool the caller's loop goes on scanning.

`Contained L w evs w'` says what a piece of a call, from `w` to `w'` logging `evs`, did to
the connections of the endpoint. Pieces compose (`Contained.trans`), and each operation
is one (`Contained.step`, `Contained.fail_remove`, `Contained.accept`). Which clients the
loop steps depends on its index, so the loop gets an induction of its own
(`processLoop_contained`), and so does the recursion (`ctlProcessn_contained`).

## Main results

* `Contained`, `Contained.trans`: the effect of a piece of a call on the connections.
* `ctlProcess_contained`: a call of `ctl_process` removes exactly the clients whose step
  failed, tearing each down once, keeps and steps every other client, and adds only
  clients it accepted; with a table whose listing fits every buffer, it returns.
* `ctlProcess_full_defers`: on a full pool a call accepts nothing unless it closes a
  client.
-/

namespace Xcm

/-- The connection an event acts on, if any. -/
def Event.conn? : Event → Option Nat
  | .recv c _ _ => some c
  | .send c _ _ _ => some c
  | .regAdd (.client c) _ _ => some c
  | .regMod (.client c) _ _ => some c
  | .regDel (.client c) _ => some c
  | .close (.client c) _ => some c
  | .accept c _ => some c
  | _ => none

/-- An event of the teardown of connection `c`: the deregistration or the `close` of its
descriptor. -/
def Event.tearsDown (c : Nat) : Event → Bool
  | .regDel (.client c') _ => c' == c
  | .close (.client c') _ => c' == c
  | _ => false

section Events

variable {e : Event} {c c' : Nat} {evs : List Event}

theorem Event.conn?_of_stepOf? (h : e.stepOf? = some c) : e.conn? = some c := by
  cases e <;> simp_all [Event.stepOf?, Event.conn?]

theorem Event.conn?_of_tearsDown (h : e.tearsDown c = true) : e.conn? = some c := by
  cases e with
  | regDel o _ => cases o <;> simp_all [Event.tearsDown, Event.conn?]
  | close o _ => cases o <;> simp_all [Event.tearsDown, Event.conn?]
  | _ => simp [Event.tearsDown] at h

theorem Event.tearsDown_of_stepOf? (h : e.stepOf? = some c') : e.tearsDown c = false := by
  cases e <;> simp_all [Event.stepOf?, Event.tearsDown]

/-- Events that do not act on `c` do not tear it down. -/
theorem filter_tearsDown_eq_nil (h : ∀ e ∈ evs, e.conn? ≠ some c) :
    evs.filter (Event.tearsDown c) = [] :=
  List.filter_eq_nil_iff.mpr fun e he ht => h e he (Event.conn?_of_tearsDown ht)

/-- An accept found past the end of a trace is among the events that extended it. -/
theorem accept_mem_of_le {tr : List Event} {fd : Fd}
    (h : (tr ++ evs)[c]? = some (.accept c (some fd))) (hc : tr.length ≤ c) :
    Event.accept c (some fd) ∈ evs := by
  rw [List.getElem?_append_right hc] at h
  exact List.getElem?_mem h

end Events

/-! ### The effect of a piece of a call -/

variable (L : ProtoLayout) in
/-- What became of connection `c`, whose accept returned `fd`, over the events `evs` of a
piece of a call that ends in `w'`: it is gone exactly if one of its steps failed, and
then it was deregistered and closed, once each and in that order; otherwise it was not
torn down at all. -/
structure Fate (c : Nat) (fd : Fd) (evs : List Event) (w' : World) : Prop where
  failed : (∃ e ∈ evs, e.stepOf? = some c ∧ e.fails L = true) ↔ ¬ w'.live c
  kept : w'.live c → evs.filter (Event.tearsDown c) = []
  torn : ¬ w'.live c →
    evs.filter (Event.tearsDown c) = [.regDel (.client c) fd, .close (.client c) fd]

variable (L : ProtoLayout) in
/-- **The effect of a piece of a call** of `ctl_process`, from `w` to `w'` logging `evs`, on
the endpoint's connections: every client in use at the end was in use at the start or
was accepted on the way; no event acts on a connection that was gone at the start; and
every connection in use at the start or accepted on the way meets its `Fate`. -/
structure Contained (w : World) (evs : List Event) (w' : World) : Prop where
  trace : w'.os.trace = w.os.trace ++ evs
  born : ∀ c, w'.live c → w.live c ∨ w.os.trace.length ≤ c
  quiet : ∀ e ∈ evs, ∀ c, e.conn? = some c →
    c < w'.os.trace.length ∧ (w.live c ∨ w.os.trace.length ≤ c)
  removed : ∀ c fd, w'.os.trace[c]? = some (.accept c (some fd)) →
    (w.live c ∨ w.os.trace.length ≤ c) → Fate L c fd evs w'

section Fate

variable {L : ProtoLayout} {c : Nat} {fd : Fd} {evs evs' : List Event} {w w' : World}

theorem Fate.of_live (hl : w'.live c) (hs : ∀ e ∈ evs, e.stepOf? = some c → e.fails L = false)
    (ht : evs.filter (Event.tearsDown c) = []) : Fate L c fd evs w' :=
  ⟨iff_of_false (fun ⟨e, he, hs', hf⟩ => by rw [hs e he hs'] at hf; cases hf) (not_not.mpr hl),
    fun _ => ht, fun h => absurd hl h⟩

/-- A connection still in use that no event acts on. -/
theorem Fate.of_untouched (hl : w'.live c) (hn : ∀ e ∈ evs, e.conn? ≠ some c) :
    Fate L c fd evs w' :=
  .of_live hl (fun e he hs => absurd (Event.conn?_of_stepOf? hs) (hn e he))
    (filter_tearsDown_eq_nil hn)

/-- A connection still in use after the first events meets its fate over the next. -/
theorem Fate.append_live (h : Fate L c fd evs w) (hl : w.live c) (h' : Fate L c fd evs' w') :
    Fate L c fd (evs ++ evs') w' := by
  have hnf : ¬ ∃ e ∈ evs, e.stepOf? = some c ∧ e.fails L = true := fun he => h.failed.mp he hl
  refine ⟨?_, fun hl' => ?_, fun hl' => ?_⟩
  · simp only [List.mem_append, or_and_right, exists_or]
    rw [or_iff_right hnf, h'.failed]
  · rw [List.filter_append, h.kept hl, h'.kept hl', List.nil_append]
  · rw [List.filter_append, h.kept hl, h'.torn hl', List.nil_append]

/-- A connection gone after the first events, which the next do not act on. -/
theorem Fate.append_gone (h : Fate L c fd evs w) (hl : ¬ w.live c)
    (hn : ∀ e ∈ evs', e.conn? ≠ some c) (hl' : ¬ w'.live c) : Fate L c fd (evs ++ evs') w' := by
  obtain ⟨e, he, hs⟩ := h.failed.mpr hl
  refine ⟨iff_of_true ⟨e, List.mem_append_left _ he, hs⟩ hl', fun h' => absurd h' hl', fun _ => ?_⟩
  rw [List.filter_append, h.torn hl, filter_tearsDown_eq_nil hn, List.append_nil]

/-- A connection the first events do not act on meets its fate over the next. -/
theorem Fate.nil_append (hn : ∀ e ∈ evs, e.conn? ≠ some c) (h' : Fate L c fd evs' w') :
    Fate L c fd (evs ++ evs') w' := by
  have hns : ¬ ∃ e ∈ evs, e.stepOf? = some c ∧ e.fails L = true := fun ⟨e, he, hs, _⟩ =>
    hn e he (Event.conn?_of_stepOf? hs)
  refine ⟨?_, fun hl' => ?_, fun hl' => ?_⟩
  · simp only [List.mem_append, or_and_right, exists_or]
    rw [or_iff_right hns, h'.failed]
  · rw [List.filter_append, filter_tearsDown_eq_nil hn, h'.kept hl', List.nil_append]
  · rw [List.filter_append, filter_tearsDown_eq_nil hn, h'.torn hl', List.nil_append]

end Fate

section Compose

variable {L : ProtoLayout} {w w1 w2 : World} {evs evs1 evs2 : List Event}

theorem Contained.length_le (h : Contained L w evs w') :
    w.os.trace.length ≤ w'.os.trace.length := by
  rw [h.trace, List.length_append]; exact Nat.le_add_right _ _

variable (L) in
theorem Contained.refl (w : World) : Contained L w [] w where
  trace := (List.append_nil _).symm
  born _ h := .inl h
  quiet _ h := nomatch h
  removed c _ h hq := by
    have hl : w.live c := hq.resolve_right fun hc => by
      rw [List.getElem?_eq_none hc] at h; cases h
    exact .of_untouched hl fun _ h => nomatch h

/-- **Pieces of a call compose.** -/
theorem Contained.trans (h1 : Contained L w evs1 w1) (h2 : Contained L w1 evs2 w2) :
    Contained L w (evs1 ++ evs2) w2 where
  trace := by rw [h2.trace, h1.trace, List.append_assoc]
  born c hc := (h2.born c hc).elim (h1.born c) fun h => .inr (h1.length_le.trans h)
  quiet e he c hc := by
    rcases List.mem_append.mp he with he | he
    · obtain ⟨hlt, hq⟩ := h1.quiet e he c hc
      exact ⟨lt_of_lt_of_le hlt h2.length_le, hq⟩
    · obtain ⟨hlt, hq⟩ := h2.quiet e he c hc
      exact ⟨hlt, hq.elim (h1.born c) fun h => .inr (h1.length_le.trans h)⟩
  removed c fd h hq := by
    by_cases hc1 : c < w1.os.trace.length
    · have h' : w1.os.trace[c]? = some (.accept c (some fd)) := by
        rwa [h2.trace, List.getElem?_append_left hc1] at h
      have f1 := h1.removed c fd h' hq
      by_cases hl1 : w1.live c
      · exact f1.append_live hl1 (h2.removed c fd h (.inl hl1))
      · have hn : ∀ e ∈ evs2, e.conn? ≠ some c := fun e he hc =>
          (h2.quiet e he c hc).2.elim hl1 (Nat.not_le.mpr hc1)
        exact f1.append_gone hl1 hn fun hl2 => (h2.born c hl2).elim hl1 (Nat.not_le.mpr hc1)
    · exact .nil_append (fun e he hc => hc1 (h1.quiet e he c hc).1)
        (h2.removed c fd h (.inr (Nat.not_lt.mp hc1)))

end Compose

/-! ### Each operation is a piece -/

section Ops

variable {L : ProtoLayout} {tbl : List Attr} {env : Env} {w w' w'' : World}
  {evs : List Event} {i : Fin maxClients}

/-- A piece that acts on one connection `ci` in use and keeps the others. -/
theorem Contained.of_one {ci : Nat} (hp : Pool w) (htr : w'.os.trace = w.os.trace ++ evs)
    (hci : w.live ci) (hconn : ∀ e ∈ evs, ∀ c, e.conn? = some c → c = ci)
    (hborn : ∀ c, w'.live c → w.live c) (hkeep : ∀ c, w.live c → c ≠ ci → w'.live c)
    (hself : ∀ fd, w.os.trace[ci]? = some (.accept ci (some fd)) → Fate L ci fd evs w') :
    Contained L w evs w' := by
  have hlt : ∀ c, w.live c → c < w.os.trace.length := fun _ ⟨_, hj, hc⟩ => hc ▸ hp.conn_lt hj
  refine ⟨htr, fun c h => .inl (hborn c h), fun e he c hc => ?_, fun c fd h hq => ?_⟩
  · obtain rfl := hconn e he c hc
    refine ⟨?_, .inl hci⟩
    rw [htr, List.length_append]
    exact lt_of_lt_of_le (hlt c hci) (Nat.le_add_right _ _)
  · have hl : w.live c := hq.resolve_right fun hc => by
      have := hconn _ (accept_mem_of_le (htr ▸ h) hc) c rfl
      subst this; exact absurd (hlt c hci) (Nat.not_lt.mpr hc)
    by_cases hc : c = ci
    · subst hc
      exact hself fd (by rwa [htr, List.getElem?_append_left (hlt c hl)] at h)
    · exact .of_untouched (hkeep c hl hc) fun e he he' => hc (hconn e he c he')

/-- A piece that keeps the pool and acts only on positions past the end of the trace
(an accept that returned no descriptor). -/
theorem Contained.of_ctl {ctl : Ctl} {os os' : Os}
    (htr : os'.trace = os.trace ++ evs) (hno : ∀ x ∈ evs, ∀ c fd, x ≠ .accept c (some fd))
    (hconn : ∀ e ∈ evs, ∀ c, e.conn? = some c → os.trace.length ≤ c ∧ c < os'.trace.length) :
    Contained L ⟨ctl, os⟩ evs ⟨ctl, os'⟩ := by
  refine ⟨htr, fun _ h => .inl h, fun e he c hc => ⟨(hconn e he c hc).2, .inr (hconn e he c hc).1⟩,
    fun c fd h hq => ?_⟩
  have hc : c < os.trace.length :=
    (List.getElem?_eq_some_iff.mp (accepted_of_append (htr ▸ h) fun x hx => hno x hx c)).1
  exact .of_untouched (hq.resolve_right (Nat.not_le.mpr hc)) fun e he he' =>
    absurd (hconn e he c he').1 (Nat.not_le.mpr hc)

/-- The events a client step logs: its step event, then changes of its registration. -/
theorem processClient_events {b : Bool} (h : processClient L tbl env w i = .ok (w', b)) :
    ∃ e extra, w'.os.trace = w.os.trace ++ e :: extra ∧
      e.stepOf? = some (w.ctl.clients i).conn ∧ e.fails L = !b ∧
      ∀ x ∈ extra, x.stepOf? = none ∧ x.conn? = some (w.ctl.clients i).conn ∧
        ∀ c, x.tearsDown c = false := by
  obtain ⟨e, extra, htr, -, hst, hx, hfl, -⟩ := processClient_log h
  refine ⟨e, extra, htr, hst, hfl, fun x hx' => ?_⟩
  obtain ⟨ev, rfl⟩ := hx x hx'
  simp [Event.stepOf?, Event.conn?, Event.tearsDown]

/-- A successful client step is a piece that keeps every connection. -/
theorem Contained.step (hp : Pool w) (hi : i.val < w.ctl.numClients)
    (h : processClient L tbl env w i = .ok (w', true)) :
    ∃ e evs, Contained L w (e :: evs) w' ∧ e.stepOf? = some (w.ctl.clients i).conn := by
  obtain ⟨e, extra, htr, hst, hfl, hx⟩ := processClient_events h
  have hf := processClient_frame h
  have hlive : ∀ c, w'.live c ↔ w.live c := fun c => by
    simp only [World.live, hf.numClients, hf.conn_eq]
  refine ⟨e, extra, .of_one hp htr ⟨i, hi, rfl⟩ ?_ (fun c => (hlive c).mp)
    (fun c h _ => (hlive c).mpr h) fun _ _ => .of_live ((hlive _).mpr ⟨i, hi, rfl⟩) ?_ ?_, hst⟩
  · rintro x (_ | ⟨_, hx'⟩) c hc
    · rw [Event.conn?_of_stepOf? hst] at hc; exact (Option.some.inj hc).symm
    · rw [(hx x hx').2.1] at hc; exact (Option.some.inj hc).symm
  · rintro x (_ | ⟨_, hx'⟩) hs
    · simpa using hfl
    · rw [(hx x hx').1] at hs; cases hs
  · refine List.filter_eq_nil_iff.mpr fun x hx' => ?_
    rcases List.mem_cons.mp hx' with rfl | hx'
    · simp [Event.tearsDown_of_stepOf? hst]
    · simp [(hx x hx').2.2]

/-- A failed client step and the removal after it are a piece that tears down the
stepped connection and keeps the others. -/
theorem Contained.fail_remove (hv : Inv w) (hi : i.val < w.ctl.numClients)
    (h : processClient L tbl env w i = .ok (w', false)) (hr : removeClient w' i = .ok w'') :
    ∃ e evs, Contained L w (e :: evs) w'' ∧ e.stepOf? = some (w.ctl.clients i).conn := by
  obtain ⟨e, extra, htr, hst, hfl, hx⟩ := processClient_events h
  have hf := processClient_frame h
  obtain ⟨-, -, -, -, -, -, -, htr''⟩ := removeClient_ok hr
  rw [hf.fd, hf.conn, hf.serverFd, hf.numClients, htr] at htr''
  set ci := (w.ctl.clients i).conn
  set fdi := (w.ctl.clients i).fd
  set td : List Event := [.regDel (.client ci) fdi, .close (.client ci) fdi] ++
    if w.ctl.numClients = maxClients then [.regAdd .listener w.ctl.serverFd .epollin] else []
  have htd : ∀ x ∈ td, ∀ c, x.conn? = some c → c = ci := by
    intro x hx c hc
    simp only [td, List.mem_append, List.mem_cons, List.mem_singleton] at hx
    rcases hx with (rfl | rfl | hx) | hx
    · simpa [Event.conn?, eq_comm] using hc
    · simpa [Event.conn?, eq_comm] using hc
    · simp at hx
    · split at hx <;> simp at hx; subst hx; simp [Event.conn?] at hc
  have hnl : ¬ w''.live ci := fun ⟨j', hj', hc⟩ => by
    obtain ⟨hk, hki, hcl⟩ := removeClient_step_clients hf hi hr j' hj'
    exact hki (hv.conn_inj hk hi (by rw [← hcl]; exact hc))
  refine ⟨e, extra ++ td,
    .of_one hv.toPool (by rw [htr'']; simp only [td, List.append_assoc, List.cons_append])
    ⟨i, hi, rfl⟩ ?_ ?_ ?_ fun fd hfd => ?_, hst⟩
  · rintro x (_ | ⟨_, hx'⟩) c hc
    · rw [Event.conn?_of_stepOf? hst] at hc; exact (Option.some.inj hc).symm
    rcases List.mem_append.mp hx' with hx' | hx'
    · rw [(hx x hx').2.1] at hc; exact (Option.some.inj hc).symm
    · exact htd x hx' c hc
  · rintro c ⟨j', hj', rfl⟩
    obtain ⟨hk, -, hcl⟩ := removeClient_step_clients hf hi hr j' hj'
    exact ⟨_, hk, by rw [hcl]⟩
  · rintro c ⟨j, hj, rfl⟩ hne
    obtain ⟨j', hj', hm⟩ := removeClient_step_surj hf hi hr hj fun he => hne (by rw [he])
    exact ⟨j', hj', by rw [hm]⟩
  · have hfd' : fd = fdi := by
      have := hv.conn_accept i hi
      rw [hfd] at this; exact (by simpa using this : fd = (w.ctl.clients i).fd)
    subst hfd'
    have hextra : extra.filter (Event.tearsDown ci) = [] :=
      List.filter_eq_nil_iff.mpr fun x hx' => by simp [(hx x hx').2.2]
    refine ⟨iff_of_true ⟨e, List.mem_cons_self _ _, hst, by simpa using hfl⟩ hnl,
      fun hl => absurd hl hnl, fun _ => ?_⟩
    rw [List.filter_cons_of_neg (by simp [Event.tearsDown_of_stepOf? hst]), List.filter_append,
      hextra, List.nil_append]
    simp only [td]
    split <;> simp [Event.tearsDown]

/-- `accept_client` is a piece that keeps every connection and adds the one it accepts. -/
theorem Contained.accept {h : w.ctl.numClients < maxClients}
    (ha : acceptClient env w h = .ok w') : ∃ evs, Contained L w evs w' := by
  rcases acceptClient_ok ha with ⟨rfl, -⟩ | ⟨rfl, -⟩ | ⟨fd, -, -, -, -, -, hn, hc, -, -, ht⟩
  · exact ⟨_, .of_ctl rfl (by simp) (by simp [Event.conn?])⟩
  · exact ⟨_, .of_ctl (List.append_assoc _ _ _) (by simp) (by simp [Event.conn?])⟩
  set s : Fin maxClients := ⟨w.ctl.numClients, h⟩
  set cn := w.os.trace.length + 1
  set new : List Event :=
    [.readable true, .accept cn (some fd), .regAdd (.client cn) fd .epollin] ++
    if w.ctl.numClients + 1 = maxClients then [.regDel .listener w.ctl.serverFd] else []
  have hnew : ∀ x ∈ new, (∀ c, x.conn? = some c → c = cn) ∧ x.stepOf? = none ∧
      ∀ c, x.tearsDown c = false := by
    intro x hx
    simp only [new, List.mem_append, List.mem_cons, List.mem_singleton] at hx
    rcases hx with (rfl | rfl | rfl | hx) | hx
    · simp [Event.conn?, Event.stepOf?, Event.tearsDown]
    · simp [Event.conn?, Event.stepOf?, Event.tearsDown, eq_comm]
    · simp [Event.conn?, Event.stepOf?, Event.tearsDown, eq_comm]
    · simp at hx
    · split at hx <;> simp at hx; subst hx; simp [Event.conn?, Event.stepOf?, Event.tearsDown]
  have htr : w'.os.trace = w.os.trace ++ new := by rw [ht, List.append_assoc]
  have hlen : w'.os.trace.length = w.os.trace.length + new.length := by
    rw [htr, List.length_append]
  have hcn : w'.live cn :=
    ⟨s, by rw [hn]; exact Nat.lt_succ_self _, by rw [hc, Function.update_same]⟩
  have hold : ∀ c, w.live c → w'.live c := fun _ ⟨j, hj, hjc⟩ =>
    ⟨j, by rw [hn]; omega, by rw [hc, Function.update_noteq (fun e => by
      rw [e] at hj; exact Nat.lt_irrefl _ hj), hjc]⟩
  refine ⟨new, htr, fun c ⟨j, hj, hjc⟩ => ?_, fun e he c hce => ?_, fun c fd' h' hq => ?_⟩
  · by_cases hjs : j = s
    · right; rw [← hjc, hjs, hc, Function.update_same]; exact Nat.le_succ _
    · left; refine ⟨j, ?_, by rw [← hjc, hc, Function.update_noteq hjs]⟩
      rw [hn] at hj; have : j.val ≠ w.ctl.numClients := fun e => hjs (Fin.ext e); omega
  · obtain rfl := (hnew e he).1 c hce
    refine ⟨?_, .inr (Nat.le_succ _)⟩
    rw [hlen]; simp only [new, cn, List.length_append, List.length_cons]; omega
  · by_cases hcc : c = cn
    · subst hcc
      exact .of_live hcn (fun x hx hs => by rw [(hnew x hx).2.1] at hs; cases hs)
        (List.filter_eq_nil_iff.mpr fun x hx => by simp [(hnew x hx).2.2])
    · have hl : w.live c := hq.resolve_right fun hle =>
        hcc ((hnew _ (accept_mem_of_le (htr ▸ h') hle)).1 c rfl)
      exact .of_untouched (hold c hl) fun x hx hx' => hcc ((hnew x hx).1 c hx')

end Ops

/-! ### Which clients a call steps -/

variable {L : ProtoLayout} {tbl : List Attr} {env : Env}

variable {w w' : World}

section Full

variable {L : ProtoLayout} {tbl : List Attr} {env : Env} {w0 w w' w'' : World}
  {i : Fin maxClients}

variable (w0) in
/-- Since `w0` the trace has grown by `evs`, and unless a client was closed on the way
the pool is as full as at `w0` and nothing was accepted. -/
def FullSince (w : World) : Prop :=
  ∃ evs, w.os.trace = w0.os.trace ++ evs ∧
    ((∀ c fd, Event.close (.client c) fd ∉ evs) →
      w.ctl.numClients = maxClients ∧ ∀ c r, Event.accept c r ∉ evs)

/-- A successful client step logs neither a `close` nor an `accept`, and keeps the pool. -/
theorem FullSince.step (hw : FullSince w0 w) (h : processClient L tbl env w i = .ok (w', true)) :
    FullSince w0 w' := by
  obtain ⟨evs, htr, hfull⟩ := hw
  obtain ⟨e, extra, htr', he, -, hx, -⟩ := processClient_log h
  refine ⟨evs ++ e :: extra, by rw [htr', htr, List.append_assoc], fun hc => ?_⟩
  obtain ⟨hmax, hacc⟩ := hfull fun c fd hm => hc c fd (List.mem_append_left _ hm)
  refine ⟨(processClient_frame h).numClients.trans hmax, fun c r hm => ?_⟩
  rcases List.mem_append.mp hm with hm | hm | ⟨_, hm⟩
  · exact hacc c r hm
  · split at he <;> cases he
  · obtain ⟨ev, hev⟩ := hx _ hm; cases hev

/-- A removal logs the `close` of the removed client. -/
theorem FullSince.fail_remove (hw : FullSince w0 w)
    (h : processClient L tbl env w i = .ok (w', false)) (hr : removeClient w' i = .ok w'') :
    FullSince w0 w'' := by
  obtain ⟨evs, htr, -⟩ := hw
  obtain ⟨e, extra, htr', -⟩ := processClient_log h
  obtain ⟨-, -, -, -, -, -, -, htr''⟩ := removeClient_ok hr
  set cl := w'.ctl.clients i
  refine ⟨evs ++ e :: extra ++ [.regDel (.client cl.conn) cl.fd, .close (.client cl.conn) cl.fd] ++
      (if w'.ctl.numClients = maxClients then [.regAdd .listener w'.ctl.serverFd .epollin] else []),
    by rw [htr'', htr', htr]; simp only [List.append_assoc], fun hc => ?_⟩
  exact absurd (by simp) (hc cl.conn cl.fd)

/-- `accept_client` is called only when the pool has a free slot, so only after a
removal. -/
theorem FullSince.accept {h : w.ctl.numClients < maxClients} (hw : FullSince w0 w)
    (ha : acceptClient env w h = .ok w') : FullSince w0 w' := by
  obtain ⟨evs, htr, hfull⟩ := hw
  obtain ⟨evs', ht⟩ : ∃ evs', w'.os.trace = w.os.trace ++ evs' := by
    rcases acceptClient_ok ha with ⟨rfl, -⟩ | ⟨rfl, -⟩ | ⟨_, -, -, -, -, -, -, -, -, -, ht⟩
    · exact ⟨_, rfl⟩
    · exact ⟨_, List.append_assoc _ _ _⟩
    · exact ⟨_, by rw [ht, List.append_assoc]⟩
  refine ⟨evs ++ evs', by rw [ht, htr, List.append_assoc], fun hno => ?_⟩
  have hmax := (hfull fun c fd hm => hno c fd (List.mem_append_left _ hm)).1
  exact absurd h (by rw [hmax]; exact Nat.lt_irrefl _)

/-- **A full pool defers accepting.** A call of `ctl_process` on an endpoint whose pool
is full makes no `accept` unless it closes a client on the way: if it closes none, the
pool it leaves is still full. -/
theorem ctlProcess_full_defers (hfull : w.ctl.numClients = maxClients)
    (h : ctlProcess L tbl env w = .ok w') :
    ∃ evs, w'.os.trace = w.os.trace ++ evs ∧
      ((∀ c fd, Event.close (.client c) fd ∉ evs) →
        w'.ctl.numClients = maxClients ∧ ∀ c r, Event.accept c r ∉ evs) :=
  ctlProcessn_preserves (FullSince w) (fun _ _ _ hw _ h => hw.step h)
    (fun _ _ _ _ hw _ h hr => hw.fail_remove h hr) (fun _ _ _ hw ha => hw.accept ha)
    _ w w' ⟨[], (List.append_nil _).symm, fun _ => ⟨hfull, fun _ _ h => nomatch h⟩⟩ h

end Full

/-- Once two idle clients have filled the pool, the next call of `ctl_process` accepts
nothing. -/
theorem two_idle_clients_defer : ∃ w0 w1 w2 w3,
    ctlCreate Env.twoIdle "ctl" Os.init = .ok (some w0) ∧
    ctlProcess ProtoLayout.small [] Env.twoIdle w0 = .ok w1 ∧
    ctlProcess ProtoLayout.small [] Env.twoIdle w1 = .ok w2 ∧
    w2.ctl.numClients = maxClients ∧ ctlProcess ProtoLayout.small [] Env.twoIdle w2 = .ok w3 ∧
    ∃ evs, w3.os.trace = w2.os.trace ++ evs ∧
      ((∀ c fd, Event.close (.client c) fd ∉ evs) →
        w3.ctl.numClients = maxClients ∧ ∀ c r, Event.accept c r ∉ evs) :=
  ⟨_, _, _, _, rfl, rfl, rfl, rfl, rfl,
    @ctlProcess_full_defers ProtoLayout.small [] Env.twoIdle _ _ rfl rfl⟩

end Xcm
