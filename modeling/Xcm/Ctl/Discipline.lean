import Xcm.Ctl.Exchange
import Xcm.Ctl.Invariant
import Xcm.Ctl.HandlerSpec

/-!
# The Exchange Discipline of Every Connection

Every connection the endpoint has accepted keeps to the exchange of `Xcm.Ctl.Exchange`
over whole runs: its part of the trace is a run of the exchange from a connection
waiting for its first request, with the stale bytes its slot held when `accept_client`
put it there (the ghost `Ctl.stale`), which ends in the state of its client while the
connection is in use and in `closed` once it has been removed (`Disc`). From this, the
`recv`s and successful `send`s of a connection alternate, no `recv` is made while a
response is pending, every `send` carries the buffer as the handler of the
connection's last request computed it from the connection's own previous buffer, and a
malformed or unknown request or a failed `send` is followed by nothing but the
`close`.

A pending response is sent by the first `send` that succeeds, and by no other: nothing
makes a `send` succeed, and a connection whose `send`s keep returning `EAGAIN` keeps
its response pending, connected, for ever (`unanswered_request`). Counted over a
connection's part of the trace, the responses sent in full are the requests received,
or one fewer while a response is pending (`reachable_responses_alternate`): the counts
are kept in step with the exchange's state by each of its events (`ConnState.Owes`).

## Main results

* `Disc`, `ctlProcessn_disc`: the discipline and its preservation by `ctl_process`.
* `reachable_exchange`: every reachable endpoint keeps it.
* `reachable_responses_alternate`: requests received and responses sent alternate.
-/

namespace Xcm

variable {L : ProtoLayout} {tbl : List Attr} {env : Env} {w w' w'' : World}

/-! ### Connections of a pool -/

theorem Pool.conn_lt (hp : Pool w) {j : Fin maxClients} (hj : j.val < w.ctl.numClients) :
    (w.ctl.clients j).conn < w.os.trace.length :=
  (List.getElem?_eq_some_iff.mp (hp.conn_accept j hj)).1

/-- Clients in use are different connections. -/
theorem Pool.conn_inj (hp : Pool w) {j k : Fin maxClients} (hj : j.val < w.ctl.numClients)
    (hk : k.val < w.ctl.numClients) (he : (w.ctl.clients j).conn = (w.ctl.clients k).conn) :
    j = k := by
  have h := hp.conn_accept j hj
  rw [he, hp.conn_accept k hk] at h
  exact hp.client_inj j k hj hk (by simp at h; exact h.symm)

/-- A connection the endpoint has accepted: the position `c` of the trace is the accept
that returned its descriptor. -/
def World.accepted (w : World) (c : Nat) : Prop :=
  ∃ fd, w.os.trace[c]? = some (.accept c (some fd))

/-- A connection whose client is in use. -/
def World.live (w : World) (c : Nat) : Prop :=
  ∃ j : Fin maxClients, j.val < w.ctl.numClients ∧ (w.ctl.clients j).conn = c

instance (w : World) (c : Nat) : Decidable (w.live c) :=
  decidable_of_iff
    (¬ ∀ j : Fin maxClients, ¬ (j.val < w.ctl.numClients ∧ (w.ctl.clients j).conn = c))
    (by simp only [not_forall, not_not, World.live])

/-- An accept found in a trace that grew by events other than accepts was there
before. -/
theorem accepted_of_append {tr evs : List Event} {c fd : Nat}
    (h : (tr ++ evs)[c]? = some (.accept c (some fd)))
    (hno : ∀ x ∈ evs, ∀ fd, x ≠ .accept c (some fd)) : tr[c]? = some (.accept c (some fd)) := by
  by_cases hc : c < tr.length
  · rwa [List.getElem?_append_left hc] at h
  · rw [List.getElem?_append_right (by omega)] at h
    exact absurd rfl (hno _ (List.getElem?_mem h) _)

theorem World.accepted.lt {c : Nat} (h : w.accepted c) : c < w.os.trace.length :=
  (List.getElem?_eq_some_iff.mp h.choose_spec).1

/-! ### The invariant -/

variable (L tbl) in
/-- **The exchange discipline**: the part of the trace of a connection in use is a run
of the exchange from a connection waiting for its first request, with the bytes its slot
held at its accept (`Ctl.stale`), to the state of its client, and that of every other
accepted connection such a run to `closed`. -/
structure Disc (w : World) : Prop where
  live : ∀ j : Fin maxClients, j.val < w.ctl.numClients →
    ConnState.run L tbl (.idle (w.ctl.stale (w.ctl.clients j).conn))
      (connTrace (w.ctl.clients j).conn w.os.trace) = some (w.ctl.clients j).connState
  dead : ∀ c, w.accepted c → ¬ w.live c →
    ConnState.run L tbl (.idle (w.ctl.stale c)) (connTrace c w.os.trace) = some .closed

/-- The events a client step logs are not another connection's. -/
theorem filter_onConn_step {e : Event} {extra : List Event} {c c' fd : Nat}
    (he : e.stepOf? = some c')
    (hx : ∀ x ∈ extra, ∃ ev, x = .regMod (.client c') fd ev) :
    (e :: extra).filter (Event.onConn c) = if c' = c then [e] else [] := by
  have hextra : extra.filter (Event.onConn c) = [] := List.filter_eq_nil_iff.mpr fun x hx' => by
    obtain ⟨ev, rfl⟩ := hx x hx'; simp [Event.onConn]
  have hon : e.onConn c = (c' == c) := by
    cases e <;> simp only [Event.stepOf?, reduceCtorEq, Option.some.injEq] at he <;>
      simp only [he, Event.onConn]
  by_cases hcc : c' = c <;> simp [List.filter_cons, hextra, hon, hcc]

/-- A connection accepted after the end of a trace has no part of it. -/
theorem connTrace_of_le {c : Nat} {tr evs : List Event} (hc : tr.length ≤ c)
    (hon : ∀ x ∈ evs, x.onConn c = false) : connTrace c (tr ++ evs) = [] := by
  rw [connTrace, List.drop_append_eq_append_drop, List.drop_eq_nil_of_le hc, List.nil_append]
  exact List.filter_eq_nil_iff.mpr fun x hx => by simp [hon x (List.mem_of_mem_drop hx)]

/-- The events `remove_client` logs are the removed connection's `close` and events of no
connection's exchange. -/
theorem filter_onConn_remove {c c' fd sfd : Nat} {full : Prop} [Decidable full] :
    ([Event.regDel (.client c') fd, .close (.client c') fd] ++
      (if full then [Event.regAdd .listener sfd .epollin] else [])).filter (Event.onConn c) =
      if c' = c then [Event.close (.client c') fd] else [] := by
  by_cases hcc : c' = c <;> by_cases full <;> simp [Event.onConn, hcc, *]

section Preservation

variable {i : Fin maxClients}

/-- A successful client step keeps the discipline: its event is one step of the
exchange of the stepped connection, and no other connection's. -/
theorem Disc.step (hv : Inv w) (hd : Disc L tbl w) (hi : i.val < w.ctl.numClients)
    (h : processClient L tbl env w i = .ok (w', true)) : Disc L tbl w' := by
  obtain ⟨e, extra, htr, -, hst, hx, -, hstep⟩ := processClient_log h
  have hf := processClient_frame h
  have hnew : ∀ c, c ≤ w.os.trace.length → connTrace c w'.os.trace =
      connTrace c w.os.trace ++ if (w.ctl.clients i).conn = c then [e] else [] := fun c hc => by
    rw [htr, connTrace_append hc, filter_onConn_step hst hx]
  have hno : ∀ x ∈ e :: extra, ∀ c fd, x ≠ .accept c (some fd) := by
    rintro x (_ | ⟨_, hx'⟩) c fd rfl
    · simp [Event.stepOf?] at hst
    · obtain ⟨ev, hev⟩ := hx _ hx'; cases hev
  constructor
  · intro j hj
    rw [hf.numClients] at hj
    rw [hf.stale, hf.conn_eq j, hnew _ (hv.conn_lt hj).le]
    by_cases hji : j = i
    · subst hji
      rw [if_pos rfl, ConnState.run_append, hd.live j hj, Option.some_bind,
        ConnState.run_singleton, hstep, if_pos rfl]
    · have hne : (w.ctl.clients i).conn ≠ (w.ctl.clients j).conn := fun he =>
        hji (hv.conn_inj hj hi he.symm)
      rw [if_neg hne, List.append_nil, hf.other j hji]
      exact hd.live j hj
  · rintro c ⟨fd, hc⟩ hnl
    have hacc : w.accepted c := ⟨fd, accepted_of_append (htr ▸ hc) fun x hx' => hno x hx' c⟩
    have hnl' : ¬ w.live c := fun ⟨j, hj, hjc⟩ =>
      hnl ⟨j, hf.numClients ▸ hj, (hf.conn_eq j).trans hjc⟩
    rw [hf.stale, hnew c hacc.lt.le, if_neg (fun he => hnl' ⟨i, hi, he⟩), List.append_nil]
    exact hd.dead c hacc hnl'

/-- A failed client step and the removal after it keep the discipline: the removed
connection's exchange ends with the `close` in `closed`, and the clients that stay are
the other connections, whatever slots they move to. -/
theorem Disc.fail_remove (hv : Inv w) (hd : Disc L tbl w) (hi : i.val < w.ctl.numClients)
    (h : processClient L tbl env w i = .ok (w', false)) (hr : removeClient w' i = .ok w'') :
    Disc L tbl w'' := by
  obtain ⟨e, extra, htr, -, hst, hx, -, hstep⟩ := processClient_log h
  have hf := processClient_frame h
  obtain ⟨-, -, -, -, -, -, -, htr''⟩ := removeClient_ok hr
  rw [hf.fd, hf.conn, hf.serverFd, hf.numClients] at htr''
  set ci := (w.ctl.clients i).conn
  have hnew : ∀ c, c ≤ w.os.trace.length → connTrace c w''.os.trace =
      connTrace c w.os.trace ++ (if ci = c then [e] else []) ++
        (if ci = c then [.close (.client ci) (w.ctl.clients i).fd] else []) := fun c hc => by
    rw [htr'', List.append_assoc, htr,
      connTrace_append (show c ≤ (w.os.trace ++ e :: extra).length by simp; omega),
      connTrace_append hc, filter_onConn_step hst hx, filter_onConn_remove]
  have hno : ∀ x ∈ e :: extra ++ ([Event.regDel (.client ci) (w.ctl.clients i).fd,
      .close (.client ci) (w.ctl.clients i).fd] ++
      (if w.ctl.numClients = maxClients then [Event.regAdd .listener w.ctl.serverFd .epollin]
        else [])), ∀ c fd, x ≠ .accept c (some fd) := by
    intro x hx' c fd hxe
    subst hxe
    simp only [List.mem_append, List.mem_cons] at hx'
    rcases hx' with (rfl | hx') | hx'
    · simp [Event.stepOf?] at hst
    · obtain ⟨ev, hev⟩ := hx _ hx'; cases hev
    · split at hx' <;> simp at hx'
  have hmoved := removeClient_step_clients hf hi hr
  have hstale : w''.ctl.stale = w.ctl.stale := (removeClient_stale hr).trans hf.stale
  constructor
  · intro j' hj'
    obtain ⟨hk, hki, hc⟩ := hmoved j' hj'
    have hne : ci ≠ (w.ctl.clients (w.ctl.movedFrom i j')).conn := fun he =>
      hki (hv.conn_inj hk hi he.symm)
    rw [hstale, hc, hnew _ (hv.conn_lt hk).le, if_neg hne, if_neg hne, List.append_nil,
      List.append_nil]
    exact hd.live _ hk
  · rintro c ⟨fd, hc⟩ hnl
    have hacc : w.accepted c := ⟨fd, accepted_of_append (by
      rw [htr'', List.append_assoc, htr, List.append_assoc] at hc; exact hc)
      fun x hx' => hno x hx' c⟩
    rw [hstale]
    by_cases hci : ci = c
    · subst hci
      rw [hnew _ hacc.lt.le, if_pos rfl, if_pos rfl, ConnState.run_append, ConnState.run_append,
        hd.live i hi, Option.some_bind, ConnState.run_singleton, hstep, if_neg Bool.false_ne_true,
        Option.some_bind, ConnState.run_singleton]
      rfl
    · have hnl' : ¬ w.live c := by
        rintro ⟨j, hj, rfl⟩
        obtain ⟨j', hj', hm⟩ := removeClient_step_surj hf hi hr hj fun he => hci (by rw [he])
        exact hnl ⟨j', hj', by rw [hm]⟩
      rw [hnew c hacc.lt.le, if_neg hci, if_neg hci, List.append_nil, List.append_nil]
      exact hd.dead c hacc hnl'

/-- Calls that log no exchange event and no accept keep the discipline. -/
theorem Disc.extend {c : Ctl} {os os' : Os} {evs : List Event} (hp : Pool ⟨c, os⟩)
    (hd : Disc L tbl ⟨c, os⟩) (htr : os'.trace = os.trace ++ evs)
    (hon : ∀ x ∈ evs, ∀ c, x.onConn c = false) (hno : ∀ x ∈ evs, ∀ c fd, x ≠ .accept c (some fd)) :
    Disc L tbl ⟨c, os'⟩ := by
  have hnew : ∀ c', c' ≤ os.trace.length → connTrace c' os'.trace = connTrace c' os.trace :=
    fun c' hc => by
      rw [htr, connTrace_append hc, List.filter_eq_nil_iff.mpr fun x hx => by simp [hon x hx],
        List.append_nil]
  refine ⟨fun j hj => ?_, fun c' ⟨fd, hc⟩ hnl => ?_⟩
  · rw [hnew _ (hp.conn_lt hj).le]; exact hd.live j hj
  · have hacc : World.accepted ⟨c, os⟩ c' :=
      ⟨fd, accepted_of_append (htr ▸ hc) fun x hx => hno x hx c'⟩
    rw [hnew _ hacc.lt.le]; exact hd.dead c' hacc hnl

/-- `accept_client` keeps the discipline: a new connection starts its exchange waiting
for a request, with the buffer its slot's previous occupant left, which is what the
accept records as its start buffer. -/
theorem Disc.accept {h : w.ctl.numClients < maxClients} (hv : Inv w) (hd : Disc L tbl w)
    (ha : acceptClient env w h = .ok w') : Disc L tbl w' := by
  rcases acceptClient_ok ha with ⟨rfl, -⟩ | ⟨rfl, -⟩ | ⟨fd, -, -, -, -, -, hn, hc, -, -, ht⟩
  · exact Disc.extend hv.toPool hd rfl (by simp [Event.onConn]) (by simp)
  · exact Disc.extend hv.toPool hd (List.append_assoc _ _ _) (by simp [Event.onConn]) (by simp)
  set s : Fin maxClients := ⟨w.ctl.numClients, h⟩
  set cn := w.os.trace.length + 1
  set new : List Event :=
    [.readable true, .accept cn (some fd), .regAdd (.client cn) fd .epollin] ++
    if w.ctl.numClients + 1 = maxClients then [.regDel .listener w.ctl.serverFd] else []
  have hon : ∀ x ∈ new, ∀ c, x.onConn c = false := by
    intro x hx c; simp only [new, List.mem_append, List.mem_cons] at hx
    rcases hx with (rfl | rfl | rfl | hx) | hx <;> try rfl
    · simp at hx
    · split at hx <;> simp at hx; subst hx; rfl
  have hnew : ∀ c, c ≤ w.os.trace.length → connTrace c w'.os.trace = connTrace c w.os.trace :=
    fun c hc => by
      rw [ht, List.append_assoc, connTrace_append hc,
        List.filter_eq_nil_iff.mpr fun x hx => by simp [hon x hx], List.append_nil]
  have hcs : w'.ctl.clients s = { w.ctl.clients s with
      fd := fd, isResponsePending := false, conn := cn } := by rw [hc, Function.update_same]
  have hold : ∀ j : Fin maxClients, j ≠ s → w'.ctl.clients j = w.ctl.clients j := fun j hj => by
    rw [hc, Function.update_noteq hj]
  have hst : w'.ctl.stale = Function.update w.ctl.stale cn (w.ctl.clients s).pendingResponse :=
    ((acceptClient_stale ha).resolve_left fun h' => by omega).2
  refine ⟨fun j hj => ?_, fun c ⟨fd', hc'⟩ hnl => ?_⟩
  · by_cases hjs : j = s
    · subst hjs
      rw [hcs, hst, Function.update_same, ht, List.append_assoc,
        connTrace_of_le (by simp [cn]) fun x hx => hon x hx _]
      simp [Client.connState]
    · have hj' : j.val < w.ctl.numClients := by
        rw [hn] at hj; have : j.val ≠ w.ctl.numClients := fun e => hjs (Fin.ext e); omega
      rw [hold j hjs, hst, Function.update_noteq (by have := hv.conn_lt hj'; omega),
        hnew _ (hv.conn_lt hj').le]
      exact hd.live j hj'
  · have hcn : c ≠ cn := fun he => hnl ⟨s, by rw [hn]; exact Nat.lt_succ_self _, by rw [hcs, he]⟩
    have hacc : w.accepted c :=
      ⟨fd', accepted_of_append (by rw [ht, List.append_assoc] at hc'; exact hc')
        fun x hx fd'' hxe => by
          subst hxe; simp only [new, List.mem_append, List.mem_cons] at hx
          rcases hx with (he | he | he | hx) | hx
          · cases he
          · cases he; exact hcn rfl
          · cases he
          · simp at hx
          · split at hx <;> simp at hx⟩
    have hnl' : ¬ w.live c := fun ⟨j, hj, hjc⟩ => hnl ⟨j, by rw [hn]; omega, by
      rw [hold j (fun e => by rw [e] at hj; exact Nat.lt_irrefl _ hj), hjc]⟩
    rw [hst, Function.update_noteq hcn, hnew _ hacc.lt.le]; exact hd.dead c hacc hnl'

end Preservation

/-- A new endpoint has accepted no connection yet. -/
theorem Disc.create {path : String} (h : ctlCreate env path Os.init = .ok (some w)) :
    Disc L tbl w := by
  obtain ⟨os, fd, hc, rfl⟩ := ctlCreate_ok h
  refine ⟨fun j hj => absurd hj (Nat.not_lt_zero _), fun c ⟨fd', hc'⟩ _ => ?_⟩
  have hm := List.getElem?_mem hc'
  simp only [Os.log_trace, List.mem_append, List.mem_singleton, reduceCtorEq, or_false] at hm
  have := createUx_accept
    (hc ▸ hm : Event.accept c (some fd') ∈ (createUx env path Os.init).1.trace)
  simp [Os.init] at this

/-- A client step that receives a whole `GetAllAttrReq` queues a response whose `type`
is whatever the buffer held before: `process_get_all_attr` stores no tag. -/
theorem processClient_getAllAttr_type (hL : L.WF) {i : Fin maxClients} {req : Request}
    (h : processClient L tbl env w i = .ok (w', true))
    (hp : (w.ctl.clients i).isResponsePending = false)
    (hr : env.recv w.os (w.ctl.clients i).fd = .data L.size req)
    (ht : req.type = L.typeCode .getAllAttrReq) :
    (w'.ctl.clients i).pendingResponse.readNat L.typeOff 4 =
      (w.ctl.clients i).pendingResponse.readNat L.typeOff 4 := by
  obtain ⟨e, -, -, he, -, -, -, hstep⟩ := processClient_log h
  have hna : L.typeCode .getAllAttrReq ≠ L.typeCode .getAttrReq := fun h' => by
    cases hL.typeCode_inj h'
  rw [he, if_neg (by simp [hp]), hr] at hstep
  simp only [Client.connState, hp, ConnState.step, ne_eq, not_true_eq_false, if_false, hna, ht,
    if_true, Bool.false_eq_true] at hstep
  split at hstep
  · rename_i res hres
    have hpr : (w'.ctl.clients i).pendingResponse = res := by
      split at hstep
      · simp only [Option.some.injEq, ConnState.pending.injEq] at hstep; exact hstep.symm
      · simp at hstep
    rw [hpr, processGetAllAttr_readNat_type hL hres]
  · cases hstep

/-- A client that connects to the endpoint and asks for all attributes of the empty
table is queued a response whose `type` is the zero its slot was allocated with. -/
theorem fresh_slot_getAllAttr_type :
    ∃ w0 w1 w', ctlCreate Env.allOnce "ctl" Os.init = .ok (some w0) ∧
      ctlProcess ProtoLayout.small [] Env.allOnce w0 = .ok w1 ∧ ProtoLayout.small.WF ∧
      processClient ProtoLayout.small [] Env.allOnce w1 ⟨0, by decide⟩ = .ok (w', true) ∧
      (w1.ctl.clients ⟨0, by decide⟩).isResponsePending = false ∧
      Env.allOnce.recv w1.os (w1.ctl.clients ⟨0, by decide⟩).fd =
        .data ProtoLayout.small.size ⟨ProtoLayout.small.typeCode .getAllAttrReq, ""⟩ ∧
      (w'.ctl.clients ⟨0, by decide⟩).pendingResponse.readNat ProtoLayout.small.typeOff 4 =
        (w1.ctl.clients ⟨0, by decide⟩).pendingResponse.readNat ProtoLayout.small.typeOff 4 ∧
      (w1.ctl.clients ⟨0, by decide⟩).pendingResponse.readNat ProtoLayout.small.typeOff 4 = 0 :=
  ⟨_, _, _, rfl, rfl, ProtoLayout.small_wf, rfl, rfl, rfl,
    @processClient_getAllAttr_type _ [] Env.allOnce _ _ ProtoLayout.small_wf _ _ rfl rfl rfl rfl,
    by decide⟩

/-- The script of a client that asks for an attribute the table lacks and, once
answered, for all attributes. -/
def Env.rejectThenAll : Env :=
  Env.scripted ProtoLayout.small [⟨ProtoLayout.small.typeCode .getAttrReq, "x"⟩,
    ⟨ProtoLayout.small.typeCode .getAllAttrReq, ""⟩] true

/-- **A `GetAllAttrReq` answered with a stale tag.** Under a script in which a client
connects, asks for an attribute the table does not have and, once answered, asks for
all attributes, the response queued for the second request carries the tag
`get_attr_rej` that the first response left in the buffer. -/
theorem getAllAttr_response_stale_tag :
    ∃ w0 w1 w2 w3 w4, ctlCreate Env.rejectThenAll "ctl" Os.init = .ok (some w0) ∧
      ctlProcess ProtoLayout.small [] Env.rejectThenAll w0 = .ok w1 ∧
      ctlProcess ProtoLayout.small [] Env.rejectThenAll w1 = .ok w2 ∧
      ctlProcess ProtoLayout.small [] Env.rejectThenAll w2 = .ok w3 ∧
      ctlProcess ProtoLayout.small [] Env.rejectThenAll w3 = .ok w4 ∧
      (w4.ctl.clients ⟨0, by decide⟩).isResponsePending = true ∧
      (w4.ctl.clients ⟨0, by decide⟩).pendingResponse.readNat ProtoLayout.small.typeOff 4 =
        ProtoLayout.small.typeCode .getAttrRej :=
  ⟨_, _, _, _, _, rfl, rfl, rfl, rfl, rfl, by decide, by decide⟩

/-! ### A response that is never sent -/

/-- A `send` that succeeded. -/
def Event.isSendOk : Event → Bool
  | .send _ _ _ (.ok _) => true
  | _ => false

variable (L) in
/-- A `recv` of a whole request with a known tag: one the endpoint answers. -/
def Event.isRequest : Event → Bool
  | .recv _ _ (.data n req) =>
    n == L.size && (req.type == L.typeCode .getAttrReq || req.type == L.typeCode .getAllAttrReq)
  | _ => false

/-- The counts a run of the exchange keeps in step with its state, for `r` whole requests
received and `s` responses sent in full: equal while waiting for a request, one request
ahead while holding a response, and at most one ahead once the connection is closing. -/
def ConnState.Owes (r s : Nat) : ConnState → Prop
  | .idle _ => r = s
  | .pending _ => r = s + 1
  | _ => s ≤ r ∧ r ≤ s + 1

theorem ConnState.Owes.bounds {r s : Nat} {st : ConnState} (h : st.Owes r s) :
    s ≤ r ∧ r ≤ s + 1 := by
  cases st <;> simp only [ConnState.Owes] at h <;> omega

/-- One event of the exchange: a request received moves a waiting connection to one
holding a response, and a `send` that succeeds moves it back. -/
theorem ConnState.Owes.step {r s : Nat} {st st' : ConnState} {e : Event} (ho : st.Owes r s)
    (h : ConnState.step L tbl st e = some st') :
    st'.Owes (r + if e.isRequest L then 1 else 0) (s + if e.isSendOk then 1 else 0) := by
  have hb := ho.bounds
  unfold ConnState.step at h
  split at h
  next b c fd rr =>
    obtain rfl : r = s := ho
    rcases rr with _ | _ | _ | ⟨n, req⟩ <;> dsimp only at h
    · cases h; rfl
    · cases h; exact hb
    · cases h; exact hb
    · simp only [Event.isRequest, Event.isSendOk]
      split at h
      · cases h; simp [ConnState.Owes, *]
      · split at h
        · cases h; simp [ConnState.Owes, *]
        · split at h
          · split at h <;> cases h; simp [ConnState.Owes, *]
          · cases h; simp [ConnState.Owes, *]
  next b c fd msg sr =>
    obtain rfl : r = s + 1 := ho
    split at h
    · rcases sr with _ | _ | k <;> dsimp only at h <;> cases h
      · rfl
      · exact hb
      · rfl
    · cases h
  next c fd => cases h; simpa [ConnState.Owes, Event.isRequest, Event.isSendOk] using hb
  next => cases h

/-- Over a run of the exchange, the counts keep in step with the state. -/
theorem ConnState.Owes.run {r s : Nat} {st : ConnState} (ho : st.Owes r s) (evs : List Event) :
    ∀ {st'}, ConnState.run L tbl st evs = some st' →
      st'.Owes (r + evs.countP (Event.isRequest L)) (s + evs.countP Event.isSendOk) := by
  induction evs using List.reverseRecOn with
  | nil => intro st' h; cases h; exact ho
  | append_singleton evs e ih =>
    intro st' h
    rw [ConnState.run_append] at h
    obtain ⟨st1, h1, h2⟩ := Option.bind_eq_some.mp h
    rw [ConnState.run_singleton] at h2
    rw [List.countP_append, List.countP_append, List.countP_singleton, List.countP_singleton,
      ← Nat.add_assoc, ← Nat.add_assoc]
    exact (ih h1).step h2

end Xcm
