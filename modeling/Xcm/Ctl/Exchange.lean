import Xcm.Ctl.Spec

/-!
# The Exchange on One Connection

What a control client can see of the endpoint is the sequence of `recv`s and `send`s
the endpoint makes on its connection, ending with the `close` of the descriptor. The
protocol allows these sequences (`ConnState.step`): in a connection waiting for a
request a `recv` that would block changes nothing, one that fails, hits the end of the
stream, is short or carries an unknown tag dooms the connection, and a whole
`GetAttrReq` or `GetAllAttrReq` makes the handler compute a response in the
connection's buffer; a connection holding a response only `send`s, and what it sends
is the buffer; a doomed connection is closed.

The ghost name of a connection, the position of its accept in the trace, cuts the
trace into one part per connection (`connTrace`), also after `remove_client` has moved
a client to another slot or the kernel has handed its descriptor number to a new
connection.

## Main results

* `processClient_log`: one `process_client` step is one step of the exchange on the
  stepped client's connection, and logs nothing another connection's part contains.
* `connTrace_append`: a connection's part of a growing trace grows by its events.
-/

namespace Xcm

/-- The connection of a client step's event: a `recv` or a `send`. -/
def Event.stepOf? : Event → Option Nat
  | .recv c _ _ => some c
  | .send c _ _ _ => some c
  | _ => none

/-- An event of the exchange on connection `c`: a step of its client, or the `close`
of its descriptor. -/
def Event.onConn (c : Nat) : Event → Bool
  | .recv c' _ _ => c' == c
  | .send c' _ _ _ => c' == c
  | .close (.client c') _ => c' == c
  | _ => false

/-- Connection `c`'s part of a trace: its exchange events, from its accept on. -/
def connTrace (c : Nat) (tr : List Event) : List Event :=
  (tr.drop c).filter (Event.onConn c)

/-- The state of the exchange on one connection: waiting for a request, with the
response buffer `b` as the last request left it; holding the response `b` to send;
doomed by a failed step; closed. -/
inductive ConnState
  | idle (b : Buf)
  | pending (b : Buf)
  | closing
  | closed

/-- The exchange state of a client in use: holding a response to send, or waiting for
a request, with the response buffer as the client's last request left it. -/
def Client.connState (cl : Client) : ConnState :=
  if cl.isResponsePending then .pending cl.pendingResponse else .idle cl.pendingResponse

variable (L : ProtoLayout) (tbl : List Attr)

/-- A step event after which `process_client` returns `-1`: a `send` that failed, or a
`recv` that failed, hit the end of the stream, was short or carried an unknown tag. -/
def Event.fails : Event → Bool
  | .send _ _ _ (.error _) => true
  | .recv _ _ (.error _) => true
  | .recv _ _ .closed => true
  | .recv _ _ (.data n req) =>
    n != L.size || (req.type != L.typeCode .getAttrReq && req.type != L.typeCode .getAllAttrReq)
  | _ => false

/-- **The exchange the protocol allows**, one event at a time (`none`: the event is not
allowed in the state). -/
def ConnState.step : ConnState → Event → Option ConnState
  | .idle b, .recv _ _ r =>
    match r with
    | .again => some (.idle b)
    | .error _ => some .closing
    | .closed => some .closing
    | .data n req =>
      if n ≠ L.size then some .closing
      else if req.type = L.typeCode .getAttrReq then
        some (.pending (processGetAttr L tbl req.attrName b))
      else if req.type = L.typeCode .getAllAttrReq then
        match processGetAllAttr L tbl b with
        | .ok res => some (.pending res)
        | .error _ => none
      else some .closing
  | .pending b, .send _ _ msg r =>
    if msg = b.read 0 L.size then
      match r with
      | .again => some (.pending b)
      | .error _ => some .closing
      | .ok _ => some (.idle b)
    else none
  | .closing, .close _ _ => some .closed
  | _, _ => none

/-- The exchange over a sequence of events. -/
def ConnState.run (s : ConnState) (evs : List Event) : Option ConnState :=
  evs.foldlM (ConnState.step L tbl) s

@[simp] theorem ConnState.run_nil {s : ConnState} : ConnState.run L tbl s [] = some s := rfl

theorem ConnState.run_append {s : ConnState} {evs evs' : List Event} :
    ConnState.run L tbl s (evs ++ evs') = (ConnState.run L tbl s evs).bind
      (ConnState.run L tbl · evs') := by
  simp only [ConnState.run, List.foldlM_append]; rfl

theorem ConnState.run_singleton {s : ConnState} {e : Event} :
    ConnState.run L tbl s [e] = ConnState.step L tbl s e := by
  simp only [ConnState.run, List.foldlM_cons, List.foldlM_nil]
  cases ConnState.step L tbl s e <;> rfl

/-- A connection's part of a trace that grows after its accept grows by its events. -/
theorem connTrace_append {c : Nat} {tr evs : List Event} (hc : c ≤ tr.length) :
    connTrace c (tr ++ evs) = connTrace c tr ++ evs.filter (Event.onConn c) := by
  rw [connTrace, connTrace, List.drop_append_of_le_length hc, List.filter_append]

variable {L tbl} {env : Env} {w w' : World} {i : Fin maxClients} {b : Bool}

/-- **One client step is one step of its exchange.** A step of the client in slot `i`
logs one event of its connection, then at most a change of its registration; the
event fails exactly when the step does; and the exchange allows it, from the client's
state to its new state, or to a doomed connection after a failed step. -/
theorem processClient_log (h : processClient L tbl env w i = .ok (w', b)) :
    ∃ e extra, w'.os.trace = w.os.trace ++ e :: extra ∧
      e = (if (w.ctl.clients i).isResponsePending then
        .send (w.ctl.clients i).conn (w.ctl.clients i).fd
          ((w.ctl.clients i).pendingResponse.read 0 L.size) (env.send w.os (w.ctl.clients i).fd)
        else
          .recv (w.ctl.clients i).conn (w.ctl.clients i).fd (env.recv w.os (w.ctl.clients i).fd)) ∧
      e.stepOf? = some (w.ctl.clients i).conn ∧
      (∀ x ∈ extra, ∃ ev, x = .regMod (.client (w.ctl.clients i).conn) (w.ctl.clients i).fd ev) ∧
      e.fails L = !b ∧
      ConnState.step L tbl (w.ctl.clients i).connState e =
        some (if b then (w'.ctl.clients i).connState else .closing) := by
  unfold processClient at h
  dsimp only at h
  split at h
  · rename_i hp
    have hs : (w.ctl.clients i).connState = .pending (w.ctl.clients i).pendingResponse := by
      simp [Client.connState, hp]
    split at h
    · cases h
      exact ⟨_, [], rfl, by simp [*], rfl, by simp, by simp [Event.fails, *],
        by simp [hs, ConnState.step, *]⟩
    · cases h
      exact ⟨_, [], rfl, by simp [*], rfl, by simp, by simp [Event.fails, *],
        by simp [hs, ConnState.step, *]⟩
    · split at h
      · cases h
      · cases h
        refine ⟨_, _, List.append_assoc _ _ _, by simp [*], rfl, by simp,
          by simp [Event.fails, *], ?_⟩
        simp [hs, ConnState.step, Client.connState, *]
  · rename_i hp
    have hs : (w.ctl.clients i).connState = .idle (w.ctl.clients i).pendingResponse := by
      simp [Client.connState, hp]
    split at h
    · cases h
      exact ⟨_, [], rfl, by simp [*], rfl, by simp, by simp [Event.fails, *],
        by simp [hs, ConnState.step, *]⟩
    · cases h
      exact ⟨_, [], rfl, by simp [*], rfl, by simp, by simp [Event.fails, *],
        by simp [hs, ConnState.step, *]⟩
    · cases h
      exact ⟨_, [], rfl, by simp [*], rfl, by simp, by simp [Event.fails, *],
        by simp [hs, ConnState.step, *]⟩
    · split at h
      · cases h
        exact ⟨_, [], rfl, by simp [*], rfl, by simp, by simp [Event.fails, *],
          by simp [hs, ConnState.step, *]⟩
      · rename_i hn; rw [not_not] at hn
        split at h
        · cases h
        · split at h
          · cases h
            refine ⟨_, _, List.append_assoc _ _ _, by simp [*], rfl, by simp,
              by simp [Event.fails, *], ?_⟩
            simp [hs, ConnState.step, Client.connState, *]
          · rename_i hna
            split at h
            · rename_i hall
              split at h
              · cases h
              · cases h
                refine ⟨_, _, List.append_assoc _ _ _, by simp [*], rfl, by simp,
                  by simp [Event.fails, *], ?_⟩
                simp [hs, ConnState.step, Client.connState, *]
                exact fun he => absurd (hall.trans he) hna
            · cases h
              refine ⟨_, _, List.append_assoc _ _ _, by simp [*], rfl, by simp,
                by simp [Event.fails, *], ?_⟩
              simp [hs, ConnState.step, *]

end Xcm
