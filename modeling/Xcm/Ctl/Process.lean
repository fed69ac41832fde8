import Xcm.Ctl.Step

/-!
# Creation, Processing and Teardown

`ctl_create`, `ctl_process` and `ctl_destroy`, the three entry points the owning socket
calls, and the runs they make up.

`ctl_process` steps every client in the pool and, after removing a client whose step
failed, calls itself again before going on with its own loop. The model `ctlProcessn`
takes two budgets, neither of which the C code has: `d` for the depth of that recursion
and, for each frame's loop, the number of clients the frame began with. Running out of
either is `Fault.fuel`; `Xcm.Ctl.Termination` shows that neither is ever exhausted, and
`ctlProcess` is `ctlProcessn` with the depth `MAX_CLIENTS + 1` that suffices.
-/

namespace Xcm

variable (L : ProtoLayout) (tbl : List Attr) (env : Env)

/-- The loop of `ctl_process` from index `i`:
`for (; i < ctl->num_clients; i++)`, stepping each client and, after a failed step,
removing the client and running `nested` (the recursive `ctl_process`). The first
argument is the loop's budget of iterations. -/
def processLoop (nested : World → Except Fault World) : Nat → Nat → World → Except Fault World
  | 0, i, w => if i < w.ctl.numClients then .error .fuel else .ok w
  | k + 1, i, w =>
    if h : i < w.ctl.numClients then
      let idx : Fin maxClients := ⟨i, lt_of_lt_of_le h w.ctl.num_le⟩
      match processClient L tbl env w idx with
      | .error f => .error f
      | .ok (w, true) => processLoop nested k (i + 1) w
      | .ok (w, false) =>
        match removeClient w idx with
        | .error f => .error f
        | .ok w =>
          match nested w with
          | .error f => .error f
          | .ok w => processLoop nested k (i + 1) w
    else .ok w

/-- `ctl_process` with a recursion budget `d`: the loop over the pool, whose own budget
is the number of clients the call began with, then one `accept_client` if the pool has
a free slot. -/
def ctlProcessn : Nat → World → Except Fault World
  | 0, _ => .error .fuel
  | d + 1, w =>
    match processLoop L tbl env (ctlProcessn d) w.ctl.numClients 0 w with
    | .error f => .error f
    | .ok w => if h : w.ctl.numClients < maxClients then acceptClient env w h else .ok w

/-- `ctl_process`. -/
def ctlProcess (w : World) : Except Fault World :=
  ctlProcessn L tbl env (maxClients + 1) w

/-- `create_ux`: check that the control directory is a directory, remove a stale
socket file at `path`, and create, bind and listen a non-blocking `SOCK_SEQPACKET`
socket, unwinding on failure. `path` is what `ctl_derive_path` derives from the
directory `ctl_get_dir` gives, the process id and the socket id, all outside the
sources. -/
def createUx (path : String) (os : Os) : Os × Option Fd :=
  let st := env.stat os
  let os := os.log (.stat st)
  match st with
  | .error _ => (os, none)
  | .notDir => (os, none)
  | .dir =>
    let os := os.log (.unlink path)
    match env.socket os with
    | none => (os.log (.socket none), none)
    | some fd =>
      let os := os.opened (.socket (some fd)) fd
      let bound := env.bind os
      let os := os.log (.bind fd path bound)
      if !bound then (os.close .listener fd, none) else
      let listening := env.listen os
      let os := os.log (.listen fd listening)
      if !listening then ((os.log (.unlink path)).close .listener fd, none) else
      (os, some fd)

/-- `ctl_create`: a zeroed endpoint around the listening descriptor, registered for read
interest, or none if `create_ux` failed. -/
def ctlCreate (path : String) (os : Os) : Except Fault (Option World) :=
  match createUx env path os with
  | (_, none) => .ok none
  | (os, some fd) =>
    match RegSet.empty.add fd .epollin with
    | .error f => .error f
    | .ok reg =>
      .ok (some ⟨⟨fd, fun _ => Client.zeros, 0, Nat.zero_le _, reg, fun _ => Buf.zeros⟩,
        os.log (.regAdd .listener fd .epollin)⟩)

/-- `while (ctl->num_clients > 0) remove_client(ctl, 0)`, with a budget of iterations. -/
def removeAll : Nat → World → Except Fault World
  | 0, w => if 0 < w.ctl.numClients then .error .fuel else .ok w
  | k + 1, w =>
    if 0 < w.ctl.numClients then
      match removeClient w ⟨0, by decide⟩ with
      | .error f => .error f
      | .ok w => removeAll k w
    else .ok w

/-- `ctl_destroy(ctl, owner)` of an endpoint: remove every client, read the listening
socket's bound path, close it, and unlink the path if this is its owner and the path
could be read. The result is the endpoint as it is when `ut_free` releases it. -/
def ctlDestroy (owner : Bool) (w : World) : Except Fault World :=
  match removeAll maxClients w with
  | .error f => .error f
  | .ok w =>
    let name := env.getsockname w.os
    let os := (w.os.log (.getsockname w.ctl.serverFd name)).close .listener w.ctl.serverFd
    let os := match name with
      | some p => if owner then os.log (.unlink p) else os
      | none => os
    .ok ⟨w.ctl, os⟩

/-- The endpoints reachable from `ctl_create` by `ctl_process` calls, each call under an
environment of its own. -/
inductive Reachable : World → Prop
  | create (env : Env) (path : String) {w : World} :
      ctlCreate env path Os.init = .ok (some w) → Reachable w
  | process (env : Env) {w w' : World} :
      Reachable w → ctlProcess L tbl env w = .ok w' → Reachable w'

/-- An environment in which the control directory exists, the listening socket is
descriptor `3` and its path reads back as `"ctl"`, and no client ever connects. -/
def Env.quiet : Env where
  recv _ _ := .again
  send _ _ := .again
  readable _ := false
  accept _ := none
  accept_fresh _ _ h := by cases h
  stat _ := .dir
  socket os := if os.isOpen 3 then none else some 3
  socket_fresh os fd h := by
    by_cases h3 : os.isOpen 3 <;>
      simp only [h3, if_true, if_false, reduceCtorEq, Option.some.injEq] at h
    exact h ▸ Bool.eq_false_iff.mpr h3
  bind _ := true
  listen _ := true
  getsockname _ := some "ctl"

/-- An environment in which two clients connect, as descriptors `4` and `5`, and then
neither sends nor reads anything. -/
def Env.twoIdle : Env where
  recv _ _ := .again
  send _ _ := .again
  readable _ := true
  accept os := if !os.isOpen 4 then some 4 else if !os.isOpen 5 then some 5 else none
  accept_fresh os fd h := by
    cases h4 : os.isOpen 4 <;> cases h5 : os.isOpen 5 <;> simp [h4, h5] at h <;> subst h <;>
      assumption
  stat _ := .dir
  socket os := if os.isOpen 3 then none else some 3
  socket_fresh os fd h := by
    by_cases h3 : os.isOpen 3 <;>
      simp only [h3, if_true, if_false, reduceCtorEq, Option.some.injEq] at h
    exact h ▸ Bool.eq_false_iff.mpr h3
  bind _ := true
  listen _ := true
  getsockname _ := some "ctl"

/-- A `recv` that returned bytes. -/
def Event.isRecvData : Event → Bool
  | .recv _ _ (.data _ _) => true
  | _ => false

/-- An environment that plays a script: the listening socket is descriptor `3`, one
client connects as descriptor `4` whenever that is free, its `recv`s return the
requests `reqs` in order, each a whole message, and its `send`s all succeed or all
would block. -/
def Env.scripted (L : ProtoLayout) (reqs : List Request) (sendOk : Bool) : Env where
  recv os _ := match reqs[os.trace.countP Event.isRecvData]? with
    | some r => .data L.size r
    | none => .again
  send _ _ := if sendOk then .ok L.size else .again
  readable _ := true
  accept os := if os.isOpen 4 then none else some 4
  accept_fresh os fd h := by
    by_cases h4 : os.isOpen 4 <;>
      simp only [h4, if_true, if_false, reduceCtorEq, Option.some.injEq] at h
    exact h ▸ Bool.eq_false_iff.mpr h4
  stat _ := .dir
  socket os := if os.isOpen 3 then none else some 3
  socket_fresh os fd h := by
    by_cases h3 : os.isOpen 3 <;>
      simp only [h3, if_true, if_false, reduceCtorEq, Option.some.injEq] at h
    exact h ▸ Bool.eq_false_iff.mpr h3
  bind _ := true
  listen _ := true
  getsockname _ := some "ctl"

/-- The script of a client that connects and asks for all attributes. -/
def Env.allOnce : Env :=
  Env.scripted ProtoLayout.small [⟨ProtoLayout.small.typeCode .getAllAttrReq, ""⟩] true

end Xcm
