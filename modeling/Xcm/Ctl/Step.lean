import Xcm.Ctl.State

/-!
# One Client Step, Removal and Acceptance

`process_client`, `remove_client` and `accept_client`, each a function of the world and
the environment's answers. Every system call is recorded in the trace with its answer,
in the order the C code makes it.
-/

namespace Xcm

namespace Ctl

/-- Replace the client in slot `i`. -/
def setClient (c : Ctl) (i : Fin maxClients) (cl : Client) : Ctl :=
  { c with clients := Function.update c.clients i cl }

/-- Replace the registration set. -/
def setReg (c : Ctl) (r : RegSet) : Ctl := { c with regSet := r }

/-- The slot of the last client in use, `num_clients - 1`. -/
def lastIdx (c : Ctl) : Fin maxClients :=
  ⟨c.numClients - 1, by have := c.num_le; unfold maxClients at *; omega⟩

@[simp] theorem setClient_serverFd {c : Ctl} {i cl} :
    (c.setClient i cl).serverFd = c.serverFd := rfl
@[simp] theorem setClient_numClients {c : Ctl} {i cl} :
    (c.setClient i cl).numClients = c.numClients := rfl
@[simp] theorem setClient_regSet {c : Ctl} {i cl} : (c.setClient i cl).regSet = c.regSet := rfl
@[simp] theorem setClient_clients {c : Ctl} {i cl} :
    (c.setClient i cl).clients = Function.update c.clients i cl := rfl
@[simp] theorem setReg_serverFd {c : Ctl} {r} : (c.setReg r).serverFd = c.serverFd := rfl
@[simp] theorem setReg_numClients {c : Ctl} {r} : (c.setReg r).numClients = c.numClients := rfl
@[simp] theorem setReg_regSet {c : Ctl} {r} : (c.setReg r).regSet = r := rfl
@[simp] theorem setReg_clients {c : Ctl} {r} : (c.setReg r).clients = c.clients := rfl
@[simp] theorem setClient_stale {c : Ctl} {i cl} : (c.setClient i cl).stale = c.stale := rfl
@[simp] theorem setReg_stale {c : Ctl} {r} : (c.setReg r).stale = c.stale := rfl

end Ctl

variable (L : ProtoLayout) (tbl : List Attr) (env : Env)

/-- `process_client` for the client in slot `i`: one step of its state machine. With a
response pending it sends the whole `pending_response` and, once sent, goes back to
read interest; otherwise it receives one request, switches to write interest and runs
the handler its tag names, which fills `pending_response` in place. The flag says
whether the step returned `0` (`true`) or `-1`, after which the caller removes the
client. -/
def processClient (w : World) (i : Fin maxClients) : Except Fault (World × Bool) :=
  let c := w.ctl.clients i
  if c.isResponsePending then
    let r := env.send w.os c.fd
    let os := w.os.log (.send c.conn c.fd (c.pendingResponse.read 0 L.size) r)
    match r with
    | .again => .ok (⟨w.ctl, os⟩, true)
    | .error _ => .ok (⟨w.ctl, os⟩, false)
    | .ok _ =>
      match w.ctl.regSet.mod c.fd .epollin with
      | .error f => .error f
      | .ok reg =>
        .ok (⟨(w.ctl.setClient i { c with isResponsePending := false }).setReg reg,
          os.log (.regMod (.client c.conn) c.fd .epollin)⟩, true)
  else
    let r := env.recv w.os c.fd
    let os := w.os.log (.recv c.conn c.fd r)
    match r with
    | .again => .ok (⟨w.ctl, os⟩, true)
    | .error _ => .ok (⟨w.ctl, os⟩, false)
    | .closed => .ok (⟨w.ctl, os⟩, false)
    | .data n req =>
      if n ≠ L.size then .ok (⟨w.ctl, os⟩, false) else
      match w.ctl.regSet.mod c.fd .epollout with
      | .error f => .error f
      | .ok reg =>
        let os := os.log (.regMod (.client c.conn) c.fd .epollout)
        let c := { c with isResponsePending := true }
        let ctl := w.ctl.setReg reg
        if req.type = L.typeCode .getAttrReq then
          .ok (⟨ctl.setClient i
            { c with pendingResponse := processGetAttr L tbl req.attrName c.pendingResponse },
            os⟩, true)
        else if req.type = L.typeCode .getAllAttrReq then
          match processGetAllAttr L tbl c.pendingResponse with
          | .error f => .error f
          | .ok res => .ok (⟨ctl.setClient i { c with pendingResponse := res }, os⟩, true)
        else
          .ok (⟨ctl.setClient i { c with isResponsePending := false }, os⟩, false)

/-- `remove_client(ctl, i)`: deregister and close the client's descriptor, copy the
last client in use over the slot (the last slot keeps a stale copy), register the
listening descriptor again if the pool was full, and shrink the pool. -/
def removeClient (w : World) (i : Fin maxClients) : Except Fault World :=
  let c := w.ctl.clients i
  match w.ctl.regSet.del c.fd with
  | .error f => .error f
  | .ok reg =>
    let os := (w.os.log (.regDel (.client c.conn) c.fd)).close (.client c.conn) c.fd
    let last := w.ctl.lastIdx
    let clients := if i ≠ last then Function.update w.ctl.clients i (w.ctl.clients last)
      else w.ctl.clients
    let ctl : Ctl := ⟨w.ctl.serverFd, clients, w.ctl.numClients - 1,
      le_trans (Nat.sub_le _ _) w.ctl.num_le, reg, w.ctl.stale⟩
    if w.ctl.numClients = maxClients then
      match reg.add w.ctl.serverFd .epollin with
      | .error f => .error f
      | .ok reg =>
        .ok ⟨ctl.setReg reg, os.log (.regAdd .listener w.ctl.serverFd .epollin)⟩
    else .ok ⟨ctl, os⟩

/-- `accept_client`, which its caller calls only while the pool has a free slot. If the
listening descriptor is readable and the kernel accepts a connection, the new
descriptor is registered for read interest and written into the first free slot
(whose `pending_response` keeps the bytes of the slot's previous occupant, recorded as
the connection's `stale` bytes); a full pool stops listening. The new connection is named
by the position of its accept in the trace. -/
def acceptClient (w : World) (h : w.ctl.numClients < maxClients) : Except Fault World :=
  let ready := env.readable w.os
  let os := w.os.log (.readable ready)
  if !ready then .ok ⟨w.ctl, os⟩ else
  let conn := os.trace.length
  match env.accept os with
  | none => .ok ⟨w.ctl, os.log (.accept conn none)⟩
  | some fd =>
    let os := os.opened (.accept conn (some fd)) fd
    match w.ctl.regSet.add fd .epollin with
    | .error f => .error f
    | .ok reg =>
      let os := os.log (.regAdd (.client conn) fd .epollin)
      let slot : Fin maxClients := ⟨w.ctl.numClients, h⟩
      let ctl : Ctl := ⟨w.ctl.serverFd,
        Function.update w.ctl.clients slot
          { w.ctl.clients slot with fd := fd, isResponsePending := false, conn := conn },
        w.ctl.numClients + 1, h, reg,
        Function.update w.ctl.stale conn (w.ctl.clients slot).pendingResponse⟩
      if ctl.numClients = maxClients then
        match reg.del w.ctl.serverFd with
        | .error f => .error f
        | .ok reg => .ok ⟨ctl.setReg reg, os.log (.regDel .listener w.ctl.serverFd)⟩
      else .ok ⟨ctl, os⟩

end Xcm
