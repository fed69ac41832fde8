import Xcm.Ctl.Handlers

/-!
# The Endpoint's State and Its Environment

`struct ctl` holds the listening descriptor, the pool of clients and the endpoint's
registration set. The model adds what the C code acts on but does not own: the
descriptors the endpoint holds open, and the trace of every system call it has made
with the answer it got (`Os`). The environment, the kernel together with the control
clients, is an adversary that sees the whole trace (`Env`): any answer to any call, as
long as the kernel never hands out a descriptor that is still open.

The registration set (`epoll_reg_set`) is outside the sources; `RegSet` is modelled from
the spec.
-/

namespace Xcm

/-- A file descriptor. -/
abbrev Fd := Nat

/-- The two interest masks the endpoint registers, `EPOLLIN` and `EPOLLOUT`. -/
inductive Interest
  | epollin
  | epollout
  deriving DecidableEq, Repr

/-- Modelled from the spec: `struct epoll_reg_set`, the "thin owned table mapping
descriptors to interest masks, mediating add/modify/remove calls against the external
multiplexing context so registrations are never duplicated or leaked". -/
abbrev RegSet := Fd → Option Interest

namespace RegSet

/-- `epoll_reg_set_init`: nothing registered. -/
def empty : RegSet := fun _ => none

/-- `epoll_reg_set_add`, refused for a registered descriptor. -/
def add (r : RegSet) (fd : Fd) (ev : Interest) : Except Fault RegSet :=
  if (r fd).isSome then .error .regSet else .ok (Function.update r fd (some ev))

/-- `epoll_reg_set_mod`, refused for an unregistered descriptor. -/
def mod (r : RegSet) (fd : Fd) (ev : Interest) : Except Fault RegSet :=
  if (r fd).isSome then .ok (Function.update r fd (some ev)) else .error .regSet

/-- `epoll_reg_set_del`, refused for an unregistered descriptor. -/
def del (r : RegSet) (fd : Fd) : Except Fault RegSet :=
  if (r fd).isSome then .ok (Function.update r fd none) else .error .regSet

variable {r r' : RegSet} {fd : Fd} {ev : Interest}

theorem add_eq_ok : r.add fd ev = .ok r' ↔ r fd = none ∧ r' = Function.update r fd (some ev) := by
  unfold add
  cases r fd <;> simp [eq_comm]

theorem mod_eq_ok :
    r.mod fd ev = .ok r' ↔ (r fd).isSome ∧ r' = Function.update r fd (some ev) := by
  unfold mod
  cases r fd <;> simp [eq_comm]

theorem del_eq_ok : r.del fd = .ok r' ↔ (r fd).isSome ∧ r' = Function.update r fd none := by
  unfold del
  cases r fd <;> simp [eq_comm]

/-- The registration set refuses a call only with `Fault.regSet`, and only an add of a
registered descriptor or a modify or delete of an unregistered one. -/
theorem add_eq_error {f : Fault} : r.add fd ev = .error f ↔ f = .regSet ∧ (r fd).isSome := by
  unfold add
  cases r fd <;> simp [eq_comm]

theorem mod_eq_error {f : Fault} : r.mod fd ev = .error f ↔ f = .regSet ∧ r fd = none := by
  unfold mod
  cases r fd <;> simp [eq_comm]

theorem del_eq_error {f : Fault} : r.del fd = .error f ↔ f = .regSet ∧ r fd = none := by
  unfold del
  cases r fd <;> simp [eq_comm]

end RegSet

/-- `MAX_CLIENTS`. -/
def maxClients : Nat := 2

/-- `struct client`. The member `conn` is ghost state with no counterpart in C: the
position in the trace of the accept that created the connection. It names the
connection even after the kernel has reused its descriptor number for another one. -/
structure Client where
  fd : Fd
  isResponsePending : Bool
  pendingResponse : Buf
  conn : Nat

/-- A slot as `ut_calloc` leaves it. -/
def Client.zeros : Client := ⟨0, false, Buf.zeros, 0⟩

/-- `struct ctl`: the listening descriptor, the array of `MAX_CLIENTS` client slots of
which the first `num_clients` are in use, and the registration set. The bound on
`num_clients` is carried by the structure; the member `socket` is represented by the
attribute table the handlers are given. The member `stale` is ghost state with no
counterpart in C: for each connection, named as `Client.conn` names it, the bytes the
`pending_response` of its slot held when `accept_client` put it there. -/
structure Ctl where
  serverFd : Fd
  clients : Fin maxClients → Client
  numClients : Nat
  num_le : numClients ≤ maxClients
  regSet : RegSet
  stale : Nat → Buf

/-- Whose descriptor a system call acts on: the listening socket's, or the client
connection's (ghost, as `Client.conn`). -/
inductive Owner
  | listener
  | client (conn : Nat)
  deriving DecidableEq, Repr

/-- The outcome of `recv(fd, &req, sizeof(req), 0)`: would block, another error, an
orderly shutdown (`0`), or `len` bytes that decode to `req`. -/
inductive RecvResult
  | again
  | error (errno : Nat)
  | closed
  | data (len : Nat) (req : Request)
  deriving DecidableEq, Repr

/-- The outcome of `send(fd, &pending_response, sizeof(pending_response), 0)`. -/
inductive SendResult
  | again
  | error (errno : Nat)
  | ok (len : Nat)
  deriving DecidableEq, Repr

/-- The outcome of `stat` on the control directory. -/
inductive StatResult
  | error (errno : Nat)
  | notDir
  | dir
  deriving DecidableEq, Repr

/-- A system call the endpoint made, with the answer it got. -/
inductive Event
  | recv (conn : Nat) (fd : Fd) (r : RecvResult)
  | send (conn : Nat) (fd : Fd) (msg : List UInt8) (r : SendResult)
  | regAdd (o : Owner) (fd : Fd) (ev : Interest)
  | regMod (o : Owner) (fd : Fd) (ev : Interest)
  | regDel (o : Owner) (fd : Fd)
  | close (o : Owner) (fd : Fd)
  | readable (ready : Bool)
  | accept (conn : Nat) (r : Option Fd)
  | stat (r : StatResult)
  | socket (r : Option Fd)
  | bind (fd : Fd) (path : String) (ok : Bool)
  | listen (fd : Fd) (ok : Bool)
  | getsockname (fd : Fd) (r : Option String)
  | unlink (path : String)
  deriving DecidableEq, Repr

/-- What the endpoint's system calls have done: the descriptors it holds open, and the
trace of the calls, oldest first. -/
structure Os where
  isOpen : Fd → Bool
  trace : List Event

namespace Os

/-- Before the endpoint is created. -/
def init : Os := ⟨fun _ => false, []⟩

/-- Record a call. -/
def log (os : Os) (e : Event) : Os := { os with trace := os.trace ++ [e] }

/-- A call that returned the new descriptor `fd`. -/
def opened (os : Os) (e : Event) (fd : Fd) : Os :=
  ⟨Function.update os.isOpen fd true, os.trace ++ [e]⟩

/-- `ut_close(fd)`. -/
def close (os : Os) (o : Owner) (fd : Fd) : Os :=
  ⟨Function.update os.isOpen fd false, os.trace ++ [.close o fd]⟩

@[simp] theorem log_isOpen {os : Os} {e : Event} : (os.log e).isOpen = os.isOpen := rfl
@[simp] theorem log_trace {os : Os} {e : Event} : (os.log e).trace = os.trace ++ [e] := rfl
@[simp] theorem opened_trace {os : Os} {e : Event} {fd : Fd} :
    (os.opened e fd).trace = os.trace ++ [e] := rfl
@[simp] theorem close_trace {os : Os} {o : Owner} {fd : Fd} :
    (os.close o fd).trace = os.trace ++ [.close o fd] := rfl

end Os

/-- The endpoint together with what its system calls have done. -/
structure World where
  ctl : Ctl
  os : Os

/-- The environment: the kernel and the control clients, as an adversary that answers
every call knowing the whole trace so far. The kernel's one promise is that `accept`
and `socket` return a descriptor that is not open. -/
structure Env where
  recv : Os → Fd → RecvResult
  send : Os → Fd → SendResult
  readable : Os → Bool
  accept : Os → Option Fd
  accept_fresh : ∀ os fd, accept os = some fd → os.isOpen fd = false
  stat : Os → StatResult
  socket : Os → Option Fd
  socket_fresh : ∀ os fd, socket os = some fd → os.isOpen fd = false
  bind : Os → Bool
  listen : Os → Bool
  getsockname : Os → Option String

end Xcm
