import Xcm.Ctl.Process

/-!
# What the Operations Do

One spec lemma for each operation of the endpoint, stated over the whole world, so
that no later proof unfolds `process_client`, `remove_client` or `accept_client`:
what a successful call changes (`processClient_frame`, `removeClient_ok`,
`acceptClient_ok`) and with which fault a failed one stops; and what creation does
(`createUx_isOpen_cases`, `createUx_accept`, `ctlCreate_ok`). Over them, an induction
principle for `ctl_process` (`ctlProcessn_preserves`): a property that each operation
keeps holds after every call.
-/

namespace Xcm

variable {L : ProtoLayout} {tbl : List Attr} {env : Env}

/-- The interest a client's registration should carry: write interest while a response
is pending, read interest otherwise. -/
def Client.interest (cl : Client) : Interest :=
  if cl.isResponsePending then .epollout else .epollin

/-! ### What the three operations do -/

/-- What a step of the client in slot `i` can change: that client's flag and buffer,
the registration of its descriptor (which stays present, and after a successful step
carries the interest the new state calls for), and the trace, which grows. -/
structure StepFrame (w w' : World) (i : Fin maxClients) (b : Bool) : Prop where
  serverFd : w'.ctl.serverFd = w.ctl.serverFd
  numClients : w'.ctl.numClients = w.ctl.numClients
  other : ∀ j, j ≠ i → w'.ctl.clients j = w.ctl.clients j
  fd : (w'.ctl.clients i).fd = (w.ctl.clients i).fd
  conn : (w'.ctl.clients i).conn = (w.ctl.clients i).conn
  reg_other : ∀ fd, fd ≠ (w.ctl.clients i).fd → w'.ctl.regSet fd = w.ctl.regSet fd
  reg_self : (w'.ctl.regSet (w.ctl.clients i).fd).isSome =
    (w.ctl.regSet (w.ctl.clients i).fd).isSome
  reg_ok : b = true → w.ctl.regSet (w.ctl.clients i).fd = some (w.ctl.clients i).interest →
    w'.ctl.regSet (w.ctl.clients i).fd = some (w'.ctl.clients i).interest
  isOpen : w'.os.isOpen = w.os.isOpen
  trace : w.os.trace <+: w'.os.trace
  stale : w'.ctl.stale = w.ctl.stale

section Frame

variable {w : World} {i : Fin maxClients} {os : Os} {b : Bool}

theorem StepFrame.keep (hopen : os.isOpen = w.os.isOpen) (htr : w.os.trace <+: os.trace) :
    StepFrame w ⟨w.ctl, os⟩ i b :=
  ⟨rfl, rfl, fun _ _ => rfl, rfl, rfl, fun _ _ => rfl, rfl, fun _ h => h, hopen, htr, rfl⟩

theorem StepFrame.set {cl : Client} {ev : Interest} {r : RegSet}
    (hopen : os.isOpen = w.os.isOpen) (htr : w.os.trace <+: os.trace)
    (hfd : cl.fd = (w.ctl.clients i).fd) (hconn : cl.conn = (w.ctl.clients i).conn)
    (hev : b = true → ev = cl.interest)
    (hr : w.ctl.regSet.mod (w.ctl.clients i).fd ev = .ok r) :
    StepFrame w ⟨(w.ctl.setClient i cl).setReg r, os⟩ i b := by
  obtain ⟨hs, rfl⟩ := RegSet.mod_eq_ok.mp hr
  refine ⟨rfl, rfl, fun j hj => ?_, ?_, ?_, fun fd hfd => ?_, ?_, fun hb _ => ?_, hopen, htr,
    rfl⟩
  all_goals simp_all [Function.update_noteq]

theorem StepFrame.fd_eq {w' : World} (hf : StepFrame w w' i b) (j : Fin maxClients) :
    (w'.ctl.clients j).fd = (w.ctl.clients j).fd := by
  by_cases hj : j = i
  · subst hj; exact hf.fd
  · rw [hf.other j hj]

theorem StepFrame.conn_eq {w' : World} (hf : StepFrame w w' i b) (j : Fin maxClients) :
    (w'.ctl.clients j).conn = (w.ctl.clients j).conn := by
  by_cases hj : j = i
  · subst hj; exact hf.conn
  · rw [hf.other j hj]

/-- **Spec of `process_client`**: a step changes no more than `StepFrame` allows. -/
theorem processClient_frame {w' : World} (h : processClient L tbl env w i = .ok (w', b)) :
    StepFrame w w' i b := by
  unfold processClient at h
  dsimp only at h
  have hpre : ∀ e e', w.os.trace <+: ((w.os.log e).log e').trace := fun _ _ => by simp
  split at h
  · split at h
    · cases h; exact .keep rfl (by simp)
    · cases h; exact .keep rfl (by simp)
    · split at h
      · cases h
      · cases h; exact .set rfl (hpre _ _) rfl rfl (fun _ => rfl) ‹_›
  · split at h
    · cases h; exact .keep rfl (by simp)
    · cases h; exact .keep rfl (by simp)
    · cases h; exact .keep rfl (by simp)
    · split at h
      · cases h; exact .keep rfl (by simp)
      · split at h
        · cases h
        · split at h
          · cases h; exact .set rfl (hpre _ _) rfl rfl (fun _ => rfl) ‹_›
          · split at h
            · split at h
              · cases h
              · cases h; exact .set rfl (hpre _ _) rfl rfl (fun _ => rfl) ‹_›
            · cases h; exact .set rfl (hpre _ _) rfl rfl (fun h => by cases h) ‹_›

end Frame

section Ops

variable {w w' : World} {i : Fin maxClients}

/-- **Spec of `remove_client`**: the registration set must hold the client's
descriptor (and, when the pool was full, must not hold the listening one once that is
gone); the result is the pool with the last client copied over slot `i`, one client
fewer, the descriptor deregistered and closed, and the listening descriptor registered
again if the pool was full. -/
theorem removeClient_ok (h : removeClient w i = .ok w') :
    (w.ctl.regSet (w.ctl.clients i).fd).isSome ∧
    (w.ctl.numClients = maxClients →
      Function.update w.ctl.regSet (w.ctl.clients i).fd none w.ctl.serverFd = none) ∧
    w'.ctl.serverFd = w.ctl.serverFd ∧ w'.ctl.numClients = w.ctl.numClients - 1 ∧
    w'.ctl.clients = (if i ≠ w.ctl.lastIdx then
      Function.update w.ctl.clients i (w.ctl.clients w.ctl.lastIdx) else w.ctl.clients) ∧
    w'.ctl.regSet = (if w.ctl.numClients = maxClients then
      Function.update (Function.update w.ctl.regSet (w.ctl.clients i).fd none) w.ctl.serverFd
        (some .epollin)
      else Function.update w.ctl.regSet (w.ctl.clients i).fd none) ∧
    w'.os.isOpen = Function.update w.os.isOpen (w.ctl.clients i).fd false ∧
    w'.os.trace = w.os.trace ++ [.regDel (.client (w.ctl.clients i).conn) (w.ctl.clients i).fd,
      .close (.client (w.ctl.clients i).conn) (w.ctl.clients i).fd] ++
      (if w.ctl.numClients = maxClients then [.regAdd .listener w.ctl.serverFd .epollin]
        else []) := by
  unfold removeClient at h
  dsimp only at h
  split at h
  · cases h
  · rename_i r hr
    obtain ⟨hs, rfl⟩ := RegSet.del_eq_ok.mp hr
    split at h
    · split at h
      · cases h
      · rename_i hn r' hr'
        obtain ⟨hn', rfl⟩ := RegSet.add_eq_ok.mp hr'
        cases h
        simp_all [Os.close, Os.log]
    · cases h
      simp_all [Os.close, Os.log]

/-- `remove_client` keeps the start buffers of the connections. -/
theorem removeClient_stale (h : removeClient w i = .ok w') : w'.ctl.stale = w.ctl.stale := by
  unfold removeClient at h
  dsimp only at h
  split at h
  · cases h
  · split at h
    · split at h <;> cases h; rfl
    · cases h; rfl

/-- The slot the client now in slot `j'` came from, after `remove_client` at slot `i`
copied the last client over slot `i`. -/
def Ctl.movedFrom (c : Ctl) (i j' : Fin maxClients) : Fin maxClients :=
  if j' = i then c.lastIdx else j'

section MovedFrom

variable {c : Ctl} {j' k' j : Fin maxClients}

theorem Ctl.movedFrom_live (hi : i.val < c.numClients) (hj' : j'.val < c.numClients - 1) :
    (c.movedFrom i j').val < c.numClients ∧ c.movedFrom i j' ≠ i := by
  have hlast : c.lastIdx.val = c.numClients - 1 := rfl
  unfold Ctl.movedFrom
  split_ifs with hji
  · subst hji
    exact ⟨by omega, fun he => by have := congrArg Fin.val he; omega⟩
  · exact ⟨by omega, hji⟩

theorem Ctl.movedFrom_inj (hj' : j'.val < c.numClients - 1) (hk' : k'.val < c.numClients - 1)
    (he : c.movedFrom i j' = c.movedFrom i k') : j' = k' := by
  have hlast : c.lastIdx.val = c.numClients - 1 := rfl
  unfold Ctl.movedFrom at he
  split_ifs at he with hji hki hki
  · rw [hji, hki]
  · have := congrArg Fin.val he; omega
  · have := congrArg Fin.val he; omega
  · exact he

theorem Ctl.movedFrom_surj (hi : i.val < c.numClients) (hj : j.val < c.numClients)
    (hji : j ≠ i) : ∃ j', j'.val < c.numClients - 1 ∧ c.movedFrom i j' = j := by
  have hlast : c.lastIdx.val = c.numClients - 1 := rfl
  have hij : i.val ≠ j.val := fun h => hji (Fin.ext h.symm)
  by_cases hjl : j = c.lastIdx
  · have := congrArg Fin.val hjl
    exact ⟨i, by omega, by simp [Ctl.movedFrom, hjl]⟩
  · have : j.val ≠ c.numClients - 1 := fun h => hjl (Fin.ext (h.trans hlast.symm))
    exact ⟨j, by omega, by simp [Ctl.movedFrom, hji]⟩

end MovedFrom

/-- After `remove_client` at slot `i`, slot `j'` in use holds what slot `i` held before
if `j' = i` was filled from the last slot, and otherwise what it held before. -/
theorem removeClient_clients (h : removeClient w i = .ok w') (j' : Fin maxClients)
    (hj' : j'.val < w'.ctl.numClients) :
    w'.ctl.clients j' = w.ctl.clients (w.ctl.movedFrom i j') := by
  obtain ⟨-, -, -, hn, hc, -⟩ := removeClient_ok h
  rw [hc, Ctl.movedFrom]
  by_cases hi : i = w.ctl.lastIdx
  · have : j' ≠ i := by
      rintro rfl; rw [hi, Ctl.lastIdx] at hj'; simp only at hj'; omega
    rw [if_neg this, if_neg (fun h => h hi)]
  · by_cases hj : j' = i
    · subst hj; simp [hi]
    · simp [hi, hj, Function.update_noteq]

/-- After a step of slot `i` and the removal of slot `i`, the clients in use are those of
the other slots in use before, each moved at most once. -/
theorem removeClient_step_clients {w'' : World} {b : Bool} (hf : StepFrame w w' i b)
    (hi : i.val < w.ctl.numClients) (hr : removeClient w' i = .ok w'') (j' : Fin maxClients)
    (hj' : j'.val < w''.ctl.numClients) :
    (w.ctl.movedFrom i j').val < w.ctl.numClients ∧ w.ctl.movedFrom i j' ≠ i ∧
      w''.ctl.clients j' = w.ctl.clients (w.ctl.movedFrom i j') := by
  have hn := (removeClient_ok hr).2.2.2.1
  have hj : j'.val < w.ctl.numClients - 1 := by rwa [hn, hf.numClients] at hj'
  have hm := Ctl.movedFrom_live hi hj
  have hmf : w'.ctl.movedFrom i j' = w.ctl.movedFrom i j' := by
    simp only [Ctl.movedFrom, Ctl.lastIdx, hf.numClients]
  exact ⟨hm.1, hm.2, by rw [removeClient_clients hr j' hj', hmf, hf.other _ hm.2]⟩

/-- ... and every other slot in use before is among them. -/
theorem removeClient_step_surj {w'' : World} {b : Bool} (hf : StepFrame w w' i b)
    (hi : i.val < w.ctl.numClients) (hr : removeClient w' i = .ok w'') {j : Fin maxClients}
    (hj : j.val < w.ctl.numClients) (hji : j ≠ i) :
    ∃ j', j'.val < w''.ctl.numClients ∧ w''.ctl.clients j' = w.ctl.clients j := by
  have hn := (removeClient_ok hr).2.2.2.1
  obtain ⟨j', hj', hm⟩ := Ctl.movedFrom_surj hi hj hji
  have hj'' : j'.val < w''.ctl.numClients := by rw [hn, hf.numClients]; exact hj'
  exact ⟨j', hj'', by rw [(removeClient_step_clients hf hi hr j' hj'').2.2, hm]⟩

/-- **Spec of `accept_client`**: nothing is accepted (the listening descriptor is not
readable, or `accept` fails), or the new descriptor `fd` goes into the first free slot,
registered for read interest, with the listening descriptor deregistered if the pool
is now full. -/
theorem acceptClient_ok {h : w.ctl.numClients < maxClients}
    (ha : acceptClient env w h = .ok w') :
    (w' = ⟨w.ctl, w.os.log (.readable false)⟩ ∧ env.readable w.os = false) ∨
    (w' = ⟨w.ctl, (w.os.log (.readable true)).log (.accept (w.os.trace.length + 1) none)⟩ ∧
      env.readable w.os = true ∧ env.accept (w.os.log (.readable true)) = none) ∨
    (∃ fd, env.readable w.os = true ∧ env.accept (w.os.log (.readable true)) = some fd ∧
      w.ctl.regSet fd = none ∧
      (w.ctl.numClients + 1 = maxClients →
        Function.update w.ctl.regSet fd (some .epollin) w.ctl.serverFd ≠ none) ∧
      w'.ctl.serverFd = w.ctl.serverFd ∧ w'.ctl.numClients = w.ctl.numClients + 1 ∧
      w'.ctl.clients = Function.update w.ctl.clients ⟨w.ctl.numClients, h⟩
        { w.ctl.clients ⟨w.ctl.numClients, h⟩ with
          fd := fd, isResponsePending := false, conn := w.os.trace.length + 1 } ∧
      w'.ctl.regSet = (if w.ctl.numClients + 1 = maxClients then
        Function.update (Function.update w.ctl.regSet fd (some .epollin)) w.ctl.serverFd none
        else Function.update w.ctl.regSet fd (some .epollin)) ∧
      w'.os.isOpen = Function.update w.os.isOpen fd true ∧
      w'.os.trace = w.os.trace ++ [.readable true, .accept (w.os.trace.length + 1) (some fd),
        .regAdd (.client (w.os.trace.length + 1)) fd .epollin] ++
        (if w.ctl.numClients + 1 = maxClients then [.regDel .listener w.ctl.serverFd]
          else [])) := by
  unfold acceptClient at ha
  dsimp only at ha
  split at ha
  · cases ha; left; simp_all
  · rename_i hready
    simp only [Bool.not_eq_true', Bool.not_eq_false] at hready
    split at ha
    · cases ha; right; left; simp_all [Os.log]
    · rename_i fd hfd
      rw [hready] at hfd
      split at ha
      · cases ha
      · rename_i r hr
        obtain ⟨hn, rfl⟩ := RegSet.add_eq_ok.mp hr
        right; right
        split at ha
        · split at ha
          · cases ha
          · rename_i hm r' hr'
            obtain ⟨hs, rfl⟩ := RegSet.del_eq_ok.mp hr'
            cases ha
            refine ⟨fd, hready, hfd, hn, fun _ => by simpa [Option.isSome_iff_ne_none] using hs, ?_⟩
            simp_all [Os.log, Os.opened]
        · cases ha
          refine ⟨fd, hready, hfd, hn, fun h => absurd h ‹_›, ?_⟩
          simp_all [Os.log, Os.opened]

/-- `accept_client` records the bytes of the slot it fills as the start buffer of the
connection it accepts, and changes no other start buffer. -/
theorem acceptClient_stale {h : w.ctl.numClients < maxClients}
    (ha : acceptClient env w h = .ok w') :
    (w'.ctl.numClients = w.ctl.numClients ∧ w'.ctl.stale = w.ctl.stale) ∨
    (w'.ctl.numClients = w.ctl.numClients + 1 ∧ w'.ctl.stale = Function.update w.ctl.stale
      (w.os.trace.length + 1) (w.ctl.clients ⟨w.ctl.numClients, h⟩).pendingResponse) := by
  unfold acceptClient at ha
  dsimp only at ha
  split at ha
  · cases ha; exact .inl ⟨rfl, rfl⟩
  split at ha
  · cases ha; exact .inl ⟨rfl, rfl⟩
  split at ha
  · cases ha
  split at ha
  · split at ha <;> cases ha; exact .inr ⟨rfl, by simp [Ctl.setReg, Os.log]⟩
  · cases ha; exact .inr ⟨rfl, by simp [Os.log]⟩

/-- A failed `remove_client` was refused by the registration set: it did not hold the
client's descriptor, or it still held the listening one when a full pool registers it
again. -/
theorem removeClient_error {f : Fault} (h : removeClient w i = .error f) :
    f = .regSet ∧ (w.ctl.regSet (w.ctl.clients i).fd = none ∨
      w.ctl.numClients = maxClients ∧
        (Function.update w.ctl.regSet (w.ctl.clients i).fd none w.ctl.serverFd).isSome) := by
  unfold removeClient at h
  dsimp only at h
  split at h
  · cases h
    obtain ⟨rfl, hn⟩ := RegSet.del_eq_error.mp ‹_›
    exact ⟨rfl, .inl hn⟩
  · rename_i r hr
    obtain ⟨-, rfl⟩ := RegSet.del_eq_ok.mp hr
    split at h
    · split at h
      · cases h
        obtain ⟨rfl, hs⟩ := RegSet.add_eq_error.mp ‹_›
        exact ⟨rfl, .inr ⟨‹_›, hs⟩⟩
      · cases h
    · cases h

/-- A failed `accept_client` was refused by the registration set: it already held the
accepted descriptor, or it did not hold the listening one when the pool became full. -/
theorem acceptClient_error {h : w.ctl.numClients < maxClients} {f : Fault}
    (ha : acceptClient env w h = .error f) :
    f = .regSet ∧ ∃ fd, env.accept (w.os.log (.readable true)) = some fd ∧
      ((w.ctl.regSet fd).isSome ∨ w.ctl.numClients + 1 = maxClients ∧
        Function.update w.ctl.regSet fd (some .epollin) w.ctl.serverFd = none) := by
  unfold acceptClient at ha
  dsimp only at ha
  split at ha
  · cases ha
  rename_i hready
  simp only [Bool.not_eq_true', Bool.not_eq_false] at hready
  rw [hready] at ha
  split at ha
  · cases ha
  rename_i fd hfd
  split at ha
  · cases ha
    obtain ⟨rfl, hs⟩ := RegSet.add_eq_error.mp ‹_›
    exact ⟨rfl, fd, hfd, .inl hs⟩
  rename_i r hr
  obtain ⟨-, rfl⟩ := RegSet.add_eq_ok.mp hr
  split at ha
  · split at ha
    · cases ha
      obtain ⟨rfl, hn⟩ := RegSet.del_eq_error.mp ‹_›
      exact ⟨rfl, fd, hfd, .inr ⟨‹_›, hn⟩⟩
    · cases ha
  · cases ha

/-- A failed `process_client` was refused by the registration set, which did not hold
the client's descriptor, or stopped in `add_attr`, listing the table into the client's
buffer. -/
theorem processClient_error {f : Fault} (h : processClient L tbl env w i = .error f) :
    (f = .regSet ∧ w.ctl.regSet (w.ctl.clients i).fd = none) ∨
      processGetAllAttr L tbl (w.ctl.clients i).pendingResponse = .error f := by
  unfold processClient at h
  dsimp only at h
  split at h
  · split at h <;> try cases h
    split at h
    · cases h; exact .inl (RegSet.mod_eq_error.mp ‹_›)
    · cases h
  · split at h <;> try cases h
    split at h
    · cases h
    split at h
    · cases h; exact .inl (RegSet.mod_eq_error.mp ‹_›)
    split at h
    · cases h
    split at h
    · split at h
      · cases h; exact .inr ‹_›
      · cases h
    · cases h

end Ops

/-! ### Creation -/

section Creation

variable (env) in
/-- What `create_ux` does to the descriptor table: when it fails, it has closed every
descriptor it opened; when it succeeds, the one descriptor it leaves open is the one it
returns, which was not open before. -/
theorem createUx_isOpen_cases (path : String) (os : Os) :
    ((createUx env path os).2 = none ∧ (createUx env path os).1.isOpen = os.isOpen) ∨
    ∃ fd, (createUx env path os).2 = some fd ∧ os.isOpen fd = false ∧
      (createUx env path os).1.isOpen = Function.update os.isOpen fd true := by
  unfold createUx
  dsimp only
  split
  · exact .inl ⟨rfl, rfl⟩
  · exact .inl ⟨rfl, rfl⟩
  split
  · exact .inl ⟨rfl, rfl⟩
  rename_i fd hfd
  have hfresh : os.isOpen fd = false := by simpa using env.socket_fresh _ fd hfd
  -- closing the socket again restores the table
  have hclose : Function.update (Function.update os.isOpen fd true) fd false = os.isOpen := by
    rw [Function.update_idem, ← hfresh, Function.update_eq_self]
  split
  · exact .inl ⟨rfl, hclose⟩
  split
  · exact .inl ⟨rfl, hclose⟩
  · exact .inr ⟨fd, rfl, hfresh, rfl⟩

/-- `create_ux` accepts nothing. -/
theorem createUx_accept {path : String} {os : Os} {c : Nat} {r : Option Fd}
    (h : Event.accept c r ∈ (createUx env path os).1.trace) : Event.accept c r ∈ os.trace := by
  unfold createUx at h
  dsimp only at h
  split at h <;> (repeat' split at h) <;> simpa [Os.log, Os.opened, Os.close] using h

/-- **Spec of `ctl_create`**: an endpoint is made only when `create_ux` returns a
descriptor, and it is the zeroed endpoint around that descriptor, registered for read
interest. -/
theorem ctlCreate_ok {path : String} {os : Os} {w : World}
    (h : ctlCreate env path os = .ok (some w)) :
    ∃ os' fd, createUx env path os = (os', some fd) ∧
      w = ⟨⟨fd, fun _ => Client.zeros, 0, Nat.zero_le _,
        Function.update RegSet.empty fd (some .epollin), fun _ => Buf.zeros⟩,
        os'.log (.regAdd .listener fd .epollin)⟩ := by
  unfold ctlCreate at h
  split at h
  · cases h
  rename_i os' fd hc
  split at h
  · cases h
  rename_i r hr
  obtain ⟨-, rfl⟩ := RegSet.add_eq_ok.mp hr
  cases h
  exact ⟨os', fd, hc, rfl⟩

end Creation

/-! ### Runs -/

section Induction

variable (P : World → Prop)
  (hstep : ∀ w w' (i : Fin maxClients), P w → i.val < w.ctl.numClients →
    processClient L tbl env w i = .ok (w', true) → P w')
  (hfail : ∀ w w' w'' (i : Fin maxClients), P w → i.val < w.ctl.numClients →
    processClient L tbl env w i = .ok (w', false) → removeClient w' i = .ok w'' → P w'')

include hstep hfail in
/-- The loop of `ctl_process` keeps a property that each successful client step keeps,
that removing a client after a failed step restores, and that the nested call keeps. -/
theorem processLoop_preserves {nested : World → Except Fault World}
    (hn : ∀ w w', P w → nested w = .ok w' → P w') :
    ∀ k i w w', P w → processLoop L tbl env nested k i w = .ok w' → P w' := by
  intro k
  induction k with
  | zero =>
    intro i w w' hw h
    unfold processLoop at h
    split at h
    · cases h
    · cases h; exact hw
  | succ k ih =>
    intro i w w' hw h
    unfold processLoop at h
    split at h
    · rename_i hi
      dsimp only at h
      split at h
      · cases h
      · exact ih _ _ _ (hstep _ _ _ hw hi ‹_›) h
      · split at h
        · cases h
        · split at h
          · cases h
          · exact ih _ _ _ (hn _ _ (hfail _ _ _ _ hw hi ‹_› ‹_›) ‹_›) h
    · cases h; exact hw

include hstep hfail in
/-- **Induction principle for `ctl_process`**: a property of worlds that each successful
client step keeps, that removing a client after a failed step restores, and that
`accept_client` keeps, holds after every call. -/
theorem ctlProcessn_preserves
    (hacc : ∀ w w' (h : w.ctl.numClients < maxClients), P w → acceptClient env w h = .ok w' →
      P w') :
    ∀ d w w', P w → ctlProcessn L tbl env d w = .ok w' → P w' := by
  intro d
  induction d with
  | zero => intro w w' _ h; cases h
  | succ d ih =>
    intro w w' hw h
    unfold ctlProcessn at h
    split at h
    · cases h
    · have hw1 := processLoop_preserves P hstep hfail ih _ _ _ _ hw ‹_›
      split at h
      · exact hacc _ _ _ hw1 h
      · cases h; exact hw1

end Induction

end Xcm
