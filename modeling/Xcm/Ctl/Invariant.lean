import Xcm.Ctl.Spec

/-!
# The Pool and Registration Invariant

The descriptors of the endpoint and its registrations agree at every call boundary:
the clients in use hold distinct open descriptors other than the listening one, the
registration set holds exactly those descriptors, each client's with the interest its
state calls for, and the listening descriptor for read interest exactly while the pool
has a free slot (`Inv`). Every `epoll_reg_set` call the endpoint makes is then one the
set accepts.

The proof follows the operations of `Xcm.Ctl.Spec`: what each does to the invariant,
then the induction principle `ctlProcessn_preserves` turns the three into one run
lemma.

## Main results

* `Inv`: the invariant, with the ghost fact that each connection's name is the position
  in the trace of the accept that returned its descriptor.
* `ctlCreate_inv`, `ctlProcessn_inv`: creation establishes it and processing keeps it.
* `reachable_inv`: it holds in every reachable state, and from there `ctl_process`
  never makes a call the registration set refuses.
-/

namespace Xcm

variable {L : ProtoLayout} {tbl : List Attr} {env : Env}

/-! ### The invariant -/

/-- A position of the trace keeps its event as the trace grows. -/
theorem getElem?_of_prefix {l l' : List Event} (h : l <+: l') {n : Nat} {e : Event}
    (hn : l[n]? = some e) : l'[n]? = some e := by
  obtain ⟨t, rfl⟩ := h
  rw [List.getElem?_append_left (List.getElem?_eq_some_iff.1 hn).1, hn]

/-- The invariant but for the interest of each client's registration, which a failed
step may leave stale until the client is removed: the clients in use hold distinct
open descriptors other than the listening one, the registration set holds exactly
these descriptors and the listening one while the pool has a free slot, and each
connection is named by the position of the accept that returned its descriptor. -/
structure Pool (w : World) : Prop where
  server_open : w.os.isOpen w.ctl.serverFd = true
  client_open : ∀ j : Fin maxClients, j.val < w.ctl.numClients →
    w.os.isOpen (w.ctl.clients j).fd = true
  client_ne_server : ∀ j : Fin maxClients, j.val < w.ctl.numClients →
    (w.ctl.clients j).fd ≠ w.ctl.serverFd
  client_inj : ∀ j k : Fin maxClients, j.val < w.ctl.numClients → k.val < w.ctl.numClients →
    (w.ctl.clients j).fd = (w.ctl.clients k).fd → j = k
  reg_server : w.ctl.regSet w.ctl.serverFd =
    if w.ctl.numClients < maxClients then some .epollin else none
  reg_live : ∀ j : Fin maxClients, j.val < w.ctl.numClients →
    (w.ctl.regSet (w.ctl.clients j).fd).isSome
  reg_dom : ∀ fd, (w.ctl.regSet fd).isSome →
    fd = w.ctl.serverFd ∨ ∃ j : Fin maxClients, j.val < w.ctl.numClients ∧ (w.ctl.clients j).fd = fd
  conn_accept : ∀ j : Fin maxClients, j.val < w.ctl.numClients →
    w.os.trace[(w.ctl.clients j).conn]? =
      some (.accept (w.ctl.clients j).conn (some (w.ctl.clients j).fd))

/-- **The pool and registration invariant**: `Pool`, and each client in use is
registered with the interest its state calls for. -/
structure Inv (w : World) extends Pool w : Prop where
  reg_client : ∀ j : Fin maxClients, j.val < w.ctl.numClients →
    w.ctl.regSet (w.ctl.clients j).fd = some (w.ctl.clients j).interest

section Preservation

variable {w w' w'' : World} {i : Fin maxClients} {b : Bool}

/-- A client step keeps `Pool`. -/
theorem Pool.step (hp : Pool w) (hf : StepFrame w w' i b) (hi : i.val < w.ctl.numClients) :
    Pool w' := by
  have hs : w.ctl.serverFd ≠ (w.ctl.clients i).fd := (hp.client_ne_server i hi).symm
  have hn := hf.numClients
  refine ⟨?_, fun j hj => ?_, fun j hj => ?_, fun j k hj hk => ?_, ?_, fun j hj => ?_,
    fun fd hfd => ?_, fun j hj => ?_⟩ <;> rw [hn] at *
  · rw [hf.isOpen, hf.serverFd]; exact hp.server_open
  · rw [hf.isOpen, hf.fd_eq]; exact hp.client_open j hj
  · rw [hf.fd_eq, hf.serverFd]; exact hp.client_ne_server j hj
  · rw [hf.fd_eq, hf.fd_eq]; exact hp.client_inj j k hj hk
  · rw [hf.serverFd, hf.reg_other _ hs, hp.reg_server]
  · rw [hf.fd_eq]
    by_cases he : (w.ctl.clients j).fd = (w.ctl.clients i).fd
    · rw [he, hf.reg_self]; exact hp.reg_live i hi
    · rw [hf.reg_other _ he]; exact hp.reg_live j hj
  · rw [hf.serverFd]
    by_cases he : fd = (w.ctl.clients i).fd
    · exact .inr ⟨i, hi, by rw [hf.fd_eq, he]⟩
    · rw [hf.reg_other _ he] at hfd
      obtain h | ⟨j, hj, rfl⟩ := hp.reg_dom fd hfd
      · exact .inl h
      · exact .inr ⟨j, hj, hf.fd_eq j⟩
  · rw [hf.fd_eq, hf.conn_eq]
    exact getElem?_of_prefix hf.trace (hp.conn_accept j hj)

/-- A client step keeps the registrations of the other clients right, and that of the
stepped client too when the step succeeds. -/
theorem Inv.step_reg (hv : Inv w) (hf : StepFrame w w' i b) (hi : i.val < w.ctl.numClients)
    (j : Fin maxClients) (hj : j.val < w'.ctl.numClients) (hji : b = true ∨ j ≠ i) :
    w'.ctl.regSet (w'.ctl.clients j).fd = some (w'.ctl.clients j).interest := by
  rw [hf.numClients] at hj
  by_cases hji' : j = i
  · subst hji'
    rw [hf.fd]
    exact hf.reg_ok (hji.resolve_right (· rfl)) (hv.reg_client j hi)
  · have hne : (w.ctl.clients j).fd ≠ (w.ctl.clients i).fd :=
      fun he => hji' (hv.client_inj j i hj hi he)
    rw [hf.other j hji', hf.reg_other _ hne]
    exact hv.reg_client j hj

/-- A successful client step keeps `Inv`. -/
theorem Inv.step (hv : Inv w) (hf : StepFrame w w' i true) (hi : i.val < w.ctl.numClients) :
    Inv w' :=
  ⟨hv.toPool.step hf hi, fun j hj => hv.step_reg hf hi j hj (.inl rfl)⟩

/-- `remove_client` restores `Inv` from `Pool` and right registrations of the clients
other than the one removed. -/
theorem Pool.remove (hp : Pool w) (hi : i.val < w.ctl.numClients)
    (hreg : ∀ j : Fin maxClients, j.val < w.ctl.numClients → j ≠ i →
      w.ctl.regSet (w.ctl.clients j).fd = some (w.ctl.clients j).interest)
    (h : removeClient w i = .ok w') : Inv w' := by
  obtain ⟨-, -, hsv, hn, -, hr, ho, ht⟩ := removeClient_ok h
  have hc := removeClient_clients h
  have hs : w.ctl.serverFd ≠ (w.ctl.clients i).fd := (hp.client_ne_server i hi).symm
  -- the client in slot `j'` afterwards is that of a slot `σ j'` in use before, not `i`
  have hσ : ∀ j', j'.val < w'.ctl.numClients →
      (w.ctl.movedFrom i j').val < w.ctl.numClients ∧ w.ctl.movedFrom i j' ≠ i ∧
      w'.ctl.clients j' = w.ctl.clients (w.ctl.movedFrom i j') ∧
      (w.ctl.clients (w.ctl.movedFrom i j')).fd ≠ (w.ctl.clients i).fd := by
    intro j' hj'
    obtain ⟨h1, h2⟩ := Ctl.movedFrom_live hi (hn ▸ hj')
    exact ⟨h1, h2, hc j' hj', fun he => h2 (hp.client_inj _ i h1 hi he)⟩
  -- so every registration kept is one the removal did not touch
  have hreg' : ∀ j', j'.val < w'.ctl.numClients →
      w'.ctl.regSet (w'.ctl.clients j').fd = w.ctl.regSet (w'.ctl.clients j').fd := by
    intro j' hj'
    obtain ⟨h1, -, hcj, hne⟩ := hσ j' hj'
    rw [hr, hcj]
    have hns := hp.client_ne_server _ h1
    split_ifs <;> simp only [Function.update_noteq hns, Function.update_noteq hne]
  refine ⟨⟨?_, fun j' hj' => ?_, fun j' hj' => ?_, fun j' k' hj' hk' he => ?_, ?_,
    fun j' hj' => ?_, fun fd hfd => ?_, fun j' hj' => ?_⟩, fun j' hj' => ?_⟩
  · rw [ho, hsv, Function.update_noteq hs]; exact hp.server_open
  · obtain ⟨h1, -, hcj, hne⟩ := hσ j' hj'
    rw [ho, hcj, Function.update_noteq hne]
    exact hp.client_open _ h1
  · obtain ⟨h1, -, hcj, -⟩ := hσ j' hj'
    rw [hcj, hsv]; exact hp.client_ne_server _ h1
  · obtain ⟨h1, -, hcj, -⟩ := hσ j' hj'
    obtain ⟨h1', -, hck, -⟩ := hσ k' hk'
    rw [hcj, hck] at he
    exact Ctl.movedFrom_inj (hn ▸ hj') (hn ▸ hk') (hp.client_inj _ _ h1 h1' he)
  · have := w.ctl.num_le
    rw [hr, hsv, hn]
    by_cases hfull : w.ctl.numClients = maxClients
    · rw [if_pos hfull, if_pos (by omega)]; simp
    · rw [if_neg hfull, Function.update_noteq hs, hp.reg_server, if_pos (by omega),
        if_pos (by omega)]
  · rw [hreg' j' hj', (hσ j' hj').2.2.1]; exact hp.reg_live _ (hσ j' hj').1
  · rw [hsv]
    have hfd' : fd ≠ (w.ctl.clients i).fd ∧ (fd = w.ctl.serverFd ∨ (w.ctl.regSet fd).isSome) := by
      rw [hr] at hfd
      by_cases he : fd = w.ctl.serverFd
      · exact ⟨he ▸ hs, .inl he⟩
      by_cases he' : fd = (w.ctl.clients i).fd
      · subst he'
        split_ifs at hfd <;> simp [Function.update_noteq hs.symm] at hfd
      · split_ifs at hfd <;> simp_all [Function.update_noteq]
    obtain ⟨hne, hfd' | hfd'⟩ := hfd'
    · exact .inl hfd'
    obtain h | ⟨j, hj, rfl⟩ := hp.reg_dom fd hfd'
    · exact .inl h
    have hji : j ≠ i := fun he => hne (by rw [he])
    obtain ⟨j', hj', rfl⟩ := Ctl.movedFrom_surj hi hj hji
    exact .inr ⟨j', hn ▸ hj', by rw [hc j' (hn ▸ hj')]⟩
  · obtain ⟨h1, -, hcj, -⟩ := hσ j' hj'
    rw [ht, hcj, List.append_assoc]
    exact getElem?_of_prefix (List.prefix_append _ _) (hp.conn_accept _ h1)
  · obtain ⟨h1, h2, hcj, -⟩ := hσ j' hj'
    rw [hreg' j' hj', hcj]
    exact hreg _ h1 h2

/-- Calls that only add to the trace keep `Inv`. -/
theorem Inv.keep {c : Ctl} {os os' : Os} (hv : Inv ⟨c, os⟩) (hopen : os'.isOpen = os.isOpen)
    (htr : os.trace <+: os'.trace) : Inv ⟨c, os'⟩ :=
  ⟨⟨hopen ▸ hv.server_open, fun j hj => hopen ▸ hv.client_open j hj, hv.client_ne_server,
    hv.client_inj, hv.reg_server, hv.reg_live, hv.reg_dom,
    fun j hj => getElem?_of_prefix htr (hv.conn_accept j hj)⟩, hv.reg_client⟩

/-- `accept_client` keeps `Inv`: the kernel's descriptor is not open, so it is none of
the endpoint's. -/
theorem Inv.accept {h : w.ctl.numClients < maxClients} (hv : Inv w)
    (ha : acceptClient env w h = .ok w') : Inv w' := by
  rcases acceptClient_ok ha with ⟨rfl, -⟩ | ⟨rfl, -⟩ | ⟨fd, -, hfd, -, -, hsv, hn, hc, hr, ho, ht⟩
  · exact hv.keep rfl (by simp)
  · exact hv.keep rfl (by simp [List.append_assoc])
  have hfresh : w.os.isOpen fd = false := by simpa using env.accept_fresh _ fd hfd
  set s : Fin maxClients := ⟨w.ctl.numClients, h⟩
  have hns : fd ≠ w.ctl.serverFd := fun he => by
    rw [he, hv.server_open] at hfresh; cases hfresh
  have hno : ∀ j : Fin maxClients, j.val < w.ctl.numClients → (w.ctl.clients j).fd ≠ fd :=
    fun j hj he => by rw [← he, hv.client_open j hj] at hfresh; cases hfresh
  -- slot `j` in use afterwards is the new slot `s` or a slot in use before
  have hold : ∀ j : Fin maxClients, j.val < w'.ctl.numClients → j ≠ s →
      j.val < w.ctl.numClients ∧ w'.ctl.clients j = w.ctl.clients j := fun j hj hjs => by
    rw [hn] at hj
    exact ⟨by have : j.val ≠ w.ctl.numClients := fun e => hjs (Fin.ext e); omega,
      by rw [hc, Function.update_noteq hjs]⟩
  have hcs : w'.ctl.clients s = { w.ctl.clients s with
      fd := fd, isResponsePending := false, conn := w.os.trace.length + 1 } := by
    rw [hc, Function.update_same]
  -- the registration set only changed at `fd` and at the listening descriptor
  have hreg : ∀ f, f ≠ fd → f ≠ w.ctl.serverFd → w'.ctl.regSet f = w.ctl.regSet f := by
    intro f h1 h2
    rw [hr]; split_ifs <;> simp [Function.update_noteq h1, Function.update_noteq h2]
  have hregfd : w'.ctl.regSet fd = some .epollin := by
    rw [hr]; split_ifs <;> simp [Function.update_noteq hns]
  refine ⟨⟨?_, fun j hj => ?_, fun j hj => ?_, fun j k hj hk he => ?_, ?_, fun j hj => ?_,
    fun f hf => ?_, fun j hj => ?_⟩, fun j hj => ?_⟩
  · rw [ho, hsv, Function.update_noteq hns.symm]; exact hv.server_open
  · by_cases hjs : j = s
    · rw [ho, hjs, hcs]; simp
    · obtain ⟨hj', hcj⟩ := hold j hj hjs
      rw [ho, hcj, Function.update_noteq (hno j hj')]; exact hv.client_open j hj'
  · rw [hsv]
    by_cases hjs : j = s
    · rw [hjs, hcs]; exact hns
    · obtain ⟨hj', hcj⟩ := hold j hj hjs
      rw [hcj]; exact hv.client_ne_server j hj'
  · by_cases hjs : j = s <;> by_cases hks : k = s
    · rw [hjs, hks]
    · obtain ⟨hk', hck⟩ := hold k hk hks
      rw [hjs, hcs, hck] at he; exact absurd he.symm (hno k hk')
    · obtain ⟨hj', hcj⟩ := hold j hj hjs
      rw [hks, hcs, hcj] at he; exact absurd he (hno j hj')
    · obtain ⟨hj', hcj⟩ := hold j hj hjs
      obtain ⟨hk', hck⟩ := hold k hk hks
      rw [hcj, hck] at he; exact hv.client_inj j k hj' hk' he
  · rw [hsv, hn, hr]
    by_cases hfull : w.ctl.numClients + 1 = maxClients
    · rw [if_pos hfull, if_neg (by omega)]; simp
    · rw [if_neg hfull, if_pos (by omega), Function.update_noteq hns.symm, hv.reg_server, if_pos h]
  · by_cases hjs : j = s
    · rw [hjs, hcs]; simp [hregfd]
    · obtain ⟨hj', hcj⟩ := hold j hj hjs
      rw [hcj, hreg _ (hno j hj') (hv.client_ne_server j hj')]; exact hv.reg_live j hj'
  · rw [hsv]
    by_cases h1 : f = fd
    · exact .inr ⟨s, by rw [hn]; exact Nat.lt_succ_self _, by rw [hcs, h1]⟩
    by_cases h2 : f = w.ctl.serverFd
    · exact .inl h2
    rw [hreg f h1 h2] at hf
    obtain h | ⟨j, hj, rfl⟩ := hv.reg_dom f hf
    · exact .inl h
    · have hjs : j ≠ s := fun e => by rw [e] at hj; exact Nat.lt_irrefl _ hj
      exact .inr ⟨j, by rw [hn]; omega, by rw [hc, Function.update_noteq hjs]⟩
  · rw [ht]
    by_cases hjs : j = s
    · rw [hjs, hcs]
      simp only [List.append_assoc, List.cons_append, List.nil_append]
      rw [List.getElem?_append_right (by omega)]
      simp
    · obtain ⟨hj', hcj⟩ := hold j hj hjs
      rw [hcj, List.append_assoc]
      exact getElem?_of_prefix (List.prefix_append _ _) (hv.conn_accept j hj')
  · by_cases hjs : j = s
    · rw [hjs, hcs]; simp [hregfd, Client.interest]
    · obtain ⟨hj', hcj⟩ := hold j hj hjs
      rw [hcj, hreg _ (hno j hj') (hv.client_ne_server j hj')]; exact hv.reg_client j hj'

end Preservation


variable {w w' : World}

/-- A failed step leaves `Pool` and the other clients' registrations, from which
`remove_client` restores `Inv`. -/
theorem Inv.fail_remove {w'' : World} {i : Fin maxClients} (hv : Inv w)
    (hi : i.val < w.ctl.numClients) (h : processClient L tbl env w i = .ok (w', false))
    (hr : removeClient w' i = .ok w'') : Inv w'' := by
  have hf := processClient_frame h
  exact (hv.toPool.step hf hi).remove (hf.numClients ▸ hi)
    (fun j hj hji => hv.step_reg hf hi j hj (.inr hji)) hr

/-- `ctl_process` keeps `Inv`. -/
theorem ctlProcessn_inv {d : Nat} (hv : Inv w) (h : ctlProcessn L tbl env d w = .ok w') :
    Inv w' :=
  ctlProcessn_preserves Inv (fun _ _ _ hw hi h => hw.step (processClient_frame h) hi)
    (fun _ _ _ _ hw hi h hr => hw.fail_remove hi h hr) (fun _ _ _ hw ha => hw.accept ha)
    d w w' hv h

/-- `create_ux` hands back a descriptor it holds open. -/
theorem createUx_isOpen {path : String} {os os' : Os} {fd : Fd}
    (h : createUx env path os = (os', some fd)) : os'.isOpen fd = true := by
  rcases createUx_isOpen_cases env path os with ⟨h1, -⟩ | ⟨fd', h1, -, h2⟩
  · rw [h] at h1; cases h1
  · rw [h] at h1 h2
    cases h1
    rw [h2, Function.update_same]

/-- `ctl_create` establishes `Inv`. -/
theorem ctlCreate_inv {path : String} {os : Os} (h : ctlCreate env path os = .ok (some w)) :
    Inv w := by
  obtain ⟨os', fd, hc, rfl⟩ := ctlCreate_ok h
  have ho := createUx_isOpen hc
  refine ⟨⟨by simpa [Os.log] using ho, fun j hj => absurd hj (Nat.not_lt_zero _),
    fun j hj => absurd hj (Nat.not_lt_zero _), fun j _ hj => absurd hj (Nat.not_lt_zero _),
    by simp [maxClients], fun j hj => absurd hj (Nat.not_lt_zero _), fun f hf => ?_,
    fun j hj => absurd hj (Nat.not_lt_zero _)⟩, fun j hj => absurd hj (Nat.not_lt_zero _)⟩
  by_cases he : f = fd
  · exact .inl he
  · simp [Function.update_noteq he, RegSet.empty] at hf

/-! ### No refused registration call -/

/-- From `Pool`, `remove_client` is accepted by the registration set. -/
theorem Pool.removeClient_ne {i : Fin maxClients} (hp : Pool w) (hi : i.val < w.ctl.numClients)
    (f : Fault) : removeClient w i ≠ .error f := fun h => by
  rcases (removeClient_error h).2 with hn | ⟨hfull, hs⟩
  · simpa [hn] using hp.reg_live i hi
  · rw [Function.update_noteq (hp.client_ne_server i hi).symm, hp.reg_server,
      if_neg (by omega)] at hs
    cases hs

/-- From `Inv`, `accept_client` is accepted by the registration set: the kernel's
descriptor is not open, so it is none of the endpoint's. -/
theorem Inv.acceptClient_ne {h : w.ctl.numClients < maxClients} (hv : Inv w) (f : Fault) :
    acceptClient env w h ≠ .error f := fun ha => by
  obtain ⟨-, fd, hfd, hreg⟩ := acceptClient_error ha
  have hfresh : w.os.isOpen fd = false := by simpa using env.accept_fresh _ fd hfd
  rcases hreg with hr | ⟨-, hs⟩
  · rcases hv.reg_dom fd hr with rfl | ⟨j, hj, rfl⟩
    · rw [hv.server_open] at hfresh; cases hfresh
    · rw [hv.client_open j hj] at hfresh; cases hfresh
  · have hns : w.ctl.serverFd ≠ fd := fun he => by
      rw [← he, hv.server_open] at hfresh; cases hfresh
    rw [Function.update_noteq hns, hv.reg_server, if_pos h] at hs
    cases hs

/-- From `Inv`, a client step is accepted by the registration set. -/
theorem Inv.processClient_ne {i : Fin maxClients} (hv : Inv w) (hi : i.val < w.ctl.numClients) :
    processClient L tbl env w i ≠ .error .regSet := fun h => by
  rcases processClient_error h with ⟨-, hn⟩ | h
  · simpa [hn] using hv.reg_live i hi
  · rcases processGetAllAttr_error L h with h | h | h <;> cases h

section NoFault

variable {f : Fault}
  (hpc : ∀ w i, Inv w → i.val < w.ctl.numClients → processClient L tbl env w i ≠ .error f)
include hpc

/-- From `Inv`, the loop of `ctl_process` stops with no fault that no client step stops
with, if the nested call does not: removals and accepts from `Inv` never stop. -/
theorem Inv.processLoop_ne {nested : World → Except Fault World}
    (hn : ∀ w, Inv w → nested w ≠ .error f)
    (hn' : ∀ w w', Inv w → nested w = .ok w' → Inv w') (hfuel : f ≠ .fuel) :
    ∀ k i w, Inv w → processLoop L tbl env nested k i w ≠ .error f := by
  intro k
  induction k with
  | zero => intro i w _ h; unfold processLoop at h; split at h <;> cases h; exact hfuel rfl
  | succ k ih =>
    intro i w hv h
    unfold processLoop at h
    split at h
    · rename_i hi
      dsimp only at h
      split at h
      · rename_i hp; cases h; exact hpc _ _ hv hi hp
      · exact ih _ _ (hv.step (processClient_frame ‹_›) hi) h
      · rename_i hp
        have hf := processClient_frame hp
        split at h
        · exact (hv.toPool.step hf hi).removeClient_ne (hf.numClients ▸ hi) _ ‹_›
        · have hv2 := hv.fail_remove hi hp ‹_›
          split at h
          · rename_i hn2; cases h; exact hn _ hv2 hn2
          · exact ih _ _ (hn' _ _ hv2 ‹_›) h
    · cases h

/-- From `Inv`, no call of `ctl_process` stops with a fault, other than the budget's, that
no client step stops with. -/
theorem Inv.ctlProcessn_ne_of (hfuel : f ≠ .fuel) (d : Nat) :
    ∀ w, Inv w → ctlProcessn L tbl env d w ≠ .error f := by
  induction d with
  | zero => intro w _ h; cases h; exact hfuel rfl
  | succ d ih =>
    intro w hv h
    unfold ctlProcessn at h
    split at h
    · rename_i hl; cases h
      exact Inv.processLoop_ne hpc ih (fun _ _ => ctlProcessn_inv) hfuel _ _ _ hv hl
    · rename_i hl
      have hv1 := processLoop_preserves Inv
        (fun _ _ _ hw hi h => hw.step (processClient_frame h) hi)
        (fun _ _ _ _ hw hi h hr => hw.fail_remove hi h hr) (fun _ _ => ctlProcessn_inv)
        _ _ _ _ hv hl
      split at h
      · exact hv1.acceptClient_ne _ h
      · cases h

end NoFault

/-- From `Inv`, no call of `ctl_process` is refused by the registration set. -/
theorem Inv.ctlProcessn_ne (d : Nat) (w : World) (hv : Inv w) :
    ctlProcessn L tbl env d w ≠ .error .regSet :=
  Inv.ctlProcessn_ne_of (fun _ _ hv hi => hv.processClient_ne hi) (by decide) d w hv

/-- Every endpoint reachable from `ctl_create` satisfies `Inv`. -/
theorem Reachable.inv {w : World} (h : Reachable L tbl w) : Inv w := by
  induction h with
  | create env _ hc => exact ctlCreate_inv hc
  | process env _ hp ih => exact ctlProcessn_inv ih hp

/-- **The pool and registration invariant.** Every endpoint reachable from `ctl_create`
satisfies `Inv`, and no call of `ctl_process` from it makes an `epoll_reg_set` call the
set refuses: every add is of an unregistered descriptor, every modify and delete of a
registered one. -/
theorem reachable_inv {w : World} (h : Reachable L tbl w) :
    Inv w ∧ ∀ env, ctlProcess L tbl env w ≠ .error .regSet :=
  ⟨h.inv, fun _ => Inv.ctlProcessn_ne _ w h.inv⟩

/-- Once two clients have connected and filled the pool, the endpoint satisfies `Inv`, and
no call of `ctl_process` from it is refused by the registration set. -/
theorem full_pool_inv : ∃ w, Reachable ProtoLayout.small [] w ∧ w.ctl.numClients = maxClients ∧
    Inv w ∧ ∀ env, ctlProcess ProtoLayout.small [] env w ≠ .error .regSet :=
  have hr : Reachable ProtoLayout.small [] _ :=
    .process Env.twoIdle (.process Env.twoIdle (.create Env.twoIdle "ctl" rfl) rfl) rfl
  ⟨_, hr, rfl, reachable_inv hr⟩

end Xcm
