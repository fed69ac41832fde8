import Xcm.Ctl.Invariant

/-!
# No Leaked Descriptor

The endpoint holds open exactly its own descriptors: the listening one and those of the
clients in use (`reachable_isOpen_iff`). `Inv` gives half of this, that its descriptors
are open; the other half, that nothing else is, is `OwnsOpen`. Each operation keeps it:
a client step opens and closes nothing, `remove_client` closes the descriptor of the
client it drops, and `accept_client` opens only the descriptor of the client it adds.
`create_ux` closes again every descriptor it opened when it fails
(`createUx_isOpen_cases`, in `Xcm.Ctl.Spec`), so a failed `ctl_create` leaks nothing
either.

## Main results

* `createUx_failed_isOpen`: a failed `create_ux` leaves the descriptor table as it was.
* `OwnsOpen`, `Reachable.ownsOpen`: every open descriptor is the endpoint's, in every
  reachable state.
* `reachable_isOpen_iff`: the open descriptors are exactly the endpoint's.
-/

namespace Xcm

variable {L : ProtoLayout} {tbl : List Attr} {env : Env}

/-! ### Creation -/

/-- **A failed `create_ux` leaks no descriptor**: whichever call failed, the socket it had
opened by then is closed again, and the descriptor table is as it was. -/
theorem createUx_failed_isOpen {path : String} {os : Os} (h : (createUx env path os).2 = none) :
    (createUx env path os).1.isOpen = os.isOpen := by
  rcases createUx_isOpen_cases env path os with ⟨-, ho⟩ | ⟨fd, hs, -⟩
  · exact ho
  · rw [h] at hs; cases hs

/-! ### The endpoint owns what is open -/

/-- Every descriptor held open is the endpoint's: the listening one or that of a client
in use. -/
def OwnsOpen (w : World) : Prop :=
  ∀ fd, w.os.isOpen fd = true → fd = w.ctl.serverFd ∨
    ∃ j : Fin maxClients, j.val < w.ctl.numClients ∧ (w.ctl.clients j).fd = fd

section Preservation

variable {w w' : World} {i : Fin maxClients} {b : Bool}

/-- A client step opens and closes nothing. -/
theorem OwnsOpen.step (ho : OwnsOpen w) (hf : StepFrame w w' i b) : OwnsOpen w' := by
  intro fd h
  rw [hf.isOpen] at h
  rcases ho fd h with h | ⟨j, hj, rfl⟩
  · exact .inl (h.trans hf.serverFd.symm)
  · exact .inr ⟨j, hf.numClients ▸ hj, hf.fd_eq j⟩

/-- `remove_client` closes the descriptor of the client it drops, and every other client
in use is still in use. -/
theorem OwnsOpen.remove (ho : OwnsOpen w) (hi : i.val < w.ctl.numClients)
    (h : removeClient w i = .ok w') : OwnsOpen w' := by
  obtain ⟨-, -, hsv, hn, -, -, hopen, -⟩ := removeClient_ok h
  intro fd hfd
  by_cases hne : fd = (w.ctl.clients i).fd
  · rw [hopen, hne, Function.update_same] at hfd; cases hfd
  rw [hopen, Function.update_noteq hne] at hfd
  rcases ho fd hfd with h' | ⟨j, hj, rfl⟩
  · exact .inl (h'.trans hsv.symm)
  · obtain ⟨j', hj', rfl⟩ := Ctl.movedFrom_surj hi hj fun he => hne (by rw [he])
    exact .inr ⟨j', hn ▸ hj', by rw [removeClient_clients h j' (hn ▸ hj')]⟩

/-- `accept_client` opens only the descriptor of the client it adds. -/
theorem OwnsOpen.accept {h : w.ctl.numClients < maxClients} (ho : OwnsOpen w)
    (ha : acceptClient env w h = .ok w') : OwnsOpen w' := by
  rcases acceptClient_ok ha with ⟨rfl, -⟩ | ⟨rfl, -⟩ | ⟨fd, -, -, -, -, hsv, hn, hc, -, hopen, -⟩
  · exact ho
  · exact ho
  intro f hf
  set s : Fin maxClients := ⟨w.ctl.numClients, h⟩
  by_cases h1 : f = fd
  · exact .inr ⟨s, by rw [hn]; exact Nat.lt_succ_self _, by rw [hc, Function.update_same, h1]⟩
  rw [hopen, Function.update_noteq h1] at hf
  rcases ho f hf with h' | ⟨j, hj, rfl⟩
  · exact .inl (h'.trans hsv.symm)
  · have hjs : j ≠ s := fun e => by rw [e] at hj; exact Nat.lt_irrefl _ hj
    exact .inr ⟨j, by rw [hn]; omega, by rw [hc, Function.update_noteq hjs]⟩

end Preservation

variable {w w' : World}

/-- `ctl_process` keeps `OwnsOpen`. -/
theorem ctlProcessn_ownsOpen {d : Nat} (ho : OwnsOpen w) (h : ctlProcessn L tbl env d w = .ok w') :
    OwnsOpen w' :=
  ctlProcessn_preserves OwnsOpen (fun _ _ _ hw _ h => hw.step (processClient_frame h))
    (fun _ _ _ _ hw hi h hr =>
      (hw.step (processClient_frame h)).remove ((processClient_frame h).numClients ▸ hi) hr)
    (fun _ _ _ hw ha => hw.accept ha) d w w' ho h

/-- `ctl_create` establishes `OwnsOpen`: the listening descriptor is the only one open. -/
theorem ctlCreate_ownsOpen {path : String} (h : ctlCreate env path Os.init = .ok (some w)) :
    OwnsOpen w := by
  obtain ⟨os', fd, hc, rfl⟩ := ctlCreate_ok h
  rcases createUx_isOpen_cases env path Os.init with ⟨h1, -⟩ | ⟨fd', h1, -, h2⟩
  · rw [hc] at h1; cases h1
  rw [hc] at h1 h2
  cases h1
  intro f hf
  by_cases hne : f = fd
  · exact .inl hne
  · rw [Os.log_isOpen, h2, Function.update_noteq hne] at hf; cases hf

/-- Every endpoint reachable from `ctl_create` holds open only its own descriptors. -/
theorem Reachable.ownsOpen (h : Reachable L tbl w) : OwnsOpen w := by
  induction h with
  | create env _ hc => exact ctlCreate_ownsOpen hc
  | process env _ hp ih => exact ctlProcessn_ownsOpen ih hp

/-- **No descriptor leaks.** In every endpoint reachable from `ctl_create`, the descriptors
held open are exactly the listening one and those of the clients in use. -/
theorem reachable_isOpen_iff (h : Reachable L tbl w) (fd : Fd) :
    w.os.isOpen fd = true ↔ fd = w.ctl.serverFd ∨
      ∃ j : Fin maxClients, j.val < w.ctl.numClients ∧ (w.ctl.clients j).fd = fd := by
  refine ⟨h.ownsOpen fd, ?_⟩
  rintro (rfl | ⟨j, hj, rfl⟩)
  · exact h.inv.server_open
  · exact h.inv.client_open j hj

/-- Once two clients have connected and filled the pool, the endpoint holds open the
listening descriptor `3` and the clients' `4` and `5`, and nothing else. -/
theorem full_pool_isOpen_iff : ∃ w, Reachable ProtoLayout.small [] w ∧
    w.ctl.numClients = maxClients ∧ w.os.isOpen 4 = true ∧ w.os.isOpen 5 = true ∧ ∀ fd,
    (w.os.isOpen fd = true ↔ fd = w.ctl.serverFd ∨
      ∃ j : Fin maxClients, j.val < w.ctl.numClients ∧ (w.ctl.clients j).fd = fd) :=
  have h : Reachable ProtoLayout.small [] _ :=
    .process Env.twoIdle (.process Env.twoIdle (.create Env.twoIdle "ctl" rfl) rfl) rfl
  ⟨_, h, rfl, rfl, rfl, reachable_isOpen_iff h⟩

end Xcm
