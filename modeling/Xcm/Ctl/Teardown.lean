import Xcm.Ctl.Containment
import Xcm.Ctl.Descriptors

/-!
# Teardown

`ctl_destroy` removes the clients one at a time from slot `0`, reads the bound path of
the listening socket, closes the socket and, if the endpoint owns the path, unlinks it.
Each client is deregistered and then closed, once each, and the listening descriptor is
closed once. The listening descriptor is never deregistered: when the endpoint is freed
the registration set still holds it, for read interest, because `remove_client`
registers it again whenever it empties a full pool.

## Main results

* `removeAll_ok`: removing every client tears each down once and leaves the
  registration set holding the listening descriptor only.
* `reachable_destroy`: what `ctl_destroy` does from every reachable endpoint.
* `reachable_destroy_closes_all`: with `Reachable.ownsOpen` (`Xcm.Ctl.Descriptors`), it
  leaves no descriptor open.
-/

namespace Xcm

variable {L : ProtoLayout} {tbl : List Attr}

/-- The event list `remove_client` logs for the client `cl`: its descriptor deregistered,
then closed, then the listening descriptor `sfd` registered again if the pool was
full. -/
def removalEvents (cl : Client) (sfd : Fd) (full : Prop) [Decidable full] : List Event :=
  [.regDel (.client cl.conn) cl.fd, .close (.client cl.conn) cl.fd] ++
    if full then [.regAdd .listener sfd .epollin] else []

section Removal

variable {w w' : World} {cl : Client} {sfd : Fd} {full : Prop} [Decidable full]

theorem removeClient_trace {i : Fin maxClients} (h : removeClient w i = .ok w') :
    w'.os.trace = w.os.trace ++
      removalEvents (w.ctl.clients i) w.ctl.serverFd (w.ctl.numClients = maxClients) := by
  rw [(removeClient_ok h).2.2.2.2.2.2.2, removalEvents, List.append_assoc]

/-- The events of a removal act on the removed connection or re-register the listening
descriptor. -/
theorem mem_removalEvents {e : Event} (he : e ∈ removalEvents cl sfd full) :
    e.conn? = some cl.conn ∨ e = .regAdd .listener sfd .epollin := by
  simp only [removalEvents, List.mem_append, List.mem_cons, List.mem_singleton] at he
  rcases he with (rfl | rfl | he) | he
  · simp [Event.conn?]
  · simp [Event.conn?]
  · simp at he
  · split at he <;> simp at he; exact .inr he

theorem filter_removalEvents (c : Nat) :
    (removalEvents cl sfd full).filter (Event.tearsDown c) =
      if cl.conn = c then [.regDel (.client cl.conn) cl.fd, .close (.client cl.conn) cl.fd]
      else [] := by
  by_cases hc : cl.conn = c <;> by_cases full <;> simp [removalEvents, Event.tearsDown, *]

end Removal

/-- **Removing every client.** From `Inv`, `while (num_clients > 0) remove_client(ctl, 0)`
with a budget of at least `num_clients` empties the pool and keeps `Inv`. Its events
act only on the clients it began with, or register the listening descriptor again;
each of those clients is deregistered and then closed, once each, and its descriptor
is left closed; and no descriptor is opened. -/
theorem removeAll_ok : ∀ k (w : World), Inv w → w.ctl.numClients ≤ k →
    ∃ w' evs, removeAll k w = .ok w' ∧ Inv w' ∧ w'.ctl.numClients = 0 ∧
      w'.ctl.serverFd = w.ctl.serverFd ∧ w'.os.trace = w.os.trace ++ evs ∧
      (∀ e ∈ evs, (∃ c, e.conn? = some c ∧ w.live c) ∨
        e = .regAdd .listener w.ctl.serverFd .epollin) ∧
      (∀ j : Fin maxClients, j.val < w.ctl.numClients →
        evs.filter (Event.tearsDown (w.ctl.clients j).conn) =
          [.regDel (.client (w.ctl.clients j).conn) (w.ctl.clients j).fd,
            .close (.client (w.ctl.clients j).conn) (w.ctl.clients j).fd] ∧
        w'.os.isOpen (w.ctl.clients j).fd = false) ∧
      ∀ fd, w.os.isOpen fd = false → w'.os.isOpen fd = false := by
  intro k
  induction k with
  | zero =>
    intro w _ hn
    refine ⟨w, [], by simp [removeAll, show w.ctl.numClients = 0 by omega], ‹_›,
      by omega, rfl, (List.append_nil _).symm, by simp, fun j hj => absurd hj (by omega),
      fun _ h => h⟩
  | succ k ih =>
    intro w hv hk
    by_cases hn : 0 < w.ctl.numClients
    swap
    · exact ⟨w, [], by simp [removeAll, hn], hv, by omega, rfl, (List.append_nil _).symm,
        by simp, fun j hj => absurd hj (by omega), fun _ h => h⟩
    set i0 : Fin maxClients := ⟨0, by decide⟩
    have hi0 : i0.val < w.ctl.numClients := hn
    cases hr : removeClient w i0 with
    | error f => exact absurd hr (hv.toPool.removeClient_ne hi0 f)
    | ok w1 =>
      obtain ⟨-, -, hsv, hn1, -, -, ho, -⟩ := removeClient_ok hr
      have hv1 : Inv w1 := hv.toPool.remove hi0 (fun j hj _ => hv.reg_client j hj) hr
      obtain ⟨w', evs, hra, hv', h0, hsv', htr, hev, hcl, hmono⟩ :=
        ih w1 hv1 (by rw [hn1]; omega)
      -- every client in use after the removal was in use before, in another slot
      have hback : ∀ c, w1.live c → w.live c := by
        rintro c ⟨j', hj', rfl⟩
        obtain ⟨hm, -⟩ := Ctl.movedFrom_live hi0 (hn1 ▸ hj')
        exact ⟨_, hm, by rw [removeClient_clients hr j' (by omega)]⟩
      have hgone : ¬ w1.live (w.ctl.clients i0).conn := by
        rintro ⟨j', hj', hc⟩
        obtain ⟨hm, hmi⟩ := Ctl.movedFrom_live hi0 (hn1 ▸ hj')
        rw [removeClient_clients hr j' hj'] at hc
        exact hmi (hv.conn_inj hm hi0 hc)
      refine ⟨w', removalEvents (w.ctl.clients i0) w.ctl.serverFd (w.ctl.numClients = maxClients)
        ++ evs, by rw [removeAll, if_pos hn, hr]; exact hra, hv', h0, hsv'.trans hsv,
        by rw [htr, removeClient_trace hr, List.append_assoc], fun e he => ?_, fun j hj => ?_,
        fun fd h => hmono fd (by rw [ho, Function.update_apply]; split_ifs; rfl; exact h)⟩
      · rcases List.mem_append.mp he with he | he
        · exact (mem_removalEvents he).imp (fun h => ⟨_, h, i0, hi0, rfl⟩) id
        · exact (hev e he).imp (fun ⟨c, h, hl⟩ => ⟨c, h, hback c hl⟩)
            fun he' => he'.trans (by rw [hsv])
      · by_cases hj0 : j = i0
        · subst hj0
          have hnil : evs.filter (Event.tearsDown (w.ctl.clients i0).conn) = [] :=
            List.filter_eq_nil_iff.mpr fun e he ht => by
              rcases hev e he with ⟨c, hc, hl⟩ | rfl
              · rw [Event.conn?_of_tearsDown ht] at hc
                exact hgone (Option.some.inj hc ▸ hl)
              · simp [Event.tearsDown] at ht
          refine ⟨by rw [List.filter_append, filter_removalEvents, if_pos rfl, hnil,
            List.append_nil], hmono _ (by rw [ho]; simp)⟩
        · obtain ⟨j', hj', hm⟩ := Ctl.movedFrom_surj hi0 hj hj0
          have hc := removeClient_clients hr j' (by omega)
          rw [hm] at hc
          have hne : (w.ctl.clients i0).conn ≠ (w.ctl.clients j).conn := fun he =>
            hj0 (hv.conn_inj hj hi0 he.symm)
          obtain ⟨h1, h2⟩ := hcl j' (by omega)
          rw [hc] at h1 h2
          exact ⟨by rw [List.filter_append, filter_removalEvents, if_neg hne, h1,
            List.nil_append], h2⟩

/-- What `ctl_destroy` logs after closing the listening descriptor: the `unlink` of the
bound path `name`, if it could be read and the endpoint owns it. -/
def unlinkEvents (owner : Bool) : Option String → List Event
  | some p => if owner then [.unlink p] else []
  | none => []

theorem mem_unlinkEvents {owner : Bool} {name : Option String} {e : Event} :
    e ∈ unlinkEvents owner name ↔ ∃ p, name = some p ∧ owner = true ∧ e = .unlink p := by
  cases name <;> cases owner <;> simp [unlinkEvents, eq_comm]

/-- **Spec of `ctl_destroy`** after the removal loop: read the bound path, close the
listening descriptor, and unlink the path if the endpoint owns it and it could be read. -/
theorem ctlDestroy_eq (env : Env) (owner : Bool) {w w1 : World}
    (hra : removeAll maxClients w = .ok w1) :
    ∃ os, ctlDestroy env owner w = .ok ⟨w1.ctl, os⟩ ∧
      os.isOpen = Function.update w1.os.isOpen w1.ctl.serverFd false ∧
      os.trace = w1.os.trace ++ [.getsockname w1.ctl.serverFd (env.getsockname w1.os),
        .close .listener w1.ctl.serverFd] ++ unlinkEvents owner (env.getsockname w1.os) := by
  unfold ctlDestroy
  rw [hra]
  rcases hname : env.getsockname w1.os with _ | p <;> cases owner <;>
    simp [hname, unlinkEvents, Os.log, Os.close]

/-- **Teardown.** From every endpoint reachable from `ctl_create`, `ctl_destroy` returns,
logging events `evs` in which each client in use is deregistered and then closed, once
each; the listening descriptor is closed once; every client's descriptor and the
listening one are left closed; and a path is unlinked exactly if the endpoint owns it
and it is the bound path `getsockname` returned. But the registration set the endpoint
leaves still holds the listening descriptor, for read interest: nothing deregisters it.
It holds no other descriptor. -/
theorem reachable_destroy {w : World} (h : Reachable L tbl w) (env : Env) (owner : Bool) :
    ∃ w' evs, ctlDestroy env owner w = .ok w' ∧ w'.os.trace = w.os.trace ++ evs ∧
      (∀ j : Fin maxClients, j.val < w.ctl.numClients →
        evs.filter (Event.tearsDown (w.ctl.clients j).conn) =
          [.regDel (.client (w.ctl.clients j).conn) (w.ctl.clients j).fd,
            .close (.client (w.ctl.clients j).conn) (w.ctl.clients j).fd] ∧
        w'.os.isOpen (w.ctl.clients j).fd = false) ∧
      evs.count (.close .listener w.ctl.serverFd) = 1 ∧ w'.os.isOpen w.ctl.serverFd = false ∧
      (∀ p, Event.unlink p ∈ evs ↔
        owner = true ∧ Event.getsockname w.ctl.serverFd (some p) ∈ evs) ∧
      w'.ctl.regSet w.ctl.serverFd = some .epollin ∧
      ∀ fd, fd ≠ w.ctl.serverFd → w'.ctl.regSet fd = none := by
  obtain ⟨w1, evs, hra, hv1, h0, hsv, htr, hev, hcl, -⟩ :=
    removeAll_ok maxClients w h.inv w.ctl.num_le
  obtain ⟨os, hd, hopen, htr'⟩ := ctlDestroy_eq env owner hra
  rw [hsv] at hopen htr'
  -- the removals log no `close` of the listening descriptor, no `getsockname` and no `unlink`
  have hno : ∀ e ∈ evs, e.conn? = none → e = .regAdd .listener w.ctl.serverFd .epollin :=
    fun e he hn => (hev e he).resolve_left fun ⟨c, hc, _⟩ => by rw [hn] at hc; cases hc
  have hclose : .close .listener w.ctl.serverFd ∉ evs := fun he => by cases hno _ he rfl
  have hgs : ∀ p, .getsockname w.ctl.serverFd (some p) ∉ evs := fun _ he => by cases hno _ he rfl
  have hul : ∀ p, .unlink p ∉ evs := fun _ he => by cases hno _ he rfl
  refine ⟨_, evs ++ ([.getsockname w.ctl.serverFd (env.getsockname w1.os),
      .close .listener w.ctl.serverFd] ++ unlinkEvents owner (env.getsockname w1.os)), hd,
    by rw [htr', htr]; simp only [List.append_assoc], fun j hj => ⟨?_, ?_⟩, ?_,
    by rw [hopen, Function.update_same], fun p => ?_, ?_, fun fd hfd => ?_⟩
  · rw [List.filter_append, (hcl j hj).1]
    refine List.append_right_eq_self.mpr (List.filter_eq_nil_iff.mpr fun e he => ?_)
    rcases List.mem_append.mp he with he | he
    · simp only [List.mem_cons, List.mem_singleton, List.not_mem_nil, or_false] at he
      rcases he with rfl | rfl <;> simp [Event.tearsDown]
    · obtain ⟨p, -, -, rfl⟩ := mem_unlinkEvents.mp he; simp [Event.tearsDown]
  · rw [hopen, Function.update_apply]; split_ifs; rfl; exact (hcl j hj).2
  · have hcu : (unlinkEvents owner (env.getsockname w1.os)).count
        (.close .listener w.ctl.serverFd) = 0 :=
      List.count_eq_zero.mpr fun he => by obtain ⟨p, -, -, h⟩ := mem_unlinkEvents.mp he; cases h
    rw [List.count_append, List.count_append, List.count_eq_zero.mpr hclose, hcu]
    simp
  · simp only [List.mem_append, List.mem_cons, List.mem_singleton, List.not_mem_nil,
      mem_unlinkEvents, hul, hgs, false_or, or_false, reduceCtorEq, Event.unlink.injEq,
      Event.getsockname.injEq, true_and, and_false, exists_false]
    constructor
    · rintro ⟨p', h1, h2, rfl⟩; exact ⟨h2, h1.symm⟩
    · rintro ⟨h2, h1⟩; exact ⟨p, h1.symm, h2, rfl⟩
  · have := hv1.reg_server
    rwa [h0, hsv, if_pos (by decide)] at this
  · refine Option.not_isSome_iff_eq_none.mp fun hs => ?_
    rcases hv1.reg_dom fd hs with h | ⟨j, hj, -⟩
    · exact hfd (h.trans hsv)
    · omega


/-- `ctl_destroy(ctl, true)` on the endpoint `ctl_create` makes in the quiet environment
closes the listening descriptor `3` and unlinks `"ctl"`, but leaves `3` registered. -/
theorem quiet_destroy : ∃ w, Reachable ProtoLayout.small [] w ∧
    ∃ w' evs, ctlDestroy Env.quiet true w = .ok w' ∧ w'.os.trace = w.os.trace ++ evs ∧
      (∀ j : Fin maxClients, j.val < w.ctl.numClients →
        evs.filter (Event.tearsDown (w.ctl.clients j).conn) =
          [.regDel (.client (w.ctl.clients j).conn) (w.ctl.clients j).fd,
            .close (.client (w.ctl.clients j).conn) (w.ctl.clients j).fd] ∧
        w'.os.isOpen (w.ctl.clients j).fd = false) ∧
      evs.count (.close .listener w.ctl.serverFd) = 1 ∧ w'.os.isOpen w.ctl.serverFd = false ∧
      (∀ p, Event.unlink p ∈ evs ↔
        true = true ∧ Event.getsockname w.ctl.serverFd (some p) ∈ evs) ∧
      w'.ctl.regSet w.ctl.serverFd = some .epollin ∧
      ∀ fd, fd ≠ w.ctl.serverFd → w'.ctl.regSet fd = none :=
  have h : Reachable ProtoLayout.small [] _ := Reachable.create Env.quiet "ctl" rfl
  ⟨_, h, reachable_destroy h Env.quiet true⟩

/-- **`ctl_destroy` leaves nothing open.** From every endpoint reachable from `ctl_create`,
`ctl_destroy` returns with every descriptor closed: it closes each client's and the
listening one, and the endpoint held no other. -/
theorem reachable_destroy_closes_all {w : World} (h : Reachable L tbl w) (env : Env)
    (owner : Bool) : ∃ w', ctlDestroy env owner w = .ok w' ∧ ∀ fd, w'.os.isOpen fd = false := by
  obtain ⟨w1, _, hra, -, -, hsv, -, -, hcl, hmono⟩ :=
    removeAll_ok maxClients w h.inv w.ctl.num_le
  obtain ⟨os, hd, hopen, -⟩ := ctlDestroy_eq env owner hra
  refine ⟨_, hd, fun fd => ?_⟩
  rw [hopen, hsv]
  by_cases hs : fd = w.ctl.serverFd
  · rw [hs, Function.update_same]
  rw [Function.update_noteq hs]
  cases ho : w.os.isOpen fd with
  | false => exact hmono fd ho
  | true =>
    rcases h.ownsOpen fd ho with h' | ⟨j, hj, rfl⟩
    · exact absurd h' hs
    · exact (hcl j hj).2

/-- `ctl_destroy(ctl, true)` on an endpoint whose pool two clients have filled leaves no
descriptor open. -/
theorem full_pool_destroy_closes_all : ∃ w, Reachable ProtoLayout.small [] w ∧
    w.ctl.numClients = maxClients ∧
    ∃ w', ctlDestroy Env.twoIdle true w = .ok w' ∧ ∀ fd, w'.os.isOpen fd = false :=
  have h : Reachable ProtoLayout.small [] _ :=
    .process Env.twoIdle (.process Env.twoIdle (.create Env.twoIdle "ctl" rfl) rfl) rfl
  ⟨_, h, rfl, reachable_destroy_closes_all h Env.twoIdle true⟩

end Xcm
