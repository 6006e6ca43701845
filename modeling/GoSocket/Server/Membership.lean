/-
# Who the hub knows

`Open` makes the new connection the member of the session; the rooms follow with
`Transfer(Prev, c)`, a request of its own, and until then the hub knows the old
client and the new one.

A client is *current* if it is the member of its session or a `Transfer` away
from it is still to come.  Whoever of a session the hub knows stays current, as
long as the session's `Transfer`s are taken in the order of its resumes and no
client joins a room after it was replaced (`Follows.step`).  Neither is enforced
by the source; what goes wrong without them is in `Server.Rooms` and
`Server.Fanout`.
-/

import GoSocket.Server.Connections

namespace GoSocket

open Lib

namespace Sys

variable {σ σ' : Sys} {a : SysOp} {p : SessionRef} {c : ClientRef}

/-- The client is the member of the session, or a `Transfer` will take its rooms. -/
def Current (σ : Sys) (p : SessionRef) (c : ClientRef) : Prop :=
  (σ.layer.mem.session p).member = some c ∨ ∃ x ∈ σ.transfers, x.1 = c

instance (σ : Sys) (p : SessionRef) (c : ClientRef) : Decidable (σ.Current p c) :=
  inferInstanceAs (Decidable (_ ∨ ∃ x ∈ σ.transfers, _))

/-- The hub knows the client, or a `Transfer` will put it into rooms. -/
def Known (σ : Sys) (c : ClientRef) : Prop :=
  c ∈ σ.hub.clients ∨ (∃ room, c ∈ σ.hub.members room) ∨ ∃ x ∈ σ.transfers, x.2 = c

/-- The clients of the session that the hub knows are current. -/
def Follows (σ : Sys) (p : SessionRef) : Prop :=
  ∀ c, (σ.layer.mem.client c).session = some p → σ.Known c → σ.Current p c

/-- As far as the session is concerned, the step does not take a `Transfer` away
from a client whose own is still to come, nor a `Join` of a client that has been
replaced. -/
def Orderly (σ : Sys) (p : SessionRef) : SysOp → Prop
  | .transfer prev c => (σ.layer.mem.client c).session = some p → ∀ x ∈ σ.transfers, x.2 ≠ prev
  | .join c _ _ => (σ.layer.mem.client c).session = some p → σ.Current p c
  | _ => True

/-- `Open` leaves the member of a session as it is, or is to send a `Transfer` from it. -/
theorem Step.open_member {c d : ClientRef} {req : ResumeRequest} {now : ℤ} {newID : Option String}
    (hstep : σ.Step (.layer (.openSession c req now newID)) σ') (h : σ.Wired)
    (hd : (σ.layer.mem.session p).member = some d) :
    (σ'.layer.mem.session p).member = some d ∨ ∃ x ∈ σ'.transfers, x.1 = d := by
  have ht := hstep.transfers
  generalize σ'.transfers = ts at ht
  rw [hstep.openSession.1]
  have ho := σ.layer.mem.open_cases c req now newID
  generalize hm' : (σ.layer.mem.open c req now newID).1 = m',
    hres : (σ.layer.mem.open c req now newID).2.1 = res,
    (σ.layer.mem.open c req now newID).2.2 = due at ho
  cases ho with
  | @resumed q hinv hreq hs hv =>
      rw [Mem.attachLocked_session]
      split_ifs with hpq
      · subst hpq
        -- the old member is `Prev`
        have hprev : (σ.layer.mem.open c req now newID).2.1.prev = some d := by
          rw [hres]
          exact hd
        refine Or.inr ?_
        cases ht with
        | same _ hno =>
            rw [hno _ _ _ _ rfl] at hprev
            cases hprev
        | opened ha hprev' =>
            cases ha
            obtain rfl := Option.some.inj (hprev'.symm.trans hprev)
            exact ⟨_, List.mem_append_right _ (List.mem_singleton_self _), rfl⟩
        | sent ha => cases ha
      · exact Or.inl hd
  | unbound _ hr => exact Or.inl ((hr.holders_eq p).2.trans hd)
  | fresh _ hr =>
      rw [Mem.fresh_session, if_neg]
      · exact Or.inl ((hr.holders_eq p).2.trans hd)
      · rintro rfl
        have := h.inv.bound.allocated (h.inv.bound.member hd)
        rw [hr.client_eq.2.1] at this
        exact this.false

/-- **The member of a session is replaced by an `Open` only**, which then has a
`Transfer` to send. -/
theorem Step.member (hstep : σ.Step a σ') (h : σ.Wired) {d : ClientRef}
    (hd : (σ.layer.mem.session p).member = some d) :
    (σ'.layer.mem.session p).member = some d ∨ ∃ x ∈ σ'.transfers, x.1 = d := by
  rcases hstep.layer with heq | ⟨b, hb, hab⟩
  · exact Or.inl (heq ▸ hd)
  obtain ⟨-, -, ⟨-, hm⟩ | ⟨op, hcall, hm⟩⟩ := hb.cases
  · exact Or.inl (hm ▸ hd)
  by_cases hop : ∃ c req now newID, op = .openSession c req now newID
  · obtain ⟨c, req, now, newID, rfl⟩ := hop
    obtain rfl := Layer.call_eq_openSession hcall
    obtain rfl : a = .layer (.openSession c req now newID) := by
      rcases hab with rfl | ⟨_, _, _, h⟩ | ⟨_, h⟩
      · rfl
      · cases h
      · cases h
    exact hstep.open_member h hd
  · exact Or.inl (((h.inv.store.step_touched hm p).holders
      fun c req now newID heq => hop ⟨c, req, now, newID, heq⟩).2.trans hd)

/-- A client stays current until its `Transfer` is taken. -/
theorem Current.step (hc : σ.Current p c) (h : σ.Wired) (hstep : σ.Step a σ')
    (hno : ∀ d, a ≠ .transfer c d) : σ'.Current p c := by
  rcases hc with hm | ⟨x, hx, rfl⟩
  · exact hstep.member h hm
  · refine Or.inr ⟨x, ?_, rfl⟩
    have ht := hstep.transfers
    generalize σ'.transfers = ts at ht
    cases ht with
    | same => exact hx
    | opened => exact List.mem_append_left _ hx
    | @sent prev d ha =>
        refine (List.mem_erase_of_ne ?_).2 hx
        rintro rfl
        exact hno d ha

/-- A client that a step puts on the list of `Transfer` requests has just been bound. -/
theorem Step.transfers_to (hstep : σ.Step a σ') {x : ClientRef × ClientRef}
    (hx : x ∈ σ'.transfers) : x ∈ σ.transfers ∨ (σ.layer.mem.client x.2).session = none := by
  have ht := hstep.transfers
  generalize σ'.transfers = ts at ht hx
  cases ht with
  | same => exact Or.inl hx
  | opened ha =>
      subst ha
      rcases List.mem_append.1 hx with hx | hx
      · exact Or.inl hx
      · rw [List.mem_singleton.1 hx]
        exact Or.inr hstep.openSession.2.1
  | sent => exact Or.inl (List.mem_of_mem_erase hx)

/-- A `Transfer` that is taken is on the list. -/
theorem Step.transfer_mem {prev d : ClientRef} (hstep : σ.Step (.transfer prev d) σ') :
    (prev, d) ∈ σ.transfers := by
  cases hstep.took with
  | transfer hmem => exact hmem

/-- **Whom the hub knows after a step** it knew before, and its rooms were not
taken, unless the client has just been registered or has joined a room. -/
theorem HubStep.known {hub : Hub} (hh : HubStep σ a hub)
    (hk : c ∈ hub.clients ∨ ∃ room, c ∈ hub.members room) :
    (σ.Known c ∧ ∀ d, a = .transfer c d → c = d) ∨ σ.stage c = .accepted ∨
      ∃ room now, a = .join c room now := by
  have hstill : ¬ a.Moves → ∀ d, a = .transfer c d → c = d := by
    rintro hmoves d rfl
    exact not_not.1 hmoves
  cases hh with
  | same hmoves => exact Or.inl ⟨hk.imp_right Or.inl, hstill hmoves⟩
  | @registered e ha hs =>
      rcases hk with hk | hk
      · rcases (Hub.mem_clients_registerClient ..).1 hk with rfl | hk
        · exact Or.inr (Or.inl hs)
        · exact Or.inl ⟨Or.inl hk, by simp [ha]⟩
      · exact Or.inl ⟨Or.inr (Or.inl hk), by simp [ha]⟩
  | @transferred prev e ha ht hne =>
      subst ha
      -- the client whose rooms are taken is not known any more
      have hother : c ≠ prev → ∀ d, SysOp.transfer prev e = .transfer c d → c = d := by
        rintro hcp d hd
        cases hd
        exact absurd rfl hcp
      rcases hk with hk | ⟨room, hk⟩
      · obtain ⟨hcp, hk⟩ := (Hub.mem_clients_transferMembership ..).1 hk
        exact Or.inl ⟨Or.inl hk, hother hcp⟩
      · rcases (Hub.mem_members_transferMembership ..).1 hk with ⟨hcp, hk⟩ | ⟨rfl, -⟩
        · exact Or.inl ⟨Or.inr (Or.inl ⟨room, hk⟩), hother hcp⟩
        · exact Or.inl ⟨Or.inr (Or.inr ⟨_, ht, rfl⟩), hother (Ne.symm hne)⟩
  | removed hrem =>
      have hmoves : ¬ a.Moves := by
        rcases hrem with ⟨rfl, -⟩ | ⟨x, -, rfl, -⟩ <;> exact id
      refine Or.inl ⟨?_, hstill hmoves⟩
      rcases hk with hk | ⟨room, hk⟩
      · exact Or.inl ((Hub.mem_clients_removeClientMaps ..).1 hk).2
      · exact Or.inr (Or.inl ⟨room, ((Hub.mem_members_removeClientMaps ..).1 hk).2⟩)
  | @joined e room now ha hs =>
      rcases hk with hk | ⟨room', hk⟩
      · rw [Hub.clients_joinRoom] at hk
        exact Or.inl ⟨Or.inl hk, by simp [ha]⟩
      · rcases (Hub.mem_members_joinRoom ..).1 hk with ⟨-, rfl⟩ | hk
        · exact Or.inr (Or.inr ⟨room, now, ha⟩)
        · exact Or.inl ⟨Or.inr (Or.inl ⟨room', hk⟩), by simp [ha]⟩
  | @left e room ha =>
      refine Or.inl ⟨?_, by simp [ha]⟩
      rcases hk with hk | ⟨room', hk⟩
      · rw [Hub.clients_leaveRoom] at hk
        exact Or.inl hk
      · exact Or.inr (Or.inl ⟨room', ((Hub.mem_members_leaveRoom ..).1 hk).1⟩)

/-- **Whom the hub knows stays current.** -/
theorem Follows.step (hf : σ.Follows p) (h : σ.Wired) (hstep : σ.Step a σ') (hrun : σ'.Running)
    (horder : σ.Orderly p a) : σ'.Follows p := by
  intro c hc' hk
  rcases hstep.session h.inv c with heq | ⟨_, _, _, q, -, -, hq, hmember⟩
  swap
  · obtain rfl := Option.some.inj (hq.symm.trans hc')
    exact Or.inl hmember
  have hc := heq.symm.trans hc'
  have hold : σ.Known c → (∀ d, a = .transfer c d → c = d) → σ'.Current p c := by
    intro hk hno
    refine (hf c hc hk).step h hstep ?_
    rintro d rfl
    exact (h.transfers _ hstep.transfer_mem).1 (hno d rfl)
  rcases or_assoc.2 hk with hk | ⟨x, hx, rfl⟩
  · rcases (hstep.hub hrun).known hk with ⟨hk, hno⟩ | hs | ⟨room, now, rfl⟩
    · exact hold hk hno
    · rw [h.early c (hs ▸ trivial)] at hc
      cases hc
    · exact (horder hc).step h hstep fun d hd => by cases hd
  · rcases hstep.transfers_to hx with hx | hno
    · refine hold (Or.inr (Or.inr ⟨x, hx, rfl⟩)) ?_
      rintro d rfl
      -- the requests are taken in order
      obtain ⟨-, q, hq, hd⟩ := h.transfers _ hstep.transfer_mem
      obtain rfl := Option.some.inj (hq.symm.trans hc)
      exact absurd rfl (horder hd x hx)
    · rw [hno] at hc
      cases hc

end Sys
end GoSocket
