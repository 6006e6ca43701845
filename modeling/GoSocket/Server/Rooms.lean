/-
# Rooms follow the session

Two resumes of one session can have their `Transfer`s taken in either order.  If
the first one's `Transfer(c₁, c₂)` is taken after the second one's
`Transfer(c₂, c₃)`, the rooms end up with `c₂`, which is not the member and whose
connection is closed; nothing moves them on (`rooms_stranded`).  A handler that
still runs on a replaced connection has the same effect when it joins a room, and
its `Leave` does not reach the client that holds the room by then.

`Roster` records which rooms the clients of a session have joined and not left.
On a schedule without these three (`InOrder`), whenever no `Transfer` is to come
the member of a session holds exactly those rooms, and no other client of the
session holds any (`rooms_follow`).
-/

import GoSocket.Server.Membership

namespace GoSocket

open Lib

/-- The rooms that were joined and not left, by the clients of a session and by a
client before its `Open`. -/
structure Roster where
  own : ClientRef → Finset String
  joined : SessionRef → Finset String

/-- Nobody has joined a room yet. -/
def Roster.start : Roster where
  own := fun _ => ∅
  joined := fun _ => ∅

/-- The step `a` from `σ` to `σ'` is added to the roster.  With `Open` the rooms a
client joined in the connect middlewares become the session's. -/
def Roster.next (r : Roster) (σ : Sys) (a : SysOp) (σ' : Sys) : Roster :=
  match a with
  | .join c room _ =>
      match (σ.layer.mem.client c).session with
      | some p => { r with joined := Function.update r.joined p (insert room (r.joined p)) }
      | none => { r with own := Function.update r.own c (insert room (r.own c)) }
  | .leaveRoom c room =>
      match (σ.layer.mem.client c).session with
      | some p => { r with joined := Function.update r.joined p ((r.joined p).erase room) }
      | none => { r with own := Function.update r.own c ((r.own c).erase room) }
  | .layer (.openSession c ..) =>
      match (σ'.layer.mem.client c).session with
      | some p => { r with joined := Function.update r.joined p (r.joined p ∪ r.own c) }
      | none => r
  | _ => r

namespace Roster

variable (r : Roster) (σ σ' : Sys) (c : ClientRef) (p : SessionRef) (room : String)

/-- A join counts for the session of its connection. -/
theorem joined_join (d : ClientRef) (room' : String) (now : ℤ) :
    room ∈ (r.next σ (.join d room' now) σ').joined p ↔
      (room = room' ∧ (σ.layer.mem.client d).session = some p) ∨ room ∈ r.joined p := by
  simp only [next]
  cases hd : (σ.layer.mem.client d).session with
  | none => simp
  | some q =>
      dsimp only
      rw [Function.update_apply]
      split_ifs with hpq
      · simp [hpq]
      · simp [Ne.symm hpq]

/-- A leave counts for the session of its connection. -/
theorem joined_leaveRoom (d : ClientRef) (room' : String) :
    room ∈ (r.next σ (.leaveRoom d room') σ').joined p ↔
      room ∈ r.joined p ∧ ¬ (room = room' ∧ (σ.layer.mem.client d).session = some p) := by
  simp only [next]
  cases hd : (σ.layer.mem.client d).session with
  | none => simp
  | some q =>
      dsimp only
      rw [Function.update_apply]
      split_ifs with hpq
      · simp [hpq, and_comm]
      · simp [Ne.symm hpq]

/-- `Open` brings the rooms its connection had joined to the session. -/
theorem joined_openSession (d : ClientRef) (req : ResumeRequest) (now : ℤ)
    (newID : Option String) :
    room ∈ (r.next σ (.layer (.openSession d req now newID)) σ').joined p ↔
      room ∈ r.joined p ∨ ((σ'.layer.mem.client d).session = some p ∧ room ∈ r.own d) := by
  simp only [next]
  cases hd : (σ'.layer.mem.client d).session with
  | none => simp
  | some q =>
      dsimp only
      rw [Function.update_apply]
      split_ifs with hpq
      · simp [hpq]
      · simp [Ne.symm hpq]

/-- A join counts for its connection while it has no session. -/
theorem own_join (d : ClientRef) (room' : String) (now : ℤ) :
    room ∈ (r.next σ (.join d room' now) σ').own c ↔
      (room = room' ∧ c = d ∧ (σ.layer.mem.client d).session = none) ∨ room ∈ r.own c := by
  simp only [next]
  cases hd : (σ.layer.mem.client d).session with
  | some q => simp
  | none =>
      dsimp only
      rw [Function.update_apply]
      split_ifs with hcd
      · simp [hcd]
      · simp [hcd]

/-- A leave counts for its connection while it has no session. -/
theorem own_leaveRoom (d : ClientRef) (room' : String) :
    room ∈ (r.next σ (.leaveRoom d room') σ').own c ↔
      room ∈ r.own c ∧ ¬ (room = room' ∧ c = d ∧ (σ.layer.mem.client d).session = none) := by
  simp only [next]
  cases hd : (σ.layer.mem.client d).session with
  | some q => simp
  | none =>
      dsimp only
      rw [Function.update_apply]
      split_ifs with hcd
      · simp [hcd, and_comm]
      · simp [hcd]

/-- `Open` leaves the connections' own rooms alone. -/
theorem own_openSession (d : ClientRef) (req : ResumeRequest) (now : ℤ)
    (newID : Option String) :
    (r.next σ (.layer (.openSession d req now newID)) σ').own = r.own := by
  simp only [next]
  split <;> rfl

end Roster

/-- The stages from which a connection may still call `Open`. -/
def Stage.MayOpen : Stage → Prop
  | .absent | .accepted | .connecting => True
  | .rejected | .opening | .running | .retiring | .unregistering | .done => False

namespace Sys

variable {σ σ' : Sys} {a : SysOp} {p : SessionRef} {c : ClientRef} {room : String}

/-- For an open session, the step does not take a `Transfer` away from a client
whose own is still to come, nor a `Join` of a client that has been replaced, nor a
`Leave` of a client while another one of the session is in the room. -/
def InOrder (σ : Sys) : SysOp → Prop
  | .transfer prev c => ∀ p ∈ (σ.layer.mem.client c).session,
      (σ.layer.mem.session p).state ≠ .closed → ∀ x ∈ σ.transfers, x.2 ≠ prev
  | .join c _ _ => ∀ p ∈ (σ.layer.mem.client c).session,
      (σ.layer.mem.session p).state ≠ .closed → σ.Current p c
  | .leaveRoom c room => ∀ p ∈ (σ.layer.mem.client c).session,
      (σ.layer.mem.session p).state ≠ .closed →
      ∀ d ∈ σ.hub.members room, (σ.layer.mem.client d).session = some p → d = c
  | _ => True

instance (σ : Sys) (a : SysOp) : Decidable (σ.InOrder a) := by
  induction a using SysOp.casesOn <;> dsimp only [InOrder] <;> infer_instance

/-- A step in order is orderly for every open session. -/
theorem InOrder.orderly (h : σ.InOrder a) (hopen : (σ.layer.mem.session p).state ≠ .closed) :
    σ.Orderly p a := by
  cases a with
  | transfer prev c => exact fun hc => h p hc hopen
  | join c room now => exact fun hc => h p hc hopen
  | _ => trivial

/-- Who may still call `Open` after a step could before it. -/
theorem StageStep.mayOpen {s : Stage} (h : StageStep σ a c s) (hs : s.MayOpen) :
    (σ.stage c).MayOpen := by
  cases h with
  | same => exact hs
  | accepted hc => exact hc ▸ trivial
  | connecting hc => exact hc ▸ trivial
  | rejected => exact hs.elim
  | @late s hlate _ => cases s <;> first | exact hs.elim | exact absurd trivial hlate
  | unbound => exact hs.elim
  | left =>
      unfold afterLeave at hs
      split at hs <;> exact hs.elim

/-- An `Open` does not touch the hub. -/
theorem Step.hub_openSession {req : ResumeRequest} {now : ℤ} {newID : Option String}
    (hstep : σ.Step (.layer (.openSession c req now newID)) σ') (hrun : σ'.Running) :
    σ'.hub = σ.hub := by
  have hhub := hstep.hub hrun
  generalize σ'.hub = hub at hhub
  cases hhub with
  | same => rfl
  | registered ha => cases ha
  | transferred ha => cases ha
  | removed hrem => rcases hrem with ⟨ha, -⟩ | ⟨x, -, ha, -⟩ <;> cases ha
  | joined ha => cases ha
  | left ha => cases ha

/-- A step that neither moves rooms nor is an `Open` leaves the roster alone. -/
theorem next_of_not_moves (r : Roster) (hmoves : ¬ a.Moves)
    (hopen : ∀ c req now newID, a ≠ .layer (.openSession c req now newID)) :
    r.next σ a σ' = r := by
  cases a with
  | join => exact absurd trivial hmoves
  | leaveRoom => exact absurd trivial hmoves
  | layer b =>
      cases b with
      | openSession c req now newID => exact absurd rfl (hopen c req now newID)
      | _ => rfl
  | _ => rfl

/-- A connection that is taken out of the hub stays in the roster. -/
theorem next_of_removes (r : Roster) {c : ClientRef} (hrem : σ.Removes a c) :
    r.next σ a σ' = r := by
  rcases hrem with ⟨rfl, -⟩ | ⟨x, -, rfl, -⟩ <;> rfl

/-- The roster agrees with the hub. -/
structure Agrees (σ : Sys) (r : Roster) : Prop where
  /-- A session's clients are in the rooms they joined. -/
  rooms : ∀ p, (σ.layer.mem.session p).state ≠ .closed → ∀ room,
    σ.Joined p room ↔ room ∈ r.joined p
  own : ∀ c, (σ.stage c).MayOpen → ∀ room, c ∈ σ.hub.members room ↔ room ∈ r.own c
  fresh : ∀ p, σ.layer.mem.sessionCount ≤ p → r.joined p = ∅

/-- The ends of a `Transfer` have a session. -/
theorem Wired.ne_of_transfer (h : σ.Wired) {prev d : ClientRef} (ht : (prev, d) ∈ σ.transfers)
    (hc : (σ.layer.mem.client c).session = none) : c ≠ prev ∧ c ≠ d := by
  obtain ⟨-, q, hprev, hd⟩ := h.transfers _ ht
  constructor
  · rintro rfl
    cases hc.symm.trans hprev
  · rintro rfl
    cases hc.symm.trans hd

/-- A connection that may still call `Open` is not unregistered. -/
theorem Wired.ne_of_removes (h : σ.Wired) {e : ClientRef} (hrem : σ.Removes a e)
    (hs : (σ.stage c).MayOpen) (hc : (σ.layer.mem.client c).session = none) : c ≠ e := by
  rintro rfl
  rcases hrem with ⟨-, hst | hst⟩ | ⟨x, -, -, hm⟩
  · rw [hst] at hs
    exact hs
  · rw [hst] at hs
    exact hs
  · cases hc.symm.trans (h.inv.bound.member hm)

namespace Agrees

variable {r : Roster}

/-- The rooms before the step of a session that is open after it. -/
theorem rooms_before (hA : σ.Agrees r) (h : σ.Wired) (hstep : σ.Step a σ')
    (hopen : (σ'.layer.mem.session p).state ≠ .closed) (room : String) :
    σ.Joined p room ↔ room ∈ r.joined p := by
  by_cases hp : p < σ.layer.mem.sessionCount
  · exact hA.rooms p (fun hclosed => hopen (hstep.closed h.inv hp hclosed)) room
  · rw [hA.fresh p (not_lt.1 hp)]
    refine iff_of_false ?_ (Finset.notMem_empty room)
    rintro ⟨d, hd, -⟩
    exact hp (h.inv.bound.allocated hd)

/-- The rooms after an `Open`: those its client has joined become the session's. -/
theorem step_open {req : ResumeRequest} {now : ℤ} {newID : Option String} (hA : σ.Agrees r)
    (h : σ.Wired) (hstep : σ.Step (.layer (.openSession c req now newID)) σ')
    (hhub : σ'.hub = σ.hub) (hopen : (σ'.layer.mem.session p).state ≠ .closed) (room : String) :
    σ'.Joined p room ↔
      room ∈ (r.next σ (.layer (.openSession c req now newID)) σ').joined p := by
  have hbefore := hA.rooms_before h hstep hopen room
  obtain ⟨-, hc, hs⟩ := hstep.openSession
  have hold : σ.Joined p room → σ'.Joined p room := by
    rintro ⟨d, hd, hmem⟩
    exact ⟨d, hstep.bound h.inv hd, hhub ▸ hmem⟩
  have hnew : σ'.Joined p room → σ.Joined p room ∨
      (σ'.layer.mem.client c).session = some p ∧ c ∈ σ.hub.members room := by
    rintro ⟨d, hd, hmem⟩
    rw [hhub] at hmem
    by_cases hdc : d = c
    · exact Or.inr ⟨hdc ▸ hd, hdc ▸ hmem⟩
    · exact Or.inl ⟨d, (hstep.session_of_ne h.inv hdc).symm.trans hd, hmem⟩
  rw [Roster.joined_openSession, ← hbefore, ← hA.own c (hs ▸ trivial) room]
  refine ⟨hnew, ?_⟩
  rintro (hj | ⟨hq, hmem⟩)
  · exact hold hj
  · exact ⟨c, hq, hhub ▸ hmem⟩

/-- A `Transfer` keeps the rooms in the session. -/
theorem joined_transfer (h : σ.Wired) {prev d : ClientRef} (ht : (prev, d) ∈ σ.transfers) :
    (∃ e, (σ.layer.mem.client e).session = some p ∧
      e ∈ (σ.hub.transferMembership prev d).members room) ↔ σ.Joined p room := by
  obtain ⟨-, q, hprev, hd⟩ := h.transfers _ ht
  constructor
  · rintro ⟨e, he, hmem⟩
    rcases (Hub.mem_members_transferMembership ..).1 hmem with ⟨-, hm⟩ | ⟨rfl, hm⟩
    · exact ⟨e, he, hm⟩
    · exact ⟨prev, hprev.trans (hd.symm.trans he), hm⟩
  · rintro ⟨e, he, hmem⟩
    by_cases hep : e = prev
    · subst hep
      exact ⟨d, hd.trans (hprev.symm.trans he), by simp [hmem]⟩
    · exact ⟨e, he, by simp [hmem, hep]⟩

/-- The rooms of a session after one of its connections, or another one, has joined. -/
theorem joined_joinRoom {e : ClientRef} {room room' : String} {now : ℤ} :
    (∃ d, (σ.layer.mem.client d).session = some p ∧
      d ∈ (σ.hub.joinRoom e room' now).members room) ↔
      (room = room' ∧ (σ.layer.mem.client e).session = some p) ∨ σ.Joined p room := by
  constructor
  · rintro ⟨d, hd, hmem⟩
    rcases (Hub.mem_members_joinRoom ..).1 hmem with ⟨hr, rfl⟩ | hm
    · exact Or.inl ⟨hr, hd⟩
    · exact Or.inr ⟨d, hd, hm⟩
  · rintro (⟨hr, he⟩ | ⟨d, hd, hm⟩)
    · exact ⟨e, he, (Hub.mem_members_joinRoom ..).2 (Or.inl ⟨hr, rfl⟩)⟩
    · exact ⟨d, hd, (Hub.mem_members_joinRoom ..).2 (Or.inr hm)⟩

/-- The rooms of a session after a connection has left, if nobody else of the session was
in the room. -/
theorem joined_leaveRoom {e : ClientRef} {room room' : String}
    (honly : (σ.layer.mem.client e).session = some p → ∀ d ∈ σ.hub.members room',
      (σ.layer.mem.client d).session = some p → d = e) :
    (∃ d, (σ.layer.mem.client d).session = some p ∧
      d ∈ (σ.hub.leaveRoom e room').members room) ↔
      σ.Joined p room ∧ ¬ (room = room' ∧ (σ.layer.mem.client e).session = some p) := by
  constructor
  · rintro ⟨d, hd, hmem⟩
    obtain ⟨hm, hne⟩ := (Hub.mem_members_leaveRoom ..).1 hmem
    refine ⟨⟨d, hd, hm⟩, ?_⟩
    rintro ⟨rfl, he⟩
    exact hne ⟨rfl, honly he d hm hd⟩
  · rintro ⟨⟨d, hd, hm⟩, hne⟩
    refine ⟨d, hd, (Hub.mem_members_leaveRoom ..).2 ⟨hm, ?_⟩⟩
    rintro ⟨hr, rfl⟩
    exact hne ⟨hr, hd⟩

/-- **The rooms of a session after a step.** -/
theorem step_rooms (hA : σ.Agrees r) (h : σ.Wired) (hstep : σ.Step a σ') (hrun : σ'.Running)
    (hord : σ.InOrder a) (hopen : (σ'.layer.mem.session p).state ≠ .closed) (room : String) :
    σ'.Joined p room ↔ room ∈ (r.next σ a σ').joined p := by
  by_cases hop : ∃ c req now newID, a = .layer (.openSession c req now newID)
  · obtain ⟨c, req, now, newID, rfl⟩ := hop
    exact hA.step_open h hstep (hstep.hub_openSession hrun) hopen room
  have hop' : ∀ c req now newID, a ≠ .layer (.openSession c req now newID) :=
    fun c req now newID ha => hop ⟨c, req, now, newID, ha⟩
  have hbefore := hA.rooms_before h hstep hopen room
  have hopen₀ : ∀ {d}, (σ.layer.mem.client d).session = some p →
      (σ.layer.mem.session p).state ≠ .closed := fun hd hclosed =>
    hopen (hstep.closed h.inv (h.inv.bound.allocated hd) hclosed)
  have hjoined : σ'.Joined p room ↔
      ∃ d, (σ.layer.mem.client d).session = some p ∧ d ∈ σ'.hub.members room :=
    exists_congr fun d => by rw [hstep.session_eq h.inv (hop' d)]
  rw [hjoined]
  have hhub := hstep.hub hrun
  generalize σ'.hub = hub at hhub
  cases hhub with
  | same hmoves => rwa [next_of_not_moves r hmoves hop']
  | registered ha =>
      subst ha
      exact hbefore
  | transferred ha ht =>
      subst ha
      exact (joined_transfer h ht).trans hbefore
  | @removed e hrem =>
      rw [next_of_removes r hrem, ← hbefore]
      refine exists_congr fun d => and_congr_right fun hd => ?_
      have hde : d ≠ e := by
        rintro rfl
        exact hopen₀ hd (h.removed hrem hd)
      simp [hde]
  | @joined e room' now ha hs =>
      subst ha
      rw [Roster.joined_join, ← hbefore]
      exact joined_joinRoom
  | @left e room' ha =>
      subst ha
      rw [Roster.joined_leaveRoom, ← hbefore]
      -- nobody else of the session is in the room
      exact joined_leaveRoom fun he d hm hd => hord p he (hopen₀ he) d hm hd

/-- **The rooms of a connection before its `Open`, after a step.** -/
theorem step_own (hA : σ.Agrees r) (h : σ.Wired) (hstep : σ.Step a σ') (hrun : σ'.Running)
    (hs' : (σ'.stage c).MayOpen) (room : String) :
    c ∈ σ'.hub.members room ↔ room ∈ (r.next σ a σ').own c := by
  have hs := (hstep.stage c).mayOpen hs'
  have hbefore := hA.own c hs room
  have hc : (σ.layer.mem.client c).session = none := by
    refine h.early c ?_
    cases hst : σ.stage c <;> rw [hst] at hs <;> first | exact trivial | exact hs.elim
  by_cases hop : ∃ d req now newID, a = .layer (.openSession d req now newID)
  · obtain ⟨d, req, now, newID, rfl⟩ := hop
    rw [Roster.own_openSession, ← hbefore, hstep.hub_openSession hrun]
  have hop' : ∀ c req now newID, a ≠ .layer (.openSession c req now newID) :=
    fun c req now newID ha => hop ⟨c, req, now, newID, ha⟩
  have hhub := hstep.hub hrun
  generalize σ'.hub = hub at hhub
  cases hhub with
  | same hmoves => rwa [next_of_not_moves r hmoves hop']
  | registered ha =>
      subst ha
      exact hbefore
  | @transferred prev d ha ht hne =>
      subst ha
      obtain ⟨hcp, hcd⟩ := h.ne_of_transfer ht hc
      refine Iff.trans ?_ hbefore
      simp [hcp, hcd]
  | @removed e hrem =>
      have hce := h.ne_of_removes hrem hs hc
      rw [next_of_removes r hrem, Hub.mem_members_removeClientMaps]
      simpa [hce] using hbefore
  | @joined e room' now ha _ =>
      subst ha
      rw [Roster.own_join, ← hbefore, Hub.mem_members_joinRoom]
      refine or_congr_left (and_congr_right fun _ => ?_)
      exact ⟨fun hce => ⟨hce, hce ▸ hc⟩, And.left⟩
  | @left e room' ha =>
      subst ha
      rw [Roster.own_leaveRoom, ← hbefore, Hub.mem_members_leaveRoom]
      refine and_congr_right fun _ => not_congr (and_congr_right fun _ => ?_)
      exact ⟨fun hce => ⟨hce, hce ▸ hc⟩, And.left⟩

/-- Nothing is joined for a session that does not exist. -/
theorem step_fresh (hA : σ.Agrees r) (h : σ.Wired) (hstep : σ.Step a σ')
    (hp : σ'.layer.mem.sessionCount ≤ p) : (r.next σ a σ').joined p = ∅ := by
  have hbefore := hA.fresh p ((hstep.sessionCount_le h.inv).trans hp)
  have hno : ∀ d, (σ'.layer.mem.client d).session ≠ some p := fun d hd =>
    absurd ((h.step hstep).inv.bound.allocated hd) (not_lt.2 hp)
  have hno₀ : ∀ d, (σ.layer.mem.client d).session ≠ some p := fun d hd =>
    hno d (hstep.bound h.inv hd)
  refine Finset.eq_empty_of_forall_notMem fun room => ?_
  have hroom : room ∉ r.joined p := hbefore ▸ Finset.notMem_empty room
  by_cases hop : ∃ d req now newID, a = .layer (.openSession d req now newID)
  · obtain ⟨d, req, now, newID, rfl⟩ := hop
    rw [Roster.joined_openSession]
    rintro (hr | ⟨hd, -⟩)
    · exact hroom hr
    · exact hno d hd
  cases a with
  | join d room' now =>
      rw [Roster.joined_join]
      rintro (⟨-, hd⟩ | hr)
      · exact hno₀ d hd
      · exact hroom hr
  | leaveRoom d room' =>
      rw [Roster.joined_leaveRoom]
      exact fun hr => hroom hr.1
  | layer b =>
      rw [next_of_not_moves r id fun c req now newID ha => hop ⟨c, req, now, newID, ha⟩]
      exact hroom
  | _ => exact hroom

end Agrees
end Sys

/-- The server and the roster of its rooms. -/
structure Tracked where
  sys : Sys
  roster : Roster

namespace Tracked

/-- A server that has just started. -/
def init (opt : SessionOptions) (digest : String → String) (sendBuffer : ClientRef → ℤ) :
    Tracked :=
  ⟨.init opt digest sendBuffer, .start⟩

/-- A step of the server, written down. -/
def step (w : Tracked) (a : SysOp) : Option Tracked :=
  (w.sys.step a).map fun σ' => ⟨σ', w.roster.next w.sys a σ'⟩

/-- The step relation of the tracked server. -/
def Step (w : Tracked) (a : SysOp) (w' : Tracked) : Prop := w.step a = some w'

/-- The schedules of `Sys.InOrder`. -/
def InOrder (w : Tracked) (a : SysOp) : Prop := w.sys.InOrder a

instance (w : Tracked) (a : SysOp) : Decidable (w.InOrder a) :=
  inferInstanceAs (Decidable (w.sys.InOrder a))

variable {w w' : Tracked} {a : SysOp}

/-- What is known between two steps of a schedule in order. -/
structure Tidy (w : Tracked) : Prop where
  wired : w.sys.Wired
  follows : w.sys.Running → ∀ p, (w.sys.layer.mem.session p).state ≠ .closed → w.sys.Follows p
  agrees : w.sys.Running → w.sys.Agrees w.roster

/-- No connection and no room is there at first. -/
theorem tidy_init (opt : SessionOptions) (digest : String → String)
    (sendBuffer : ClientRef → ℤ) : (init opt digest sendBuffer).Tidy where
  wired := Sys.wired_init opt digest sendBuffer
  follows _ _ hopen := absurd rfl hopen
  agrees _ :=
    { rooms := fun _ hopen => absurd rfl hopen
      own := fun c _ room => iff_of_false (Finset.notMem_empty c) (Finset.notMem_empty room)
      fresh := fun _ _ => rfl }

/-- **Every step in order keeps the rooms tidy.** -/
theorem Tidy.step (h : w.Tidy) (hstep : Guarded InOrder Step w a w') : w'.Tidy := by
  obtain ⟨hord, hstep⟩ := hstep
  obtain ⟨σ', hσ, rfl⟩ := Option.map_eq_some_iff.1 hstep
  have hσ : w.sys.Step a σ' := hσ
  refine ⟨h.wired.step hσ, fun hrun p hopen => ?_, fun hrun => ?_⟩
  · by_cases hp : p < w.sys.layer.mem.sessionCount
    · have hopen₀ : (w.sys.layer.mem.session p).state ≠ .closed := fun hclosed =>
        hopen (hσ.closed h.wired.inv hp hclosed)
      exact (h.follows (hσ.running hrun) p hopen₀).step h.wired hσ hrun
        (Sys.InOrder.orderly hord hopen₀)
    · -- nobody was bound to the session before
      have hvac : w.sys.Follows p := fun c hc =>
        absurd (h.wired.inv.bound.allocated hc) hp
      refine hvac.step h.wired hσ hrun ?_
      cases a with
      | transfer prev c => exact fun hc => absurd (h.wired.inv.bound.allocated hc) hp
      | join c room now => exact fun hc => absurd (h.wired.inv.bound.allocated hc) hp
      | _ => trivial
  · have hA := h.agrees (hσ.running hrun)
    exact
      { rooms := fun p hopen room => hA.step_rooms h.wired hσ hrun hord hopen room
        own := fun c hs room => hA.step_own h.wired hσ hrun hs room
        fresh := fun p hp => hA.step_fresh h.wired hσ hp }

/-- **Rooms follow the session** on a schedule in order: whenever no `Transfer` is to
come, a client of an open session that is in a room is the session's member, and
the member is in exactly the rooms the session's clients have joined and not
left. -/
theorem rooms_follow (opt : SessionOptions) (digest : String → String)
    (sendBuffer : ClientRef → ℤ) (w : Tracked)
    (h : Reachable (Guarded InOrder Step) (init opt digest sendBuffer) w)
    (hrun : w.sys.Running) (hdone : w.sys.transfers = []) (p : SessionRef)
    (hopen : (w.sys.layer.mem.session p).state ≠ .closed) :
    (∀ c room, (w.sys.layer.mem.client c).session = some p → c ∈ w.sys.hub.members room →
      (w.sys.layer.mem.session p).member = some c) ∧
    ∀ c, (w.sys.layer.mem.session p).member = some c →
      ∀ room, c ∈ w.sys.hub.members room ↔ room ∈ w.roster.joined p := by
  have hw : w.Tidy :=
    h.invariant (tidy_init opt digest sendBuffer) fun _ _ _ hs hstep => hs.step hstep
  have hmember : ∀ c room, (w.sys.layer.mem.client c).session = some p →
      c ∈ w.sys.hub.members room → (w.sys.layer.mem.session p).member = some c := by
    intro c room hc hmem
    rcases hw.follows hrun p hopen c hc (Or.inr (Or.inl ⟨room, hmem⟩)) with hm | ⟨x, hx, -⟩
    · exact hm
    · rw [hdone] at hx
      cases hx
  refine ⟨hmember, fun c hm room => ?_⟩
  rw [← (hw.agrees hrun).rooms p hopen]
  constructor
  · exact fun hmem => ⟨c, hw.wired.inv.bound.member hm, hmem⟩
  · rintro ⟨d, hd, hmem⟩
    obtain rfl := Option.some.inj ((hmember d room hd hmem).symm.trans hm)
    exact hmem

/-- Two overlapping resumes whose `Transfer`s are taken in order: the room of the
first client is the last one's. -/
theorem rooms_follow_twice_resumed :
    ∃ w, Reachable (Guarded InOrder Step) (init ⟨0, 0, 0, 0, 0⟩ id fun _ => 0) w ∧
      (w.sys.layer.mem.session 0).member = some 2 ∧ 2 ∈ w.sys.hub.members "r" ∧
      1 ∉ w.sys.hub.members "r" := by
  obtain ⟨w, hw, hp⟩ := Reachable.of_exec_guarded (G := InOrder) step
    (s := init ⟨0, 0, 0, 0, 0⟩ id fun _ => 0)
    [.accept 0, .register 0, .layer (.openSession 0 ⟨false, false, "", 0, ""⟩ 0 (some "a")),
      .join 0 "r" 0, .accept 1, .register 1,
      .layer (.openSession 1 ⟨true, false, "a", 0, ""⟩ 1 (some "b")), .accept 2, .register 2,
      .layer (.openSession 2 ⟨true, false, "a", 0, ""⟩ 2 (some "c")), .transfer 0 1,
      .transfer 1 2]
    (p := fun w => w.sys.phase = .idle ∧ w.sys.transfers = [] ∧
      (w.sys.layer.mem.session 0).state ≠ .closed ∧
      (w.sys.layer.mem.session 0).member = some 2 ∧ "r" ∈ w.roster.joined 0 ∧
      (w.sys.layer.mem.client 1).session = some 0)
    (by decide +kernel)
  obtain ⟨hidle, hdone, hopen, hmember, hjoined, hc⟩ := of_decide_eq_true hp
  obtain ⟨honly, hrooms⟩ := rooms_follow _ _ _ w hw (by simp [Sys.Running, hidle]) hdone 0 hopen
  refine ⟨w, hw, hmember, (hrooms 2 hmember "r").2 hjoined, fun hmem => ?_⟩
  rw [honly 1 "r" hc hmem] at hmember
  cases hmember

/-- **Counterexample.**  Two resumes of one session overlap, and their `Transfer`s are
taken the other way round.  When both are done, the room is held by the client in
between, and the member is in no room. -/
theorem rooms_stranded :
    ∃ w, Reachable Step (init ⟨0, 0, 0, 0, 0⟩ id fun _ => 0) w ∧ w.sys.Running ∧
      w.sys.transfers = [] ∧ w.sys.layer.told = [] ∧
      (w.sys.layer.mem.session 0).state ≠ .closed ∧
      (w.sys.layer.mem.client 1).session = some 0 ∧ 1 ∈ w.sys.hub.members "r" ∧
      (w.sys.layer.mem.session 0).member = some 2 ∧ "r" ∈ w.roster.joined 0 ∧
      2 ∉ w.sys.hub.members "r" := by
  obtain ⟨w, hw, hp⟩ := Reachable.of_exec step (s := init ⟨0, 0, 0, 0, 0⟩ id fun _ => 0)
    [.accept 0, .register 0, .layer (.openSession 0 ⟨false, false, "", 0, ""⟩ 0 (some "a")),
      .join 0 "r" 0, .accept 1, .register 1,
      .layer (.openSession 1 ⟨true, false, "a", 0, ""⟩ 1 (some "b")), .accept 2, .register 2,
      .layer (.openSession 2 ⟨true, false, "a", 0, ""⟩ 2 (some "c")), .transfer 1 2,
      .transfer 0 1, .layer (.displace 0), .layer (.displace 1)]
    (p := fun w => w.sys.phase = .idle ∧ w.sys.transfers = [] ∧ w.sys.layer.told = [] ∧
      (w.sys.layer.mem.session 0).state ≠ .closed ∧
      (w.sys.layer.mem.client 1).session = some 0 ∧ 1 ∈ w.sys.hub.members "r" ∧
      (w.sys.layer.mem.session 0).member = some 2 ∧ "r" ∈ w.roster.joined 0 ∧
      2 ∉ w.sys.hub.members "r")
    (by decide +kernel)
  obtain ⟨hidle, hrest⟩ := of_decide_eq_true hp
  exact ⟨w, hw, by simp [Sys.Running, hidle], hrest⟩

end Tracked
end GoSocket
