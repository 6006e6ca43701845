/-
# A session beside the others

A client that `Open` serves with a fresh session adds three things to the store:
a session at a new address, an entry of the id map, and its own binding.  This
module is about a store with such a guest in it (`Mem.seat`), compared with the
same store without: a call that involves neither the guest's client nor its
session does to the two stores the same thing and returns the same result
(`seat_step`), so what happens to everybody else after the guest came in is
what would have happened had it stayed away (`seat_run`).

The store without the guest leaves one address unused (`Mem.reserve`), so that
the sessions opened later stand at the same addresses in both.
-/

import GoSocket.Session.Bindings

namespace GoSocket

open Lib

/-- What a fresh `Open` adds to the store. -/
structure Guest where
  ref : SessionRef
  session : Session
  client : ClientRef
  record : Client
  id : String

/-- The calls that involve neither the guest's client nor its session. -/
def Op.Avoids (g : Guest) : Op → Prop
  | .openSession c req _ newID => c ≠ g.client ∧ req.sessionID ≠ g.id ∧ newID ≠ some g.id
  | .leave p c _ _ => p ≠ g.ref ∧ c ≠ g.client
  | .sweep _ => True
  | .deliver p _ _ | .ack p _ | .claimKey p _ => p ≠ g.ref
  | .trySend c _ _ | .write c | .closeRaw c | .shutdown c => c ≠ g.client

namespace Mem

/-- The store with the guest in it. -/
def seat (m : Mem) (g : Guest) : Mem :=
  { m with
    session := Function.update m.session g.ref g.session
    client := Function.update m.client g.client g.record
    store := { m.store with sessions := Function.update m.store.sessions g.id (some g.ref) } }

/-- The store with the next address left unused. -/
def reserve (m : Mem) : Mem := { m with sessionCount := m.sessionCount + 1 }

/-- The guest of a fresh `Open`. -/
def guest (m : Mem) (c : ClientRef) (owner id : String) (reason : Option Reason) : Guest where
  ref := m.sessionCount
  session := newSession m.store.opt id owner c
  client := c
  record :=
    { m.client c with session := some m.sessionCount, replay := [sessionFrame id false 0 0 reason] }
  id := id

/-- A fresh `Open` seats a guest and does nothing else. -/
theorem openFresh_eq_seat (m : Mem) (c : ClientRef) (owner id : String) (reason : Option Reason) :
    m.openFresh c owner (some id) reason none =
      (m.reserve.seat (m.guest c owner id reason),
        { session := some m.sessionCount, reason := reason }, []) := rfl

variable {m : Mem} {g : Guest}

@[simp] theorem seat_opt : (m.seat g).store.opt = m.store.opt := rfl

@[simp] theorem seat_parked : (m.seat g).store.parked = m.store.parked := rfl

@[simp] theorem seat_sessionCount : (m.seat g).sessionCount = m.sessionCount := rfl

/-- Seating a guest changes no other session. -/
theorem seat_session {p : SessionRef} (hp : p ≠ g.ref) : (m.seat g).session p = m.session p :=
  Function.update_of_ne hp ..

/-- Seating a guest changes no other client. -/
theorem seat_client {c : ClientRef} (hc : c ≠ g.client) : (m.seat g).client c = m.client c :=
  Function.update_of_ne hc ..

/-- Seating a guest changes no other id's entry. -/
theorem seat_sessions {id : String} (hid : id ≠ g.id) :
    (m.seat g).store.sessions id = m.store.sessions id :=
  Function.update_of_ne hid ..

/-- Writing another session commutes with seating the guest. -/
theorem seat_setSession {p : SessionRef} (hp : p ≠ g.ref) (s : Session) :
    (m.seat g).setSession p s = (m.setSession p s).seat g := by
  simp only [setSession, seat, Function.update_comm hp]

/-- Writing another client commutes with seating the guest. -/
theorem seat_setClient {c : ClientRef} (hc : c ≠ g.client) (cl : Client) :
    (m.seat g).setClient c cl = (m.setClient c cl).seat g := by
  simp only [setClient, seat, Function.update_comm hc]

/-- Changing another id's entry commutes with seating the guest. -/
theorem seat_setSessions {id : String} (hid : id ≠ g.id) (v : Option SessionRef) :
    (m.seat g).setSessions (Function.update (m.seat g).store.sessions id v) =
      (m.setSessions (Function.update m.store.sessions id v)).seat g := by
  simp only [setSessions, seat, Function.update_comm hid]

/-- Discarding another session. -/
theorem seat_discard {p : SessionRef} (hp : p ≠ g.ref) (hid : (m.session p).id ≠ g.id) :
    (m.seat g).discard p = (m.discard p).seat g := by
  simp only [discard_eq, seat_session hp]
  simp only [seat, Function.update_comm hp, Function.update_comm hid]

/-- Removing another session commutes with seating the guest. -/
theorem seat_removeLocked {p : SessionRef} (hp : p ≠ g.ref) (hid : (m.session p).id ≠ g.id) :
    (m.seat g).removeLocked p = (m.removeLocked p).seat g := by
  simp only [removeLocked, seat_session hp, seat_setSessions hid]
  cases (m.session p).elem with
  | none => rfl
  | some e => simp only [setParked, setSession, setSessions, seat, Function.update_comm hp]

/-- Resuming another session. -/
theorem seat_attachLocked {p : SessionRef} {c : ClientRef} (hp : p ≠ g.ref) (hc : c ≠ g.client)
    (lastSeq : ℕ) :
    (m.seat g).attachLocked p c lastSeq =
      ((m.attachLocked p c lastSeq).1.seat g, (m.attachLocked p c lastSeq).2) := by
  refine Prod.ext ?_ ?_
  · simp only [attachLocked_eq, seat_session hp, seat_client hc]
    simp only [seat, Function.update_comm hp, Function.update_comm hc]
  · show (attachLocked _ p c lastSeq).2 = (attachLocked _ p c lastSeq).2
    unfold attachLocked
    rw [seat_session hp]

/-- Opening a fresh session for another client. -/
theorem seat_openFresh {c : ClientRef} (hlt : g.ref < m.sessionCount) (hc : c ≠ g.client)
    (owner : String) {newID : Option String} (hid : newID ≠ some g.id) (reason : Option Reason)
    (victim : Option SessionRef) :
    (m.seat g).openFresh c owner newID reason victim =
      ((m.openFresh c owner newID reason victim).1.seat g,
        (m.openFresh c owner newID reason victim).2) := by
  cases newID with
  | none => rfl
  | some id =>
      have hid' : id ≠ g.id := fun h => hid (congrArg some h)
      have hne : m.sessionCount ≠ g.ref := hlt.ne'
      simp only [openFresh_some, fresh, seat_client hc, seat_opt, seat_sessionCount]
      simp only [seat, Function.update_comm hne, Function.update_comm hc,
        Function.update_comm hid']

/-- Parking another session. -/
theorem seat_park {p : SessionRef} {c : ClientRef} (hp : p ≠ g.ref) (hc : c ≠ g.client)
    (now : ℤ) : (m.seat g).park p c now = (m.park p c now).seat g := by
  simp only [park, setSession, setClient, setParked, seat_session hp, seat_client hc]
  simp only [seat, Function.update_comm hp, Function.update_comm hc]

/-- The sessions on the parked list are not the guest's. -/
def Apart (m : Mem) (g : Guest) : Prop :=
  ∀ x ∈ m.store.parked, x.2 ≠ g.ref ∧ (m.session x.2).id ≠ g.id

/-- Parking another session keeps the guest apart. -/
theorem Apart.park (h : m.Apart g) {p : SessionRef} (hp : p ≠ g.ref)
    (hid : (m.session p).id ≠ g.id) (c : ClientRef) (now : ℤ) : (m.park p c now).Apart g := by
  intro x hx
  have hx' : x ∈ m.store.parked ∨ x.2 = p := by
    rcases List.mem_append.1 hx with hx | hx
    · exact Or.inl hx
    · exact Or.inr (congrArg Prod.snd (List.mem_singleton.1 hx))
  rw [park_session]
  by_cases hxp : x.2 = p
  · rw [if_pos hxp, hxp]
    exact ⟨hp, hid⟩
  · rw [if_neg hxp]
    exact h x (hx'.resolve_right hxp)

/-- Discarding a session keeps the guest apart. -/
theorem Apart.discard (h : m.Apart g) (p : SessionRef) : (m.discard p).Apart g := by
  intro x hx
  rw [discard_parked] at hx
  obtain ⟨hne, hid⟩ := h x ((unpark_sublist _ _).subset hx)
  refine ⟨hne, ?_⟩
  rw [discard_session]
  split_ifs with hxp
  · rwa [← hxp]
  · exact hid

/-- Evicting other sessions. -/
theorem seat_evictLoop (h : m.Apart g) (fuel : ℕ) :
    (m.seat g).evictLoop fuel = ((m.evictLoop fuel).1.seat g, (m.evictLoop fuel).2) := by
  induction fuel generalizing m with
  | zero => rfl
  | succ fuel ih =>
      unfold evictLoop
      rw [seat_opt, seat_parked]
      by_cases hlong : m.store.opt.maxParked < m.store.parked.length
      · rw [if_pos hlong, if_pos hlong]
        split
        next => rfl
        next e v l hparked =>
          obtain ⟨hne, hid⟩ := h (e, v) (hparked ▸ List.mem_cons_self ..)
          dsimp only at hne hid ⊢
          rw [seat_discard hne hid, ih (h.discard v)]
      · rw [if_neg hlong, if_neg hlong]

/-- Sweeping other sessions. -/
theorem seat_sweepLoop (h : m.Apart g) (now : ℤ) (fuel : ℕ) :
    (m.seat g).sweepLoop now fuel =
      ((m.sweepLoop now fuel).1.seat g, (m.sweepLoop now fuel).2) := by
  induction fuel generalizing m with
  | zero => rfl
  | succ fuel ih =>
      unfold sweepLoop
      rw [seat_parked]
      split
      next => rfl
      next e v l hparked =>
        obtain ⟨hne, hid⟩ := h (e, v) (hparked ▸ List.mem_cons_self ..)
        dsimp only at hne hid ⊢
        rw [seat_session hne, seat_opt]
        split_ifs with hold
        · rw [seat_discard hne hid, ih (h.discard v)]
        · rfl

/-- A delivery to another session, whose live client is not the guest's. -/
theorem seat_deliver {p : SessionRef} (hp : p ≠ g.ref)
    (hlive : (m.session p).live ≠ some g.client) (data : Bytes) (pol : SendPolicy) :
    (m.seat g).deliver p data pol =
      ((m.deliver p data pol).1.seat g, (m.deliver p data pol).2) := by
  unfold deliver
  rw [seat_session hp]
  cases hl : (m.session p).live with
  | none =>
      simp only [hl]
      rw [seat_setSession hp]
  | some c =>
      have hc : c ≠ g.client := fun h => hlive (hl.trans (congrArg some h))
      simp only [hl]
      rw [seat_client hc, seat_setSession hp, seat_setClient hc]

/-- A store that a guest could come into: its address is unused, its id names no
open session, and nobody points to it. -/
structure Clear (m : Mem) (g : Guest) : Prop where
  inv : m.StoreInv
  allocated : g.ref < m.sessionCount
  closed : (m.session g.ref).state = .closed
  unnamed : ∀ p, (m.session p).state ≠ .closed → (m.session p).id ≠ g.id
  live : ∀ p, (m.session p).live ≠ some g.client
  bound : ∀ d, (m.client d).session ≠ some g.ref

namespace Clear

/-- A stored session is not the guest's. -/
theorem stored (h : m.Clear g) {p : SessionRef} {id : String} (hp : m.store.sessions id = some p) :
    p ≠ g.ref ∧ (m.session p).state ≠ .closed ∧ (m.session p).id = id := by
  obtain ⟨hid, hopen⟩ := (h.inv.linked.session p).stored.1 hp
  refine ⟨?_, hopen, hid⟩
  rintro rfl
  exact hopen h.closed

/-- Nor is a parked one. -/
theorem apart (h : m.Clear g) : m.Apart g := by
  rintro ⟨e, p⟩ hx
  have he := (h.inv.linked.session p).listed.1 hx
  have hparked := ((h.inv.linked.session p).elem he).1
  have hopen : (m.session p).state ≠ .closed := by
    rw [hparked]
    decide
  refine ⟨?_, h.unnamed p hopen⟩
  rintro rfl
  exact hopen h.closed

/-- Every call that avoids the guest keeps the place clear. -/
theorem step (h : m.Clear g) {op : Op} {m' : Mem} (hop : op.Avoids g) (hstep : m.Step op m') :
    m'.Clear g where
  inv := h.inv.step hstep
  allocated := h.allocated.trans_le (hstep.sessionCount_le h.inv)
  closed := (h.inv.step_touched hstep g.ref).closed h.allocated h.closed
  unnamed p hopen := by
    have ht := h.inv.step_touched hstep p
    generalize m'.session p = s at ht hopen
    cases ht with
    | same => exact h.unnamed p hopen
    | allocated heq =>
        subst heq
        exact fun hid => hop.2.2 (congrArg some hid)
    | attached _ _ _ _ hv => exact h.unnamed p (Session.verdict_eq_none.1 hv).1
    | parked _ hatt => exact h.unnamed p (by rw [hatt]; decide)
    | expired => exact absurd rfl hopen
    | evicted => exact absurd rfl hopen
    | refused => exact absurd rfl hopen
    | ended => exact absurd rfl hopen
    | @delivered data pol _ =>
        obtain ⟨_, _, _, _, _, hd⟩ := (m.session p).deliver_frame (m.liveClient p) data pol
        rw [hd] at hopen ⊢
        exact h.unnamed p hopen
    | @acked seq _ =>
        unfold Session.ack at hopen ⊢
        split_ifs at hopen ⊢ <;> exact h.unnamed p hopen
    | claimed => exact h.unnamed p hopen
  live p := by
    have ht := h.inv.step_touched hstep p
    generalize m'.session p = s at ht
    cases ht with
    | same => exact h.live p
    | allocated heq =>
        subst heq
        exact fun hc => hop.1 (Option.some.inj hc)
    | attached heq =>
        subst heq
        exact fun hc => hop.1 (Option.some.inj hc)
    | parked => exact fun hc => by cases hc
    | expired => exact h.live p
    | evicted => exact h.live p
    | refused => exact h.live p
    | ended => exact fun hc => by cases hc
    | @delivered data pol _ =>
        obtain ⟨_, _, _, _, _, hd⟩ := (m.session p).deliver_frame (m.liveClient p) data pol
        rw [hd]
        exact h.live p
    | @acked seq _ =>
        unfold Session.ack
        split_ifs <;> exact h.live p
    | claimed => exact h.live p
  bound d hd := by
    rcases (step_clientTouched h.inv hstep d).session with heq | ⟨_, _, _, p, -, hp, -, -, hatt, -⟩
    · exact h.bound d (heq.symm.trans hd)
    · -- the session a client is bound to is attached, the guest's address is not
      obtain rfl := Option.some.inj (hp.symm.trans hd)
      rw [(h.inv.step_touched hstep g.ref).closed h.allocated h.closed] at hatt
      cases hatt

end Clear

/-- `Open` for another client, on another session. -/
theorem seat_open (h : m.Clear g) {c : ClientRef} (req : ResumeRequest) (now : ℤ)
    (newID : Option String) (hc : c ≠ g.client) (hreq : req.sessionID ≠ g.id)
    (hid : newID ≠ some g.id) :
    (m.seat g).open c req now newID =
      ((m.open c req now newID).1.seat g, (m.open c req now newID).2) := by
  unfold Mem.open
  by_cases hinv : req.invalid = true
  · rw [if_pos hinv, if_pos hinv]
    exact seat_openFresh h.allocated hc _ hid _ _
  rw [if_neg hinv, if_neg hinv]
  by_cases hrequested : req.requested = true
  · rw [if_pos hrequested, if_pos hrequested, seat_sessions hreq]
    cases hp : m.store.sessions req.sessionID with
    | none => exact seat_openFresh h.allocated hc _ hid _ _
    | some p =>
        obtain ⟨hne, hopen, -⟩ := h.stored hp
        dsimp only
        rw [seat_session hne, seat_opt]
        rcases (m.session p).verdict req now m.store.opt.ttl with ⟨_ | reason, _ | _⟩
        · dsimp only
          rw [seat_attachLocked hne hc]
        · dsimp only
          rw [seat_attachLocked hne hc]
        · exact seat_openFresh h.allocated hc _ hid _ _
        · dsimp only
          rw [seat_discard hne (h.unnamed p hopen)]
          exact seat_openFresh (by simpa using h.allocated) hc _ hid _ _
  · rw [if_neg hrequested, if_neg hrequested]
    exact seat_openFresh h.allocated hc _ hid _ _

/-- `Leave` of another session. -/
theorem seat_leave (h : m.Clear g) {p : SessionRef} {c : ClientRef} (resumable : Bool) (now : ℤ)
    (hp : p ≠ g.ref) (hc : c ≠ g.client) :
    (m.seat g).leave p c resumable now =
      ((m.leave p c resumable now).1.seat g, (m.leave p c resumable now).2) := by
  unfold leave
  rw [seat_session hp]
  dsimp only
  by_cases hopen : (m.session p).state = .closed
  · rw [if_pos hopen, if_pos hopen]
  rw [if_neg hopen, if_neg hopen]
  by_cases hlive : (m.session p).live ≠ some c
  · rw [if_pos hlive, if_pos hlive]
  rw [if_neg hlive, if_neg hlive]
  have hid := h.unnamed p hopen
  by_cases hres : resumable = false
  · rw [if_pos hres, if_pos hres, seat_setSession hp, seat_removeLocked hp (by simpa using hid)]
  · rw [if_neg hres, if_neg hres, seat_park hp hc, seat_parked,
      seat_evictLoop (h.apart.park hp hid c now)]

/-- A send through another client. -/
theorem seat_trySendPolicy (h : m.Clear g) {c : ClientRef} (hc : c ≠ g.client) (data : Bytes)
    (pol : SendPolicy) :
    (m.seat g).trySendPolicy c data pol =
      ((m.trySendPolicy c data pol).1.seat g, (m.trySendPolicy c data pol).2) := by
  unfold trySendPolicy
  rw [seat_client hc]
  cases hs : (m.client c).session with
  | some p =>
      have hp : p ≠ g.ref := fun heq => h.bound c (hs.trans (congrArg some heq))
      exact seat_deliver hp (h.live p) data pol
  | none =>
      dsimp only
      rcases (m.client c).enqueue data with ⟨cl, _ | _ | _⟩
      · dsimp only
        rw [seat_setClient hc]
      · dsimp only
        split_ifs
        · rw [seat_setClient hc]
        · rw [seat_setClient hc]
      · dsimp only
        rw [seat_setClient hc]

/-- **A call that avoids the guest does to the others what it does without the guest.** -/
theorem seat_step (h : m.Clear g) {op : Op} {m' : Mem} (hop : op.Avoids g)
    (hstep : m.Step op m') : (m.seat g).Step op (m'.seat g) := by
  cases hstep.took with
  | openSession c req now newID hid =>
      have hid' : ∀ id ∈ newID, (m.seat g).store.sessions id = none := by
        rintro id rfl
        rw [seat_sessions fun heq => hop.2.2 (congrArg some heq)]
        exact hid id rfl
      have heq := seat_open h req now newID hop.1 hop.2.1 hop.2.2
      exact (if_pos hid').trans (by rw [heq])
  | leave p c resumable now hp =>
      exact (if_pos hp).trans (by rw [seat_leave h resumable now hop.1 hop.2])
  | sweep now =>
      show some ((m.seat g).sweep now).1 = some ((m.sweep now).1.seat g)
      unfold sweep
      rw [seat_parked, seat_sweepLoop h.apart]
  | deliver p data pol hp =>
      exact (if_pos hp).trans (by rw [seat_deliver hop (h.live p)])
  | trySend c data pol =>
      show some ((m.seat g).trySendPolicy c data pol).1 = _
      rw [seat_trySendPolicy h hop]
  | ack p seq hp =>
      refine (if_pos hp).trans ?_
      rw [ack, seat_session hop, seat_setSession hop]
      rfl
  | claimKey p key hp =>
      refine (if_pos hp).trans ?_
      rw [claimKey, seat_session hop, seat_opt, seat_setSession hop]
      rfl
  | write c cl hcl =>
      show ((m.seat g).client c).writeNext.map _ = _
      rw [seat_client hop, hcl, Option.map_some, seat_setClient hop]
  | closeRaw c =>
      show some ((m.seat g).setClient c ((m.seat g).client c).closeRaw) = _
      rw [seat_client hop, seat_setClient hop]
  | shutdown c =>
      show some ((m.seat g).setClient c ((m.seat g).client c).shutdown) = _
      rw [seat_client hop, seat_setClient hop]

/-- **So does a run.** -/
theorem seat_run (h : m.Clear g) {ops : List Op} {n : Mem} (hops : ∀ op ∈ ops, op.Avoids g)
    (hrun : Steps Step m ops n) : Steps Step (m.seat g) ops (n.seat g) ∧ n.Clear g := by
  induction hrun with
  | nil m => exact ⟨.nil _, h⟩
  | @cons m m' n op ops hstep _ ih =>
      have hop := hops op (List.mem_cons_self ..)
      obtain ⟨hrun', hclear⟩ := ih (h.step hop hstep) fun op hmem =>
        hops op (List.mem_cons_of_mem _ hmem)
      exact ⟨.cons (seat_step h hop hstep) hrun', hclear⟩

end Mem
end GoSocket
