/-
# A call on a session as an update of it

`deliver`, `Ack` and `ClaimKey` write to the fields of one session that neither the
store's map nor its parked list looks at: the sequence, the replay buffer, the keys and
the counter of dropped frames.  Such a write is an `Edit`; what `deliver` does to the
client's queue besides is a `Poke`.  `Session.look` is the body of `deliver` up to its
first write: what it is going to write to the session, what it does to the queue and what
it returns.

The store's own work does not look at those fields either, so it makes no difference
whether an edit comes before or after it: `removeLocked`, the eviction loop, a sweep,
the making of a session and `Leave` of another session commute with edits.
-/

import GoSocket.Session.Runs

namespace GoSocket

open Lib

/-- A write to one session. -/
inductive Edit where
  | keep
  | commit (seq : ℕ) (data : Bytes) (stall : Bool)
  | drop
  | ack (seq : ℕ)
  | claim (key : String)
  deriving DecidableEq

/-- The session after the write. -/
def Edit.apply (s : Session) : Edit → Session
  | .keep => s
  | .commit seq data stall => { s.commit seq data with stalled := s.stalled || stall }
  | .drop => { s with dropped := s.dropped + 1 }
  | .ack seq => { s with buf := if seq < s.next then s.buf.ackUpTo seq else s.buf }
  | .claim key => { s with keys := (s.keys.claim key).1 }

/-- What is done to one client without the store lock. -/
inductive Poke where
  | nothing
  | send (frame : Bytes)
  | drop
  | close
  | shutdown
  | write
  deriving DecidableEq

/-- The client after it. -/
def Poke.apply (c : Client) : Poke → Client
  | .nothing => c
  | .send frame => { c with send := c.send ++ [frame] }
  | .drop => { c with dropped := c.dropped + 1 }
  | .close => c.closeRaw
  | .shutdown => c.shutdown
  | .write => c.writeNext.getD c

/-- No poke rebinds a client. -/
theorem Poke.apply_session (x : Poke) (c : Client) : (x.apply c).session = c.session := by
  cases x with
  | write =>
      rw [apply]
      cases hw : c.writeNext with
      | none => rfl
      | some c' => exact (Client.writeNext_frame hw).1
  | _ => rfl

namespace Session

/-- `deliver` up to its first write to the session: that write, what is done to the
live client's queue, and the result. -/
def look (s : Session) (live : Option Client) (data : Bytes) (pol : SendPolicy) :
    Edit × Poke × Bool :=
  if s.state = .closed then (.keep, .nothing, true)
  else
    match pol, s.online live with
    | .volatile, none => (.drop, .nothing, true)
    | .volatile, some c =>
        match (c.enqueue data).2 with
        | .ok => (.keep, .send data, true)
        | _ => (.keep, .drop, true)
    | _, none => (.commit s.next data false, .nothing, true)
    | pol, some c =>
        match (c.enqueue (stamp data s.next)).2 with
        | .ok => (.commit s.next data false, .send (stamp data s.next), true)
        | .closed => (.commit s.next data true, .nothing, true)
        | .full =>
            if pol = .drop then (.keep, .drop, true)
            else (.commit s.next data true, .nothing, false)

/-- The key `ClaimKey` looks for: long keys are hashed. -/
def windowKey (digest : String → String) (key : String) : String :=
  if maxKeyLen < key.utf8ByteSize then digest key else key

variable (s : Session) (live : Option Client) (data : Bytes) (pol : SendPolicy)

/-- **`deliver` is its look at the session and then the writes.** -/
theorem deliver_eq_look : s.deliver live data pol =
    ((s.look live data pol).1.apply s, live.map (s.look live data pol).2.1.apply,
      (s.look live data pol).2.2) := by
  unfold deliver look
  by_cases hclosed : s.state = .closed
  · cases live <;> simp [hclosed, Edit.apply, Poke.apply]
  rw [if_neg hclosed, if_neg hclosed]
  cases hon : s.online live with
  | none =>
      cases pol <;> cases live <;> simp [Edit.apply, Poke.apply, commit]
  | some c =>
      obtain ⟨hst, rfl⟩ := online_eq_some.1 hon
      rcases hc : c.closed with _ | _
      · by_cases hroom : c.send.length < c.sendBuffer
        · cases pol <;>
            simp [c.enqueue_of_room hc hroom, Edit.apply, Poke.apply, commit]
        · cases pol <;>
            simp [c.enqueue_of_full hc (not_lt.1 hroom), Edit.apply, Poke.apply, commit, hst]
      · cases pol <;> simp [c.enqueue_of_closed hc, Edit.apply, Poke.apply, commit, hst]

/-- `deliver` is not the write pump. -/
theorem look_ne_write : (s.look live data pol).2.1 ≠ .write := by
  unfold look
  split_ifs
  · simp
  · split
    · simp
    · split <;> simp
    · simp
    · split
      · simp
      · simp
      · split_ifs <;> simp

/-- `deliver` reads nothing else. -/
theorem look_congr {s s' : Session} {c c' : Option Client} (hstate : s'.state = s.state)
    (hstalled : s'.stalled = s.stalled) (hnext : s'.next = s.next)
    (hc : ∀ frame, c'.map (fun cl => (cl.enqueue frame).2) = c.map fun cl => (cl.enqueue frame).2)
    (data : Bytes) (pol : SendPolicy) : s'.look c' data pol = s.look c data pol := by
  unfold look online
  rw [hstate, hstalled, hnext]
  cases c with
  | none =>
      cases c' with
      | none => rfl
      | some cl' => simpa using hc []
  | some cl =>
      cases c' with
      | none => simpa using hc []
      | some cl' =>
          have henq : ∀ frame, (cl'.enqueue frame).2 = (cl.enqueue frame).2 := by
            simpa using hc
          cases s.stalled <;> cases pol <;> simp [henq]

/-- The session's `ack` is the edit of that name. -/
theorem ack_eq_apply (seq : ℕ) : s.ack seq = (Edit.ack seq).apply s := by
  by_cases hseq : seq < s.next <;> simp [ack, Edit.apply, hseq]

end Session

namespace Edit

variable (e : Edit) (s : Session)

@[simp] theorem apply_keep : Edit.keep.apply s = s := rfl

@[simp] theorem apply_id : (e.apply s).id = s.id := by cases e <;> rfl

@[simp] theorem apply_owner : (e.apply s).owner = s.owner := by cases e <;> rfl

@[simp] theorem apply_state : (e.apply s).state = s.state := by cases e <;> rfl

@[simp] theorem apply_live : (e.apply s).live = s.live := by cases e <;> rfl

@[simp] theorem apply_member : (e.apply s).member = s.member := by cases e <;> rfl

@[simp] theorem apply_parked : (e.apply s).parked = s.parked := by cases e <;> rfl

@[simp] theorem apply_elem : (e.apply s).elem = s.elem := by cases e <;> rfl

/-- An edit does not touch what the store writes to a session when it discards it. -/
theorem apply_close :
    e.apply { s with state := .closed } = { e.apply s with state := .closed } := by
  cases e <;> rfl

/-- An edit does not see the parked-list element, so clearing it first changes nothing. -/
theorem apply_unlist : e.apply { s with elem := none } = { e.apply s with elem := none } := by
  cases e <;> rfl

end Edit

attribute [ext] Mem

namespace Mem

/-- An edit of the session at an address. -/
def edit (m : Mem) (u : SessionRef × Edit) : Mem := m.setSession u.1 (u.2.apply (m.session u.1))

/-- Every session is edited. -/
def pend (m : Mem) (E : SessionRef → Edit) : Mem :=
  { m with session := fun q => (E q).apply (m.session q) }

/-- A client is poked. -/
def poke (m : Mem) (c : ClientRef) (x : Poke) : Mem := m.setClient c (x.apply (m.client c))

/-- The live client of a session is poked. -/
def pokeLive (m : Mem) (p : SessionRef) (x : Poke) : Mem :=
  match (m.session p).live with
  | none => m
  | some c => m.poke c x

variable (m : Mem) (u : SessionRef × Edit) (E : SessionRef → Edit) (p q v : SessionRef)
  (c d : ClientRef) (x : Poke)

/-- An edit changes the session it names and no other. -/
@[simp] theorem edit_session :
    (m.edit u).session q = if q = u.1 then u.2.apply (m.session q) else m.session q := by
  rw [edit, setSession_session]
  split_ifs with hq
  · rw [hq]
  · rfl

@[simp] theorem edit_store : (m.edit u).store = m.store := rfl

@[simp] theorem edit_client : (m.edit u).client = m.client := rfl

@[simp] theorem edit_sessionCount : (m.edit u).sessionCount = m.sessionCount := rfl

@[simp] theorem edit_elemCount : (m.edit u).elemCount = m.elemCount := rfl

/-- An edit leaves what the store looks at. -/
theorem edit_links : ((m.edit u).session q).id = (m.session q).id ∧
    ((m.edit u).session q).elem = (m.session q).elem ∧
    ((m.edit u).session q).parked = (m.session q).parked ∧
    ((m.edit u).session q).state = (m.session q).state ∧
    ((m.edit u).session q).live = (m.session q).live := by
  rw [edit_session]
  split_ifs <;> simp

@[simp] theorem pend_session : (m.pend E).session q = (E q).apply (m.session q) := rfl

@[simp] theorem pend_store : (m.pend E).store = m.store := rfl

@[simp] theorem pend_client : (m.pend E).client = m.client := rfl

@[simp] theorem pend_sessionCount : (m.pend E).sessionCount = m.sessionCount := rfl

@[simp] theorem pend_elemCount : (m.pend E).elemCount = m.elemCount := rfl

/-- One edit is a family of pending edits with a single entry. -/
theorem edit_eq_pend : m.edit u = m.pend (Function.update (fun _ => .keep) u.1 u.2) := by
  apply Mem.ext
  · rfl
  · funext q
    by_cases hq : q = u.1
    · subst hq
      simp
    · simp [hq, Edit.apply]
  all_goals rfl

/-- A poke changes the client it names and no other. -/
@[simp] theorem poke_client :
    (m.poke c x).client d = if d = c then x.apply (m.client d) else m.client d := by
  rw [poke, setClient_client]
  split_ifs with hd
  · rw [hd]
  · rfl

@[simp] theorem poke_session : (m.poke c x).session = m.session := rfl

@[simp] theorem poke_store : (m.poke c x).store = m.store := rfl

@[simp] theorem poke_sessionCount : (m.poke c x).sessionCount = m.sessionCount := rfl

@[simp] theorem poke_elemCount : (m.poke c x).elemCount = m.elemCount := rfl

/-- The poke that does nothing leaves memory as it is. -/
theorem poke_nothing : m.poke c .nothing = m := by
  simp [poke, Poke.apply, setClient]

/-- Edits of different sessions commute. -/
theorem edit_comm {u w : SessionRef × Edit} (h : u.1 ≠ w.1) :
    (m.edit u).edit w = (m.edit w).edit u := by
  apply Mem.ext
  · rfl
  · funext q
    simp only [edit_session]
    by_cases hu : q = u.1
    · subst hu
      simp [h]
    · simp [hu]
  all_goals rfl

/-- **A delivery is an edit and a poke.** -/
theorem deliver_eq_edit (data : Bytes) (pol : SendPolicy) :
    m.deliver p data pol =
      ((m.edit (p, ((m.session p).look (m.liveClient p) data pol).1)).pokeLive p
        ((m.session p).look (m.liveClient p) data pol).2.1,
        ((m.session p).look (m.liveClient p) data pol).2.2) := by
  unfold deliver pokeLive
  rw [(m.edit_links _ p).2.2.2.2]
  cases hlive : (m.session p).live with
  | none =>
      have hl : m.liveClient p = none := by simp [liveClient, hlive]
      simp only [hl, hlive, Session.deliver_eq_look]
      rfl
  | some c =>
      have hl : m.liveClient p = some (m.client c) := by simp [liveClient, hlive]
      simp only [hl, hlive, Session.deliver_eq_look]
      rfl

/-- A client's ack is one edit of its session. -/
theorem ack_eq_edit (seq : ℕ) : m.ack p seq = m.edit (p, .ack seq) := by
  rw [ack, Session.ack_eq_apply, edit]

/-- Claiming a key is one edit of the session; the window answers whether the key was new. -/
theorem claimKey_eq_edit (key : String) :
    m.claimKey p key =
      (m.edit (p, .claim (Session.windowKey m.store.opt.digest key)),
        ((m.session p).keys.claim (Session.windowKey m.store.opt.digest key)).2) :=
  rfl

/-- Poking a session's live client changes no session. -/
@[simp] theorem pokeLive_session : (m.pokeLive p x).session = m.session := by
  unfold pokeLive
  split <;> rfl

/-- A session without a live client has none to poke. -/
theorem pokeLive_of_live_eq_none {m : Mem} {p : SessionRef} (h : (m.session p).live = none)
    (x : Poke) : m.pokeLive p x = m := by
  rw [pokeLive, h]

/-- Poking the live client with nothing leaves memory as it is. -/
theorem pokeLive_nothing : m.pokeLive p .nothing = m := by
  unfold pokeLive
  split
  · rfl
  · exact m.poke_nothing _

/-- Pending edits never change which client is live, so they commute with a poke of it. -/
theorem pokeLive_pend : (m.pend E).pokeLive p x = (m.pokeLive p x).pend E := by
  unfold pokeLive
  rw [pend_session, Edit.apply_live]
  cases (m.session p).live <;> rfl

/-- An edit of a session that has none to come is the next one to come. -/
theorem pend_update {E : SessionRef → Edit} {p : SessionRef} (hE : E p = .keep) (e : Edit) :
    m.pend (Function.update E p e) = (m.pend E).edit (p, e) := by
  apply Mem.ext
  · rfl
  · funext q
    by_cases hq : q = p
    · subst hq
      simp [hE]
    · simp [hq]
  all_goals rfl

/-- Edits of different sessions commute. -/
theorem edit_pend {E : SessionRef → Edit} {u : SessionRef × Edit} (hE : E u.1 = .keep) :
    (m.edit u).pend E = (m.pend E).edit u := by
  apply Mem.ext
  · rfl
  · funext q
    by_cases hq : q = u.1
    · subst hq
      simp [hE]
    · simp [hq]
  all_goals rfl

/-- An edit commutes with a poke of any session's live client. -/
theorem pokeLive_edit : (m.edit u).pokeLive p x = (m.pokeLive p x).edit u := by
  unfold pokeLive
  rw [(m.edit_links u p).2.2.2.2]
  cases (m.session p).live <;> rfl

/-- What `removeLocked` does, field by field. -/
theorem removeLocked_eq :
    m.removeLocked v =
      { m with
        session := Function.update m.session v { m.session v with elem := none }
        store := { m.store with
          sessions := Function.update m.store.sessions (m.session v).id none
          parked := unpark m.store.parked (m.session v).elem } } := by
  unfold removeLocked
  cases he : (m.session v).elem with
  | none =>
      have hsame : { m.session v with elem := none } = m.session v := by rw [← he]
      rw [hsame, Function.update_eq_self]
      simp [he, setSessions, unpark]
  | some e => simp [he, setSession, setSessions, setParked, unpark]

/-- Removing a session clears its parked-list element and touches no other session. -/
@[simp] theorem removeLocked_session :
    (m.removeLocked v).session q =
      if q = v then { m.session v with elem := none } else m.session q := by
  rw [removeLocked_eq]
  exact Function.update_apply ..

/-- `s.state = stateClosed`. -/
def close (m : Mem) (v : SessionRef) : Mem :=
  m.setSession v { m.session v with state := .closed }

/-- Closing a session sets its state and touches no other session. -/
@[simp] theorem close_session :
    (m.close v).session q = if q = v then { m.session v with state := .closed } else m.session q :=
  setSession_session ..

theorem removeLocked_close : (m.close v).removeLocked v = m.discard v := rfl

/-- Taking a session off the store does not look at what an edit writes. -/
theorem removeLocked_pend : (m.pend E).removeLocked v = (m.removeLocked v).pend E := by
  apply Mem.ext
  · simp [removeLocked_eq]
  · funext q
    simp only [removeLocked_session, pend_session]
    split_ifs with hq
    · subst hq
      exact ((E q).apply_unlist (m.session q)).symm
    · rfl
  all_goals simp [removeLocked_eq]

/-- Closing a session commutes with the edits still pending. -/
theorem close_pend : (m.pend E).close v = (m.close v).pend E := by
  apply Mem.ext
  · rfl
  · funext q
    simp only [close_session, pend_session]
    split_ifs with hq
    · subst hq
      exact ((E q).apply_close (m.session q)).symm
    · rfl
  all_goals rfl

/-- Discarding a session commutes with the edits still pending. -/
theorem discard_pend : (m.pend E).discard v = (m.discard v).pend E := by
  rw [← removeLocked_close, ← removeLocked_close, close_pend, removeLocked_pend]

/-- The eviction loop reads no edited field: it commutes with pending edits and evicts the same
sessions. -/
theorem evictLoop_pend (fuel : ℕ) :
    (m.pend E).evictLoop fuel = ((m.evictLoop fuel).1.pend E, (m.evictLoop fuel).2) := by
  induction fuel generalizing m with
  | zero => rfl
  | succ fuel ih =>
      rcases hp : m.store.parked with _ | ⟨⟨e, v⟩, rest⟩ <;>
        simp only [evictLoop, pend_store, hp] <;> split_ifs
      · rfl
      · rfl
      · simp only [discard_pend, ih]
      · rfl

/-- The sweep loop reads no edited field: it commutes with pending edits and sweeps the same
sessions. -/
theorem sweepLoop_pend (now : ℤ) (fuel : ℕ) :
    (m.pend E).sweepLoop now fuel =
      ((m.sweepLoop now fuel).1.pend E, (m.sweepLoop now fuel).2) := by
  induction fuel generalizing m with
  | zero => rfl
  | succ fuel ih =>
      simp only [sweepLoop, pend_store, pend_session, Edit.apply_parked]
      cases m.store.parked with
      | nil => rfl
      | cons x rest =>
          by_cases hold : m.store.opt.ttl < now - (m.session x.2).parked
          · simp only [hold, if_true, discard_pend, ih]
          · simp only [hold, if_false]

/-- A session that is not there yet cannot have been edited. -/
theorem openFresh_pend (hE : E m.sessionCount = .keep) (owner : String) (newID : Option String)
    (reason : Option Reason) (victim : Option SessionRef) :
    (m.pend E).openFresh c owner newID reason victim =
      ((m.openFresh c owner newID reason victim).1.pend E,
        (m.openFresh c owner newID reason victim).2) := by
  cases newID with
  | none => rfl
  | some id =>
      simp only [openFresh_some, Prod.mk.injEq, pend_sessionCount, and_true]
      apply Mem.ext
      · rfl
      · funext q
        simp only [fresh_session, pend_session, pend_sessionCount, pend_store]
        by_cases hq : q = m.sessionCount
        · subst hq
          simp [hE]
        · simp [hq]
      all_goals rfl

/-- Attaching commutes with edits pending on other sessions; `attach` reads the buffer of its
own, so that one must have none. -/
theorem attachLocked_pend (hE : E p = .keep) (lastSeq : ℕ) :
    (m.pend E).attachLocked p c lastSeq =
      ((m.attachLocked p c lastSeq).1.pend E, (m.attachLocked p c lastSeq).2) := by
  have hp : (m.pend E).session p = m.session p := by rw [pend_session, hE, Edit.apply_keep]
  refine Prod.ext ?_ ?_
  · rw [attachLocked_eq, attachLocked_eq, hp]
    apply Mem.ext
    · rfl
    · funext q
      simp only [pend_session, Function.update_apply]
      split_ifs with hq
      · rw [hq, hE, Edit.apply_keep]
      · rfl
    all_goals rfl
  · simp only [attachLocked, hp]

/-- Overwriting a session commutes with edits pending on the others. -/
theorem setSession_pend (hE : E p = .keep) (s : Session) :
    (m.pend E).setSession p s = (m.setSession p s).pend E := by
  apply Mem.ext
  · rfl
  · funext q
    simp only [setSession_session, pend_session]
    split_ifs with hq
    · rw [hq, hE, Edit.apply_keep]
    · rfl
  all_goals rfl

/-- Parking a session commutes with edits pending on the others. -/
theorem park_pend (hE : E p = .keep) (now : ℤ) :
    (m.pend E).park p c now = (m.park p c now).pend E := by
  have hp : (m.pend E).session p = m.session p := by rw [pend_session, hE, Edit.apply_keep]
  apply Mem.ext
  · rfl
  · funext q
    simp only [park_session, hp, pend_session, pend_elemCount]
    by_cases hq : q = p
    · subst hq
      simp [hE]
    · simp [hq]
  all_goals rfl

/-- **`Leave` does not look at the edits of other sessions.** -/
theorem leave_pend (hE : E p = .keep) (resumable : Bool) (now : ℤ) :
    (m.pend E).leave p c resumable now =
      ((m.leave p c resumable now).1.pend E, (m.leave p c resumable now).2) := by
  have hp : (m.pend E).session p = m.session p := by rw [pend_session, hE, Edit.apply_keep]
  unfold leave
  simp only [hp, setSession_pend m E p hE]
  split_ifs
  · rfl
  · rfl
  · rw [removeLocked_pend]
  · rw [park_pend m E p c hE, pend_store, evictLoop_pend]

/-- What an edit writes has the limits of the store. -/
theorem Limits.apply {opt : StoreOptions} {s : Session} (h : Limits opt s) (e : Edit) :
    Limits opt (e.apply s) := by
  cases e with
  | commit seq data stall =>
      obtain ⟨hm, hb⟩ := s.buf.push_caps seq data
      exact ⟨hm.trans h.1, hb.trans h.2.1, h.2.2⟩
  | ack seq =>
      obtain ⟨hm, hb⟩ := s.buf.ackUpTo_caps seq
      simp only [Limits, Edit.apply]
      split_ifs
      · exact ⟨hm.trans h.1, hb.trans h.2.1, h.2.2⟩
      · exact h
  | claim key => exact ⟨h.1, h.2.1, (KeyWindow.claim_max ..).trans h.2.2⟩
  | keep | drop => exact h

/-- Edits keep the links. -/
theorem Linked.pend {m : Mem} (h : m.Linked) (E : SessionRef → Edit) : (m.pend E).Linked where
  nodup := h.nodup
  session p := by
    obtain ⟨hstored, hlisted, helem, halloc, hparked, hattached, hlimits⟩ := h.session p
    constructor <;> simp only [pend_session, pend_store, pend_sessionCount, pend_elemCount,
      Edit.apply_id, Edit.apply_state, Edit.apply_elem, Edit.apply_live, Edit.apply_member]
    case stored => exact hstored
    case listed => exact hlisted
    case elem => exact helem
    case allocated => exact halloc
    case parked => exact hparked
    case attached => exact hattached
    case limits => exact hlimits.apply _

/-- A poke keeps the parked list and the sessions linked. -/
theorem Linked.poke {m : Mem} (h : m.Linked) (c : ClientRef) (x : Poke) : (m.poke c x).Linked :=
  h.setClient c _

section poke

/-- Removing a session commutes with a poke. -/
theorem removeLocked_poke : (m.poke c x).removeLocked v = (m.removeLocked v).poke c x := by
  simp only [removeLocked_eq]
  rfl

/-- Discarding a session commutes with a poke. -/
theorem discard_poke : (m.poke c x).discard v = (m.discard v).poke c x := by
  rw [discard_eq, discard_eq]
  rfl

/-- The eviction loop reads no client: it commutes with a poke. -/
theorem evictLoop_poke (fuel : ℕ) :
    (m.poke c x).evictLoop fuel = ((m.evictLoop fuel).1.poke c x, (m.evictLoop fuel).2) := by
  induction fuel generalizing m with
  | zero => rfl
  | succ fuel ih =>
      rcases hp : m.store.parked with _ | ⟨⟨e, v⟩, rest⟩ <;>
        simp only [evictLoop, poke_store, hp] <;> split_ifs
      · rfl
      · rfl
      · simp only [discard_poke, ih]
      · rfl

/-- The sweep loop reads no client: it commutes with a poke. -/
theorem sweepLoop_poke (now : ℤ) (fuel : ℕ) :
    (m.poke c x).sweepLoop now fuel =
      ((m.sweepLoop now fuel).1.poke c x, (m.sweepLoop now fuel).2) := by
  induction fuel generalizing m with
  | zero => rfl
  | succ fuel ih =>
      simp only [sweepLoop, poke_store, poke_session]
      cases m.store.parked with
      | nil => rfl
      | cons y rest =>
          by_cases hold : m.store.opt.ttl < now - (m.session y.2).parked
          · simp only [hold, if_true, discard_poke, ih]
          · simp only [hold, if_false]

/-- A client that is being bound is not written to by its pump. -/
theorem openFresh_poke (hx : d = c → x ≠ .write) (owner : String) (newID : Option String)
    (reason : Option Reason) (victim : Option SessionRef) :
    (m.poke d x).openFresh c owner newID reason victim =
      ((m.openFresh c owner newID reason victim).1.poke d x,
        (m.openFresh c owner newID reason victim).2) := by
  cases newID with
  | none => rfl
  | some id =>
      simp only [openFresh_some, Prod.mk.injEq, poke_sessionCount, and_true]
      apply Mem.ext
      · rfl
      · rfl
      · funext b
        simp only [fresh_client, poke_client, poke_sessionCount]
        by_cases hb : b = c
        · subst hb
          by_cases hd : b = d
          · subst hd
            have hwrite := hx rfl
            simp only [if_true]
            cases x <;> first | rfl | exact absurd rfl hwrite
          · simp [hd]
        · simp [hb]
      all_goals rfl

end poke

end Mem
end GoSocket
