/-
# Runs of the session store

`Op` is one call into the session layer, by whichever goroutine: `Open`, `Leave`,
`Sweep`, `deliver`, `Ack`, `ClaimKey`, a send through a client, one write of a
`WritePump`, and the two ways to close a transport.  Each holds its locks from
the first read to the last write, so a run of the store is a list of `Op`s, in
whatever order the goroutines were scheduled.

The one assumption is that a fresh session id is not in use: `newSessionID`
draws sixteen random bytes.

`step_touched` says what one call can do to one session; an invariant that is
about single sessions is checked against its cases.
-/

import GoSocket.Session.StoreCases
import GoSocket.Lib.Steps

namespace GoSocket

open Lib

/-- A call into the session layer. -/
inductive Op where
  | openSession (c : ClientRef) (req : ResumeRequest) (now : ℤ) (newID : Option String)
  | leave (p : SessionRef) (c : ClientRef) (resumable : Bool) (now : ℤ)
  | sweep (now : ℤ)
  | deliver (p : SessionRef) (data : Bytes) (pol : SendPolicy)
  | trySend (c : ClientRef) (data : Bytes) (pol : SendPolicy)
  | ack (p : SessionRef) (seq : ℕ)
  | claimKey (p : SessionRef) (key : String)
  | write (c : ClientRef)
  | closeRaw (c : ClientRef)
  | shutdown (c : ClientRef)
  deriving DecidableEq

/-- What a call sends is of this kind. -/
def Op.Sends (P : Bytes → Prop) : Op → Prop
  | .deliver _ data _ | .trySend _ data _ => P data
  | _ => True

namespace Mem

/-- One call.  It is `none` where the call cannot be made: on a session that was
never allocated, with a session id that is taken, or a write with nothing to
write. -/
def step (m : Mem) : Op → Option Mem
  | .openSession c req now newID =>
      if ∀ id ∈ newID, m.store.sessions id = none then some (m.open c req now newID).1 else none
  | .leave p c resumable now =>
      if p < m.sessionCount then some (m.leave p c resumable now).1 else none
  | .sweep now => some (m.sweep now).1
  | .deliver p data pol => if p < m.sessionCount then some (m.deliver p data pol).1 else none
  | .trySend c data pol => some (m.trySendPolicy c data pol).1
  | .ack p seq => if p < m.sessionCount then some (m.ack p seq) else none
  | .claimKey p key => if p < m.sessionCount then some (m.claimKey p key).1 else none
  | .write c => (m.client c).writeNext.map (m.setClient c)
  | .closeRaw c => some (m.setClient c (m.client c).closeRaw)
  | .shutdown c => some (m.setClient c (m.client c).shutdown)

/-- The step relation of the store. -/
def Step (m : Mem) (op : Op) (m' : Mem) : Prop := m.step op = some m'

/-- The cases of `step`. -/
inductive Took (m : Mem) : Op → Mem → Prop where
  | openSession (c : ClientRef) (req : ResumeRequest) (now : ℤ) (newID : Option String) :
      (∀ id ∈ newID, m.store.sessions id = none) →
      Took m (.openSession c req now newID) (m.open c req now newID).1
  | leave (p : SessionRef) (c : ClientRef) (resumable : Bool) (now : ℤ) : p < m.sessionCount →
      Took m (.leave p c resumable now) (m.leave p c resumable now).1
  | sweep (now : ℤ) : Took m (.sweep now) (m.sweep now).1
  | deliver (p : SessionRef) (data : Bytes) (pol : SendPolicy) : p < m.sessionCount →
      Took m (.deliver p data pol) (m.deliver p data pol).1
  | trySend (c : ClientRef) (data : Bytes) (pol : SendPolicy) :
      Took m (.trySend c data pol) (m.trySendPolicy c data pol).1
  | ack (p : SessionRef) (seq : ℕ) : p < m.sessionCount → Took m (.ack p seq) (m.ack p seq)
  | claimKey (p : SessionRef) (key : String) : p < m.sessionCount →
      Took m (.claimKey p key) (m.claimKey p key).1
  | write (c : ClientRef) (cl : Client) : (m.client c).writeNext = some cl →
      Took m (.write c) (m.setClient c cl)
  | closeRaw (c : ClientRef) : Took m (.closeRaw c) (m.setClient c (m.client c).closeRaw)
  | shutdown (c : ClientRef) : Took m (.shutdown c) (m.setClient c (m.client c).shutdown)

/-- **Everything a call can be.** -/
theorem Step.took {m : Mem} {op : Op} {m' : Mem} (hstep : m.Step op m') : Took m op m' := by
  have hguard : ∀ {P : Prop} [Decidable P] {r : Mem}, (if P then some r else none) = some m' →
      P ∧ r = m' := by
    intro P _ r h
    obtain ⟨hP, h⟩ := Option.ite_none_right_eq_some.1 h
    exact ⟨hP, Option.some.inj h⟩
  cases op with
  | openSession c req now newID =>
      obtain ⟨hid, rfl⟩ := hguard hstep
      exact .openSession c req now newID hid
  | leave p c resumable now =>
      obtain ⟨hp, rfl⟩ := hguard hstep
      exact .leave p c resumable now hp
  | sweep now =>
      obtain rfl := Option.some.inj hstep
      exact .sweep now
  | deliver p data pol =>
      obtain ⟨hp, rfl⟩ := hguard hstep
      exact .deliver p data pol hp
  | trySend c data pol =>
      obtain rfl := Option.some.inj hstep
      exact .trySend c data pol
  | ack p seq =>
      obtain ⟨hp, rfl⟩ := hguard hstep
      exact .ack p seq hp
  | claimKey p key =>
      obtain ⟨hp, rfl⟩ := hguard hstep
      exact .claimKey p key hp
  | write c =>
      obtain ⟨cl, hcl, rfl⟩ := Option.map_eq_some_iff.1 hstep
      exact .write c cl hcl
  | closeRaw c =>
      obtain rfl := Option.some.inj hstep
      exact .closeRaw c
  | shutdown c =>
      obtain rfl := Option.some.inj hstep
      exact .shutdown c

/-- The store after an `open` step. -/
theorem Step.open_eq {m m' : Mem} {c : ClientRef} {req : ResumeRequest} {now : ℤ}
    {newID : Option String} (hstep : m.Step (.openSession c req now newID) m') :
    m' = (m.open c req now newID).1 := by
  cases hstep.took
  rfl

/-- The store after a `leave` step. -/
theorem Step.leave_eq {m m' : Mem} {p : SessionRef} {c : ClientRef} {resumable : Bool} {now : ℤ}
    (hstep : m.Step (.leave p c resumable now) m') : m' = (m.leave p c resumable now).1 := by
  cases hstep.took
  rfl

/-- The store after a key claim. -/
theorem Step.claimKey_eq {m m' : Mem} {p : SessionRef} {key : String}
    (hstep : m.Step (.claimKey p key) m') : m' = (m.claimKey p key).1 := by
  cases hstep.took
  rfl

/-- The invariant of the store between two calls. -/
structure StoreInv (m : Mem) : Prop where
  linked : m.Linked
  bounded : m.store.parked.length ≤ m.store.opt.maxParked

/-- The empty store is in order. -/
theorem storeInv_newSessionStore (opt : SessionOptions) (digest : String → String)
    (sendBuffer : ClientRef → ℤ) : (newSessionStore opt digest sendBuffer).StoreInv where
  linked := by
    refine ⟨fun p => ?_, List.nodup_nil⟩
    constructor
    case limits => exact ⟨rfl, rfl, rfl⟩
    all_goals simp [newSessionStore, noSession, newSession]
  bounded := Nat.zero_le _

/-- Taking the first sessions off the list keeps it within its bound. -/
theorem Popped.storeInv {m : Mem} {k : ℕ} {r : Mem × List SessionRef} (h : Popped m k r)
    (hk : m.store.parked.length - k ≤ m.store.opt.maxParked) : r.1.StoreInv where
  linked := h.linked
  bounded := by
    rw [h.parked, List.length_drop, h.mem, discardAll_opt]
    exact hk

/-- Nobody is added to the id map by a refusal. -/
theorem Refused.sessions_eq_none {m : Mem} {req : ResumeRequest} {now : ℤ} {m₁ : Mem}
    {reason : Option Reason} {victim : Option SessionRef}
    (hr : Refused m req now m₁ reason victim) {id : String} (hid : m.store.sessions id = none) :
    m₁.store.sessions id = none := by
  cases hr with
  | kept => exact hid
  | killed => simp [hid]

namespace StoreInv

variable {m : Mem}

/-- Refusing a resume, with or without discarding the session named, keeps the store in order. -/
theorem refused (h : m.StoreInv) {req : ResumeRequest} {now : ℤ} {m₁ : Mem}
    {reason : Option Reason} {victim : Option SessionRef}
    (hr : Refused m req now m₁ reason victim) : m₁.StoreInv := by
  cases hr with
  | kept => exact h
  | killed hinv hreq hs hv =>
      refine ⟨h.linked.discard (Session.verdict_kill (by rw [hv])).1, ?_⟩
      rw [discard_parked, discard_opt]
      exact (unpark_sublist _ _).length_le.trans h.bounded

/-- An `open` keeps the store in order, given an id that no session has. -/
theorem opened (h : m.StoreInv) (c : ClientRef) (req : ResumeRequest) (now : ℤ)
    {newID : Option String} (hid : ∀ id ∈ newID, m.store.sessions id = none) :
    (m.open c req now newID).1.StoreInv := by
  obtain ⟨m', res, due, hopen, ho⟩ := m.exists_opened c req now newID
  rw [hopen]
  cases ho with
  | resumed hinv hreq hs hv =>
      refine ⟨h.linked.attachLocked (Session.verdict_eq_none.1 hv).1 c _, ?_⟩
      rw [attachLocked_parked, attachLocked_opt]
      exact (unpark_sublist _ _).length_le.trans h.bounded
  | unbound _ hr => exact h.refused hr
  | fresh hnew hr =>
      have h₁ := h.refused hr
      exact ⟨h₁.linked.fresh c _ (hr.sessions_eq_none (hid _ (by rw [hnew]; rfl))) _, h₁.bounded⟩

/-- A `leave` keeps the store in order: it parks the session, discards it or does nothing, and
then evicts. -/
theorem left (h : m.StoreInv) (p : SessionRef) (c : ClientRef) (resumable : Bool) (now : ℤ) :
    (m.leave p c resumable now).1.StoreInv := by
  obtain ⟨m', res, due, hleave, hl⟩ := h.linked.exists_left p c resumable now
  rw [hleave]
  cases hl with
  | gone => exact h
  | displaced => exact h
  | ended hopen hlive _ =>
      refine ⟨(h.linked.discard hopen).setSession (by simp) (by simp) (by simp)
        (fun hs => absurd rfl hs) (by rw [discard_opt]; exact (h.linked.session p).limits), ?_⟩
      rw [setSession_store, discard_parked, discard_opt]
      exact (unpark_sublist _ _).length_le.trans h.bounded
  | parked _ _ _ hpop =>
      have := h.bounded
      refine hpop.storeInv ?_
      rw [park_parked, park_opt, List.length_append, List.length_singleton]
      omega

/-- A sweep keeps the store in order. -/
theorem swept (h : m.StoreInv) (now : ℤ) : (m.sweep now).1.StoreInv := by
  obtain ⟨r, hpop, heq⟩ := sweep_popped h.linked now
  rw [heq]
  exact hpop.storeInv ((Nat.sub_le _ _).trans h.bounded)

/-- **Every call keeps the invariant.** -/
theorem step (h : m.StoreInv) {op : Op} {m' : Mem} (hstep : m.Step op m') : m'.StoreInv := by
  cases hstep.took with
  | openSession c req now newID hid =>
      exact h.opened c req now hid
  | leave p c resumable now _ =>
      exact h.left p c resumable now
  | sweep now =>
      exact h.swept now
  | deliver p data pol _ =>
      exact ⟨h.linked.deliver p data pol, by simpa using h.bounded⟩
  | trySend c data pol =>
      exact ⟨h.linked.trySendPolicy c data pol, by simpa using h.bounded⟩
  | ack p seq _ =>
      exact ⟨h.linked.ack p seq, h.bounded⟩
  | claimKey p key _ =>
      exact ⟨h.linked.claimKey p key, h.bounded⟩
  | write c cl _ =>
      exact ⟨h.linked.setClient c cl, h.bounded⟩
  | closeRaw c =>
      exact ⟨h.linked.setClient c _, h.bounded⟩
  | shutdown c =>
      exact ⟨h.linked.setClient c _, h.bounded⟩

/-- The invariant holds in every state the store can reach. -/
theorem of_reachable {opt : SessionOptions} {digest : String → String}
    {sendBuffer : ClientRef → ℤ}
    (h : Reachable Step (newSessionStore opt digest sendBuffer) m) : m.StoreInv :=
  h.invariant (storeInv_newSessionStore opt digest sendBuffer) fun _ _ _ hm hstep => hm.step hstep

end StoreInv

/-- What the call `op` can do to the session at `q`. -/
inductive Touched (m : Mem) (op : Op) (q : SessionRef) : Session → Prop where
  | same : Touched m op q (m.session q)
  | allocated {c : ClientRef} {req : ResumeRequest} {now : ℤ} {id : String} :
      op = .openSession c req now (some id) → q = m.sessionCount →
      Touched m op q (newSession m.store.opt id req.owner c)
  | attached {c : ClientRef} {req : ResumeRequest} {now : ℤ} {newID : Option String} :
      op = .openSession c req now newID → req.requested = true → req.invalid = false →
      m.store.sessions req.sessionID = some q →
      ((m.session q).verdict req now m.store.opt.ttl).1 = none →
      Touched m op q ((m.session q).attach c req.lastSeq)
  | parked {c : ClientRef} {now : ℤ} : op = .leave q c true now →
      (m.session q).state = .attached → (m.session q).live = some c →
      Touched m op q
        { m.session q with
          live := none, stalled := false, state := .parked, parked := now,
          elem := some m.elemCount }
  | expired {now : ℤ} : op = .sweep now → (m.session q).state = .parked →
      Touched m op q { m.session q with state := .closed, elem := none }
  | evicted {p : SessionRef} {c : ClientRef} {resumable : Bool} {now : ℤ} :
      op = .leave p c resumable now → p ≠ q → (m.session q).state = .parked →
      Touched m op q { m.session q with state := .closed, elem := none }
  | refused {c : ClientRef} {req : ResumeRequest} {now : ℤ} {newID : Option String} :
      op = .openSession c req now newID → req.requested = true → req.invalid = false →
      m.store.sessions req.sessionID = some q →
      ((m.session q).verdict req now m.store.opt.ttl).2 = true →
      Touched m op q { m.session q with state := .closed, elem := none }
  | ended {c : ClientRef} {now : ℤ} : op = .leave q c false now →
      (m.session q).state ≠ .closed → (m.session q).live = some c →
      Touched m op q { m.session q with state := .closed, elem := none, live := none }
  | delivered {data : Bytes} {pol : SendPolicy} :
      (op = .deliver q data pol ∨
        ∃ c, op = .trySend c data pol ∧ (m.client c).session = some q) →
      Touched m op q ((m.session q).deliver (m.liveClient q) data pol).1
  | acked {seq : ℕ} : op = .ack q seq → Touched m op q ((m.session q).ack seq)
  | claimed {key : String} : op = .claimKey q key →
      Touched m op q ((m.session q).claimKey m.store.opt.digest key).1

/-- A session that a loop pops was on the parked list. -/
theorem Popped.open_of_mem {m : Mem} (h : m.Linked) {k : ℕ} {r : Mem × List SessionRef}
    (hp : Popped m k r) {q : SessionRef} (hq : q ∈ r.2) :
    (m.session q).state = .parked ∧ ∃ e, (m.session q).elem = some e ∧
      (e, q) ∈ m.store.parked.take k := by
  rw [hp.sessions] at hq
  obtain ⟨⟨e, q'⟩, hx, rfl⟩ := List.mem_map.1 hq
  have he := (h.session q').listed.1 (List.mem_of_mem_take hx)
  exact ⟨((h.session q').elem he).1, e, he, hx⟩

/-- Popping discards the popped sessions and touches no others. -/
theorem Popped.session_eq {m : Mem} {k : ℕ} {r : Mem × List SessionRef} (hp : Popped m k r)
    (q : SessionRef) :
    r.1.session q =
      if q ∈ r.2 then { m.session q with state := .closed, elem := none } else m.session q := by
  rw [hp.mem, discardAll_session]

/-- The session that parks is not among the evicted: the limit is positive and it
stands at the back. -/
theorem StoreInv.not_evicted {m : Mem} (h : m.StoreInv) {p : SessionRef} {c : ClientRef} {now : ℤ}
    (hp : (m.session p).state = .attached) {r : Mem × List SessionRef}
    (hpop : Popped (m.park p c now) (m.store.parked.length + 1 - m.store.opt.maxParked) r) :
    p ∉ r.2 := by
  intro hmem
  obtain ⟨-, e, -, he⟩ := hpop.open_of_mem (h.linked.park hp c now) hmem
  have hpos := m.store.opt.maxParked_pos
  rw [park_parked, List.take_append_of_le_length (by omega)] at he
  have := (h.linked.session p).listed.1 (List.mem_of_mem_take he)
  rw [h.linked.elem_eq_none (by rw [hp]; decide)] at this
  cases this

namespace StoreInv

variable {m : Mem}

/-- What an `Open` does to each session: the one named is attached to or discarded, a fresh one
may be made at the next reference, and the others stay as they are. -/
theorem touched_open (c : ClientRef) (req : ResumeRequest) (now : ℤ)
    (newID : Option String) (q : SessionRef) :
    Touched m (.openSession c req now newID) q ((m.open c req now newID).1.session q) := by
  have hrefused : ∀ {m₁ reason victim}, Refused m req now m₁ reason victim →
      Touched m (.openSession c req now newID) q (m₁.session q) := by
    intro m₁ reason victim hr
    cases hr with
    | kept => exact .same
    | killed hinv hreq hs hv =>
        rw [discard_session]
        split_ifs with hqp
        · subst hqp
          exact .refused rfl hreq hinv hs (by rw [hv])
        · exact .same
  obtain ⟨m', res, due, hopen, ho⟩ := m.exists_opened c req now newID
  rw [hopen]
  cases ho with
  | resumed hinv hreq hs hv =>
      rw [attachLocked_session]
      split_ifs with hqp
      · subst hqp
        exact .attached rfl hreq hinv hs hv
      · exact .same
  | unbound _ hr => exact hrefused hr
  | fresh hnew hr =>
      subst hnew
      rw [fresh_session]
      split_ifs with hqn
      · cases hr with
        | kept => exact .allocated rfl hqn
        | killed =>
            rw [discard_opt]
            exact .allocated rfl (hqn.trans (discard_sessionCount ..))
      · exact hrefused hr

/-- What a `Leave` does to each session: the one left is parked or discarded, some at the front
of the list are evicted, and the others stay as they are. -/
theorem touched_leave (h : m.StoreInv) (p : SessionRef) (c : ClientRef) (resumable : Bool)
    (now : ℤ) (q : SessionRef) :
    Touched m (.leave p c resumable now) q ((m.leave p c resumable now).1.session q) := by
  obtain ⟨m', res, due, hleave, hl⟩ := h.linked.exists_left p c resumable now
  rw [hleave]
  cases hl with
  | gone => exact .same
  | displaced => exact .same
  | ended hopen hlive hres =>
      rw [setSession_session]
      split_ifs with hqp
      · subst hqp hres
        exact .ended rfl hopen hlive
      · rw [discard_session, if_neg hqp]
        exact .same
  | parked hatt hlive hres hpop =>
      rw [hpop.session_eq, park_session]
      split_ifs with hmem hqp hqp
      · exact absurd (hqp ▸ hmem) (h.not_evicted hatt hpop)
      · have hpark := (hpop.open_of_mem (h.linked.park hatt c now) hmem).1
        rw [park_session, if_neg hqp] at hpark
        exact .evicted rfl (Ne.symm hqp) hpark
      · subst hqp hres
        exact .parked rfl hatt hlive
      · exact .same

/-- What a sweep does to each session: the expired ones at the front of the list are discarded,
and the others stay as they are. -/
theorem touched_sweep (h : m.StoreInv) (now : ℤ) (q : SessionRef) :
    Touched m (.sweep now) q ((m.sweep now).1.session q) := by
  obtain ⟨r, hpop, heq⟩ := sweep_popped h.linked now
  rw [heq, hpop.session_eq]
  split_ifs with hmem
  · exact .expired rfl (hpop.open_of_mem h.linked hmem).1
  · exact .same

/-- **Everything one call can do to a session.** -/
theorem step_touched (h : m.StoreInv) {op : Op} {m' : Mem} (hstep : m.Step op m')
    (q : SessionRef) : Touched m op q (m'.session q) := by
  cases hstep.took with
  | openSession c req now newID _ =>
      exact touched_open c req now newID q
  | leave p c resumable now _ =>
      exact h.touched_leave p c resumable now q
  | sweep now =>
      exact h.touched_sweep now q
  | deliver p data pol _ =>
      rw [deliver_session]
      split_ifs with hqp
      · subst hqp
        exact .delivered (Or.inl rfl)
      · exact .same
  | trySend c data pol =>
      cases hc : (m.client c).session with
      | none =>
          obtain ⟨send, dropped, ok, heq, -⟩ := trySendPolicy_unbound hc data pol
          rw [heq]
          exact .same
      | some p =>
          rw [trySendPolicy_bound hc, deliver_session]
          split_ifs with hqp
          · subst hqp
            exact .delivered (Or.inr ⟨c, rfl, hc⟩)
          · exact .same
  | ack p seq _ =>
      rw [Mem.ack, setSession_session]
      split_ifs with hqp
      · subst hqp
        exact .acked rfl
      · exact .same
  | claimKey p key _ =>
      rw [Mem.claimKey, setSession_session]
      split_ifs with hqp
      · subst hqp
        exact .claimed rfl
      · exact .same
  | write c cl _ =>
      exact .same
  | closeRaw c =>
      exact .same
  | shutdown c =>
      exact .same

end StoreInv

/-- A call allocates no session, or it is an `Open` that allocates one and attaches it. -/
theorem Step.sessionCount {m : Mem} (h : m.StoreInv) {op : Op} {m' : Mem}
    (hstep : m.Step op m') :
    m'.sessionCount = m.sessionCount ∨
      m'.sessionCount = m.sessionCount + 1 ∧ (m'.session m.sessionCount).state = .attached := by
  cases hstep.took with
  | openSession c req now newID _ =>
      obtain ⟨m', res, due, hopen, ho⟩ := m.exists_opened c req now newID
      rw [hopen]
      cases ho with
      | resumed => exact Or.inl (attachLocked_sessionCount ..)
      | unbound _ hr => exact Or.inl hr.client_eq.2.1
      | fresh _ hr =>
          refine Or.inr ⟨congrArg Nat.succ hr.client_eq.2.1, ?_⟩
          rw [fresh_session, if_pos hr.client_eq.2.1.symm]
          rfl
  | leave p c resumable now _ =>
      obtain ⟨m', res, due, hleave, hl⟩ := h.linked.exists_left p c resumable now
      rw [hleave]
      left
      cases hl with
      | gone => rfl
      | displaced => rfl
      | ended => rw [setSession_sessionCount, discard_sessionCount]
      | parked _ _ _ hpop => rw [hpop.mem, discardAll_sessionCount, park_sessionCount]
  | sweep now =>
      obtain ⟨r, hpop, heq⟩ := sweep_popped h.linked now
      exact Or.inl (by rw [heq, hpop.mem, discardAll_sessionCount])
  | deliver p data pol _ =>
      exact Or.inl (deliver_sessionCount ..)
  | trySend c data pol =>
      exact Or.inl (trySendPolicy_sessionCount ..)
  | ack p seq _ =>
      exact Or.inl rfl
  | claimKey p key _ =>
      exact Or.inl rfl
  | write c cl _ =>
      exact Or.inl rfl
  | closeRaw c =>
      exact Or.inl rfl
  | shutdown c =>
      exact Or.inl rfl

/-- No call frees a session. -/
theorem Step.sessionCount_le {m : Mem} (h : m.StoreInv) {op : Op} {m' : Mem}
    (hstep : m.Step op m') : m.sessionCount ≤ m'.sessionCount := by
  rcases hstep.sessionCount h with heq | ⟨heq, -⟩ <;> omega

/-- A closed session stays closed. -/
theorem Touched.closed {m : Mem} {op : Op} {q : SessionRef} {s : Session} (h : Touched m op q s)
    (hq : q < m.sessionCount) (hclosed : (m.session q).state = .closed) : s.state = .closed := by
  cases h with
  | same => exact hclosed
  | allocated _ hqn => exact absurd hqn hq.ne
  | attached _ _ _ _ hv => exact absurd hclosed (Session.verdict_eq_none.1 hv).1
  | parked _ hatt =>
      rw [hatt] at hclosed
      cases hclosed
  | expired => rfl
  | evicted => rfl
  | refused => rfl
  | ended => rfl
  | @delivered data pol _ =>
      obtain ⟨_, _, _, _, _, hd⟩ := (m.session q).deliver_frame (m.liveClient q) data pol
      rw [hd]
      exact hclosed
  | acked =>
      unfold Session.ack
      split_ifs <;> exact hclosed
  | claimed => exact hclosed

/-- The same along a whole run. -/
theorem StoreInv.closed_forever {m m' : Mem} (h : m.StoreInv) {ops : List Op}
    (hrun : Steps Step m ops m') {q : SessionRef} (hq : q < m.sessionCount)
    (hclosed : (m.session q).state = .closed) : (m'.session q).state = .closed := by
  refine (hrun.invariantWhile (P := fun m => q < m.sessionCount ∧ (m.session q).state = .closed)
    (fun _ _ _ hm hstep => hm.step hstep) (fun m op m' hm hq hstep => ?_) h ⟨hq, hclosed⟩).2
  exact ⟨hq.1.trans_le (hstep.sessionCount_le hm), (hm.step_touched hstep q).closed hq.1 hq.2⟩

/-- No call changes the options. -/
theorem Step.opt {m : Mem} (h : m.StoreInv) {op : Op} {m' : Mem} (hstep : m.Step op m') :
    m'.store.opt = m.store.opt := by
  cases hstep.took with
  | openSession c req now newID _ =>
      obtain ⟨m', res, due, hopen, ho⟩ := m.exists_opened c req now newID
      rw [hopen]
      cases ho with
      | resumed => exact attachLocked_opt ..
      | unbound _ hr => exact hr.client_eq.2.2
      | fresh _ hr => exact hr.client_eq.2.2
  | leave p c resumable now _ =>
      obtain ⟨m', res, due, hleave, hl⟩ := h.linked.exists_left p c resumable now
      rw [hleave]
      cases hl with
      | gone => rfl
      | displaced => rfl
      | ended => rw [setSession_store, discard_opt]
      | parked _ _ _ hpop => rw [hpop.mem, discardAll_opt, park_opt]
  | sweep now =>
      obtain ⟨r, hpop, heq⟩ := sweep_popped h.linked now
      rw [heq, hpop.mem, discardAll_opt]
  | deliver p data pol _ => rw [deliver_store]
  | trySend c data pol => rw [trySendPolicy_store]
  | _ => rfl

/-- What a call does to the key window of a session. -/
theorem Touched.keys {m : Mem} {op : Op} {q : SessionRef} {s : Session} (h : Touched m op q s) :
    s.keys = (m.session q).keys ∨
      (q = m.sessionCount ∧ s.keys = .new m.store.opt.keyWindow) ∨
      ∃ key, op = .claimKey q key ∧ s = ((m.session q).claimKey m.store.opt.digest key).1 := by
  cases h with
  | same => exact Or.inl rfl
  | allocated _ hq => exact Or.inr (Or.inl ⟨hq, rfl⟩)
  | attached => exact Or.inl rfl
  | parked => exact Or.inl rfl
  | expired => exact Or.inl rfl
  | evicted => exact Or.inl rfl
  | refused => exact Or.inl rfl
  | ended => exact Or.inl rfl
  | @delivered data pol _ =>
      obtain ⟨_, _, _, _, _, hd⟩ := (m.session q).deliver_frame (m.liveClient q) data pol
      rw [hd]
      exact Or.inl rfl
  | @acked seq _ =>
      unfold Session.ack
      split_ifs <;> exact Or.inl rfl
  | claimed hop => exact Or.inr (Or.inr ⟨_, hop, rfl⟩)

end Mem
end GoSocket
