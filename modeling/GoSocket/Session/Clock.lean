/-
# The clock and the parked list

`Open`, `Leave` and `Sweep` of `internal/session.go` read the clock before they
take the store lock.  `Clocked` is the store with a clock that never goes back
and the calls that have read it and wait for the lock; in which order they get it
is open.

`Sweep` takes sessions off the front of the parked list and stops at the first
that is young enough.  It finds every session that is too old, whatever time it
read, exactly when the list is in the order of the park times
(`StoreInv.ordered_iff_sweepExact`).  The list need not be: of two `Leave`s, the
one with the later reading may be the first to get the lock, and a session that
`Open` would refuse as expired then survives the sweep (`overdue_survives`).

Every other call only takes sessions off the list, so the order is kept for as
long as each `Leave` that parks finds no session with a later park time, of those
that stay, and no longer (`inTurn_iff_sweepExact`).  A lock that serves the calls
in the order of their readings would be enough (`sweepExact_of_firstIn`).
-/

import GoSocket.Lib.Ordered
import GoSocket.Session.Runs

namespace GoSocket

open Lib

namespace Mem

/-- The parked list is in the order of the park times, oldest at the front. -/
def Ordered (m : Mem) : Prop :=
  m.store.parked.Pairwise fun x y => (m.session x.2).parked ≤ (m.session y.2).parked

/-- The session at `p` is in the parked list and too old at time `t`. -/
def Overdue (m : Mem) (t : ℤ) (p : SessionRef) : Prop :=
  (∃ e, (e, p) ∈ m.store.parked) ∧ m.store.opt.ttl < t - (m.session p).parked

/-- A sweep that read `t` removes the overdue sessions and no others, and they are the ones that
an `Open` by the owner at `t` would refuse as expired. -/
structure SweepExact (m : Mem) (t : ℤ) : Prop where
  released : ∀ p, (p, .expired) ∈ (m.sweep t).2 ↔ m.Overdue t p
  parked : (m.sweep t).1.store.parked =
    m.store.parked.filter fun x => !decide (m.store.opt.ttl < t - (m.session x.2).parked)
  stored : ∀ id p, (m.sweep t).1.store.sessions id = some p ↔
    m.store.sessions id = some p ∧ ¬m.Overdue t p
  refused : ∀ id p, m.store.sessions id = some p → ∀ c lastSeq newID,
    (m.open c ⟨true, false, id, lastSeq, (m.session p).owner⟩ t newID).2.1.reason =
      some .expired ↔ m.Overdue t p

/-- The `Leave`s that park in turn: no session that stays on the list has a later park time. -/
def InTurn (m : Mem) : Op → Prop
  | .leave p c true now => (m.session p).state = .attached → (m.session p).live = some c →
      ∀ x ∈ m.store.parked.drop (m.store.parked.length + 1 - m.store.opt.maxParked),
        (m.session x.2).parked ≤ now
  | _ => True

/-- A parked session keeps its park time. -/
theorem Touched.parkTime {m : Mem} {op : Op} {q : SessionRef} {s : Session}
    (h : Touched m op q s) (hq : q < m.sessionCount) (hs : (m.session q).state = .parked) :
    s.parked = (m.session q).parked := by
  cases h with
  | allocated _ hqn => exact absurd hqn hq.ne
  | parked _ hatt =>
      rw [hs] at hatt
      cases hatt
  | @delivered data pol _ =>
      obtain ⟨_, _, _, _, _, hd⟩ := (m.session q).deliver_frame (m.liveClient q) data pol
      rw [hd]
  | acked =>
      unfold Session.ack
      split_ifs <;> rfl
  | _ => rfl

/-- A call keeps the park times of the sessions listed before it. -/
theorem StoreInv.parkTime_eq {m m' : Mem} (h : m.StoreInv) {op : Op} (hstep : m.Step op m')
    {x : ElemRef × SessionRef} (hx : x ∈ m.store.parked) :
    (m'.session x.2).parked = (m.session x.2).parked := by
  have hlinked := h.linked.session x.2
  have hparked := (hlinked.elem (hlinked.listed.1 hx)).1
  exact (h.step_touched hstep x.2).parkTime (hlinked.allocated (by rw [hparked]; decide)) hparked

/-- What a call does to the parked list: it takes sessions off it, or it is a `Leave` that puts one
at the back and evicts those in excess. -/
inductive Relisted (m : Mem) (op : Op) (m' : Mem) : Prop where
  | shrunk : m'.store.parked.Sublist m.store.parked → m.InTurn op → Relisted m op m'
  | parked {p : SessionRef} {c : ClientRef} {now : ℤ} : op = .leave p c true now →
      (m.session p).state = .attached → (m.session p).live = some c →
      m'.store.parked = m.store.parked.drop (m.store.parked.length + 1 - m.store.opt.maxParked) ++
        [(m.elemCount, p)] → (m'.session p).parked = now → Relisted m op m'

/-- The reason in the answer to a request for a stored session is the one of `verdict`. -/
theorem open_reason {m : Mem} {c : ClientRef} {req : ResumeRequest} {now : ℤ}
    {newID : Option String} {p : SessionRef} (hinv : req.invalid = false)
    (hreq : req.requested = true) (hid : m.store.sessions req.sessionID = some p) :
    (m.open c req now newID).2.1.reason = ((m.session p).verdict req now m.store.opt.ttl).1 := by
  have hfresh : ∀ (m₁ : Mem) reason victim,
      (m₁.openFresh c req.owner newID reason victim).2.1.reason = reason := by
    intro m₁ reason victim
    cases newID <;> rfl
  unfold Mem.open
  rw [if_neg (by simp [hinv]), if_pos hreq, hid]
  dsimp only
  rcases hv : (m.session p).verdict req now m.store.opt.ttl with ⟨_ | reason, _ | _⟩
  · rfl
  · rfl
  · exact hfresh ..
  · exact hfresh ..

namespace StoreInv

variable {m m' : Mem} {op : Op}

/-- An `Open` only takes sessions off the parked list. -/
theorem relisted_open (m : Mem) (c : ClientRef) (req : ResumeRequest) (now : ℤ)
    (newID : Option String) :
    Relisted m (.openSession c req now newID) (m.open c req now newID).1 := by
  have hrefused : ∀ {m₁ reason victim}, Refused m req now m₁ reason victim →
      m₁.store.parked.Sublist m.store.parked := by
    intro m₁ reason victim hr
    cases hr with
    | kept => exact List.Sublist.refl _
    | killed =>
        rw [discard_parked]
        exact unpark_sublist _ _
  obtain ⟨m', res, due, hopen, ho⟩ := m.exists_opened c req now newID
  rw [hopen]
  refine .shrunk ?_ trivial
  cases ho with
  | resumed =>
      rw [attachLocked_parked]
      exact unpark_sublist _ _
  | unbound _ hr => exact hrefused hr
  | fresh _ hr =>
      have hsub := hrefused hr
      exact hsub

/-- A `Leave` parks the session at the back of what the evictions leave, or parks nothing. -/
theorem relisted_leave (h : m.StoreInv) (p : SessionRef) (c : ClientRef) (resumable : Bool)
    (now : ℤ) : Relisted m (.leave p c resumable now) (m.leave p c resumable now).1 := by
  obtain ⟨m', res, due, hleave, hl⟩ := h.linked.exists_left p c resumable now
  rw [hleave]
  cases hl with
  | gone hclosed =>
      refine .shrunk (List.Sublist.refl _) ?_
      cases resumable with
      | false => trivial
      | true =>
          intro hatt
          rw [hatt] at hclosed
          cases hclosed
  | displaced _ hlive =>
      refine .shrunk (List.Sublist.refl _) ?_
      cases resumable with
      | false => trivial
      | true => exact fun _ hlive' => absurd hlive' hlive
  | ended _ _ hres =>
      subst hres
      refine .shrunk ?_ trivial
      rw [setSession_store, discard_parked]
      exact unpark_sublist _ _
  | parked hatt hlive hres hpop =>
      subst hres
      have hpos := m.store.opt.maxParked_pos
      refine .parked rfl hatt hlive ?_ ?_
      · rw [hpop.parked, park_parked, List.drop_append_of_le_length (by omega)]
      · rw [hpop.session_eq, if_neg (h.not_evicted hatt hpop), park_session, if_pos rfl]

/-- **Everything a call can do to the parked list.** -/
theorem step_relisted (h : m.StoreInv) (hstep : m.Step op m') : Relisted m op m' := by
  have hsame : ∀ {op : Op} {m' : Mem}, m.InTurn op → m'.store = m.store → Relisted m op m' := by
    intro op m' hturn hstore
    exact .shrunk (hstore ▸ List.Sublist.refl _) hturn
  cases hstep.took with
  | openSession c req now newID _ => exact relisted_open m c req now newID
  | leave p c resumable now _ => exact h.relisted_leave p c resumable now
  | sweep now =>
      obtain ⟨r, hpop, heq⟩ := sweep_popped h.linked now
      refine .shrunk ?_ trivial
      rw [heq, hpop.parked]
      exact List.drop_sublist _ _
  | deliver p data pol _ => exact hsame trivial (deliver_store ..)
  | trySend c data pol => exact hsame trivial (trySendPolicy_store ..)
  | _ => exact hsame trivial rfl

/-- **One call keeps the order exactly when it is in turn.** -/
theorem ordered_iff (h : m.StoreInv) (hm : m.Ordered) (hstep : m.Step op m') :
    m'.Ordered ↔ m.InTurn op := by
  -- the order of sessions that were on the list is the order they had
  have hsub : ∀ {l : List (ElemRef × SessionRef)}, l.Sublist m.store.parked →
      l.Pairwise fun x y => (m'.session x.2).parked ≤ (m'.session y.2).parked := by
    intro l hl
    refine (hm.sublist hl).imp_of_mem fun {x y} hx hy hxy => ?_
    rwa [h.parkTime_eq hstep (hl.subset hx), h.parkTime_eq hstep (hl.subset hy)]
  cases h.step_relisted hstep with
  | shrunk hl hturn => exact iff_of_true (hsub hl) hturn
  | @parked p c now hop hatt hlive hlist hnow =>
      subst hop
      have hkept := List.drop_sublist (m.store.parked.length + 1 - m.store.opt.maxParked)
        m.store.parked
      rw [Ordered, hlist, List.pairwise_append]
      constructor
      · rintro ⟨-, -, hle⟩ - - x hx
        have := hle x hx _ (List.mem_singleton_self _)
        rwa [hnow, h.parkTime_eq hstep (hkept.subset hx)] at this
      · intro hturn
        refine ⟨hsub hkept, List.pairwise_singleton .., fun x hx y hy => ?_⟩
        rw [List.mem_singleton.1 hy, hnow, h.parkTime_eq hstep (hkept.subset hx)]
        exact hturn hatt hlive x hx

/-- The session is overdue exactly when its owner is told so. -/
theorem refused_iff (h : m.StoreInv) {id : String} {p : SessionRef}
    (hid : m.store.sessions id = some p) (t : ℤ) (c : ClientRef) (lastSeq : ℕ)
    (newID : Option String) :
    (m.open c ⟨true, false, id, lastSeq, (m.session p).owner⟩ t newID).2.1.reason =
      some .expired ↔ m.Overdue t p := by
  have hopen := ((h.linked.session p).stored.1 hid).2
  have hlisted : (m.session p).state = .parked ↔ ∃ e, (e, p) ∈ m.store.parked := by
    simp only [(h.linked.session p).listed]
    exact ⟨fun hs => ((h.linked.session p).parked hs).2,
      fun ⟨e, he⟩ => ((h.linked.session p).elem he).1⟩
  rw [open_reason rfl rfl hid, Overdue, ← hlisted, Session.verdict, if_neg hopen,
    if_neg (not_not.2 rfl)]
  split_ifs with hold
  · exact iff_of_true rfl hold
  all_goals exact iff_of_false (by simp) hold

/-- The loop of a sweep that read `t` finds all the sessions that are overdue. -/
theorem ordered_iff_expiredPrefix (m : Mem) :
    m.Ordered ↔ ∀ t, m.expiredPrefix t =
      m.store.parked.filter fun x => decide (m.store.opt.ttl < t - (m.session x.2).parked) := by
  have hbound : ∀ t s : ℤ, m.store.opt.ttl < t - s ↔ s < t - m.store.opt.ttl := by
    intro t s
    omega
  unfold Ordered expiredPrefix
  rw [pairwise_le_iff_takeWhile fun x : ElemRef × SessionRef => (m.session x.2).parked]
  simp only [hbound]
  refine ⟨fun h t => h (t - m.store.opt.ttl), fun h t => ?_⟩
  have hshift := h (t + m.store.opt.ttl)
  rwa [Int.add_sub_cancel] at hshift

/-- A sweep pops what its loop finds. -/
theorem sweep_expiredPrefix (h : m.StoreInv) (t : ℤ) :
    ∃ r, Popped m (m.expiredPrefix t).length r ∧
      m.sweep t = (r.1, r.2.map fun v => (v, .expired)) ∧
      r.2 = (m.expiredPrefix t).map Prod.snd ∧
      r.1.store.parked = m.store.parked.dropWhile
        fun x => decide (m.store.opt.ttl < t - (m.session x.2).parked) := by
  obtain ⟨r, hpop, heq⟩ := sweep_popped h.linked t
  refine ⟨r, hpop, heq, ?_, ?_⟩
  · rw [hpop.sessions, expiredPrefix, ← List.prefix_iff_eq_take.1 (List.takeWhile_prefix _)]
  · rw [hpop.parked, expiredPrefix]
    exact drop_length_takeWhile _ _

/-- A sweep is exact when the expired sessions at the front of the list are all the expired ones. -/
theorem sweepExact_iff (h : m.StoreInv) (t : ℤ) :
    m.SweepExact t ↔ m.expiredPrefix t =
      m.store.parked.filter fun x => decide (m.store.opt.ttl < t - (m.session x.2).parked) := by
  obtain ⟨r, hpop, heq, hsessions, hparked⟩ := h.sweep_expiredPrefix t
  constructor
  · intro hexact
    have hleft := hexact.parked
    rw [heq, hparked] at hleft
    exact takeWhile_eq_filter_iff.2 hleft
  · intro hprefix
    have hmem : ∀ p, p ∈ r.2 ↔ m.Overdue t p := by
      intro p
      rw [hsessions, hprefix, List.mem_map]
      simp [Overdue]
    refine ⟨fun p => ?_, ?_, fun id p => ?_, fun id p hid => h.refused_iff hid t⟩
    · rw [heq, ← hmem]
      simp
    · rw [heq, hparked]
      exact takeWhile_eq_filter_iff.1 hprefix
    · have hstored : (m.sweep t).1.store.sessions id = some p ↔ _ :=
        ((h.swept t).linked.session p).stored
      rw [heq] at hstored ⊢
      rw [hstored, hpop.session_eq, (h.linked.session p).stored, ← hmem]
      split_ifs with hp <;> simp [hp]

/-- **The list is in order exactly when every sweep is exact.** -/
theorem ordered_iff_sweepExact (h : m.StoreInv) : m.Ordered ↔ ∀ t, m.SweepExact t := by
  simp only [ordered_iff_expiredPrefix, h.sweepExact_iff]

end StoreInv

end Mem

/-- A call that reads the clock. -/
inductive TimedCall where
  | openSession (c : ClientRef) (req : ResumeRequest)
  | leave (p : SessionRef) (c : ClientRef) (resumable : Bool)
  | sweep
  deriving DecidableEq

/-- What the call does once it has the lock; `now` is what it read, and `newID` the id that an
`Open` draws. -/
def TimedCall.op (now : ℤ) (newID : Option String) : TimedCall → Op
  | .openSession c req => .openSession c req now newID
  | .leave p c resumable => .leave p c resumable now
  | .sweep => .sweep now

/-- A `Leave` parks at its own reading. -/
theorem TimedCall.op_eq_leave {now now' : ℤ} {newID : Option String} {call : TimedCall}
    {p : SessionRef} {c : ClientRef} {resumable : Bool}
    (h : call.op now newID = .leave p c resumable now') : now' = now := by
  cases call with
  | leave =>
      cases h
      rfl
  | openSession => cases h
  | sweep => cases h

/-- The calls that read the clock. -/
def Op.timed : Op → Bool
  | .openSession .. => true
  | .leave .. => true
  | .sweep _ => true
  | _ => false

/-- The store, the clock, and the calls that have read it and wait for the lock, each with its
reading. -/
structure Clocked where
  mem : Mem
  clock : ℤ
  waiting : List (TimedCall × ℤ)

/-- Time passes, a call reads the clock, a waiting call gets the lock, or a call is made that does
not read the clock. -/
inductive ClockOp where
  | tick (elapsed : ℕ)
  | read (call : TimedCall)
  | lock (i : ℕ) (newID : Option String)
  | call (op : Op)

namespace Clocked

/-- `NewSessionStore` at some time. -/
def init (opt : SessionOptions) (digest : String → String) (sendBuffer : ClientRef → ℤ)
    (clock : ℤ) : Clocked :=
  ⟨newSessionStore opt digest sendBuffer, clock, []⟩

/-- One step. -/
def step (s : Clocked) : ClockOp → Option Clocked
  | .tick elapsed => some { s with clock := s.clock + elapsed }
  | .read call => some { s with waiting := s.waiting ++ [(call, s.clock)] }
  | .lock i newID =>
      s.waiting[i]?.bind fun w =>
        (s.mem.step (w.1.op w.2 newID)).map fun m =>
          { s with mem := m, waiting := s.waiting.eraseIdx i }
  | .call op =>
      if op.timed then none else (s.mem.step op).map fun m => { s with mem := m }

/-- The step relation. -/
def Step (s : Clocked) (op : ClockOp) (s' : Clocked) : Prop := s.step op = some s'

/-- The `Leave`s that park in turn. -/
def InTurn (s : Clocked) : ClockOp → Prop
  | .lock i newID => ∀ w, s.waiting[i]? = some w → s.mem.InTurn (w.1.op w.2 newID)
  | _ => True

/-- What a step does to the store. -/
theorem Step.mem_cases {s s' : Clocked} {op : ClockOp} (hstep : s.Step op s') :
    s'.mem = s.mem ∧ s.InTurn op ∨
      ∃ op', s.mem.Step op' s'.mem ∧ (s.InTurn op ↔ s.mem.InTurn op') := by
  cases op with
  | tick elapsed =>
      obtain rfl := Option.some.inj hstep
      exact Or.inl ⟨rfl, trivial⟩
  | read call =>
      obtain rfl := Option.some.inj hstep
      exact Or.inl ⟨rfl, trivial⟩
  | lock i newID =>
      obtain ⟨w, hw, hstep⟩ := Option.bind_eq_some_iff.1 hstep
      obtain ⟨m, hm, rfl⟩ := Option.map_eq_some_iff.1 hstep
      refine Or.inr ⟨_, hm, fun hturn => hturn w hw, fun hturn w' hw' => ?_⟩
      obtain rfl := Option.some.inj (hw.symm.trans hw')
      exact hturn
  | call op =>
      obtain ⟨htimed, hstep⟩ := Option.ite_none_left_eq_some.1 hstep
      obtain ⟨m, hm, rfl⟩ := Option.map_eq_some_iff.1 hstep
      refine Or.inr ⟨op, hm, iff_of_true trivial ?_⟩
      cases op with
      | leave => exact absurd rfl htimed
      | _ => trivial

/-- Every step with a clock keeps the store's invariant. -/
theorem Step.storeInv {s s' : Clocked} {op : ClockOp} (h : s.mem.StoreInv) (hstep : s.Step op s') :
    s'.mem.StoreInv := by
  rcases hstep.mem_cases with ⟨hmem, -⟩ | ⟨op', hop', -⟩
  · exact hmem ▸ h
  · exact h.step hop'

/-- A step keeps the order exactly when it is in turn. -/
theorem Step.ordered_iff {s s' : Clocked} {op : ClockOp} (h : s.mem.StoreInv) (hs : s.mem.Ordered)
    (hstep : s.Step op s') : s'.mem.Ordered ↔ s.InTurn op := by
  rcases hstep.mem_cases with ⟨hmem, hturn⟩ | ⟨op', hop', hturn⟩
  · rw [hmem]
    exact iff_of_true hs hturn
  · rw [hturn]
    exact h.ordered_iff hs hop'

/-- **Sweeps are exact for as long as sessions are parked in turn.**  From the empty store, along
every interleaving of readings and lock acquisitions: the list is in the order of the park times
throughout, and every sweep removes exactly the overdue sessions, which are those that `Open`
refuses as expired, exactly when each `Leave` that parks a session read the clock no earlier than
the `Leave`s that parked the sessions that stay on the list. -/
theorem inTurn_iff_sweepExact (opt : SessionOptions) (digest : String → String)
    (sendBuffer : ClientRef → ℤ) (clock : ℤ) (ops : List ClockOp) (s : Clocked) :
    Steps (Guarded InTurn Step) (init opt digest sendBuffer clock) ops s ↔
      Steps (Keeping (fun s => s.mem.Ordered ∧ ∀ t, s.mem.SweepExact t) Step)
        (init opt digest sendBuffer clock) ops s := by
  have hinit := Mem.storeInv_newSessionStore opt digest sendBuffer
  have hempty : (init opt digest sendBuffer clock).mem.Ordered := List.Pairwise.nil
  refine Steps.guarded_iff_keeping_of_invariant (I := fun s => s.mem.StoreInv)
    (fun s op s' h hstep => hstep.storeInv h) (fun s op s' h hs hstep => ?_) hinit
    ⟨hempty, hinit.ordered_iff_sweepExact.1 hempty⟩
  rw [← (hstep.storeInv h).ordered_iff_sweepExact, and_self]
  exact hstep.ordered_iff h hs.1

/-- The lock goes to the call that read the clock first. -/
def FirstIn (_ : Clocked) : ClockOp → Prop
  | .lock i _ => i = 0
  | _ => True

/-- The readings are in order, and no session was parked after one of them. -/
structure Timely (s : Clocked) : Prop where
  waiting : s.waiting.Pairwise fun v w => v.2 ≤ w.2
  read : ∀ w ∈ s.waiting, w.2 ≤ s.clock
  parked : ∀ x ∈ s.mem.store.parked, (s.mem.session x.2).parked ≤ s.clock ∧
    ∀ w ∈ s.waiting, (s.mem.session x.2).parked ≤ w.2

/-- A call that parks no session later than `bound` leaves none on the list that was. -/
theorem parkTime_le {m m' : Mem} (h : m.StoreInv) {op : Op} (hstep : m.Step op m') {bound : ℤ}
    (hold : ∀ x ∈ m.store.parked, (m.session x.2).parked ≤ bound)
    (hnew : ∀ p c now, op = .leave p c true now → now ≤ bound) :
    ∀ x ∈ m'.store.parked, (m'.session x.2).parked ≤ bound := by
  intro x hx
  cases h.step_relisted hstep with
  | shrunk hl _ =>
      rw [h.parkTime_eq hstep (hl.subset hx)]
      exact hold x (hl.subset hx)
  | @parked p c now hop _ _ hlist hnow =>
      rw [hlist] at hx
      rcases List.mem_append.1 hx with hx | hx
      · have hx := List.mem_of_mem_drop hx
        rw [h.parkTime_eq hstep hx]
        exact hold x hx
      · rw [List.mem_singleton.1 hx, hnow]
        exact hnew p c now hop

namespace Timely

variable {s s' : Clocked}

/-- Time passing keeps a state timely. -/
theorem tick (hs : s.Timely) (elapsed : ℕ) : Timely { s with clock := s.clock + elapsed } := by
  have hle : s.clock ≤ s.clock + elapsed := Int.le_add_of_nonneg_right (Int.natCast_nonneg _)
  exact ⟨hs.waiting, fun w hw => Int.le_trans (hs.read w hw) hle,
    fun x hx => ⟨Int.le_trans (hs.parked x hx).1 hle, (hs.parked x hx).2⟩⟩

/-- A new reading is the latest. -/
theorem readClock (hs : s.Timely) (call : TimedCall) :
    Timely { s with waiting := s.waiting ++ [(call, s.clock)] } := by
  refine ⟨List.pairwise_append.2 ⟨hs.waiting, List.pairwise_singleton .., ?_⟩, ?_, ?_⟩
  · intro v hv w hw
    rw [List.mem_singleton.1 hw]
    exact hs.read v hv
  · intro w hw
    rcases List.mem_append.1 hw with hw | hw
    · exact hs.read w hw
    · rw [List.mem_singleton.1 hw]
  · intro x hx
    refine ⟨(hs.parked x hx).1, fun w hw => ?_⟩
    rcases List.mem_append.1 hw with hw | hw
    · exact (hs.parked x hx).2 w hw
    · rw [List.mem_singleton.1 hw]
      exact (hs.parked x hx).1

/-- A call into the store, after which `waiting` still wait: a session it parks must not be parked
after the readings of those. -/
theorem call (hs : s.Timely) (h : s.mem.StoreInv) {op : Op} {m : Mem} (hstep : s.mem.Step op m)
    {waiting : List (TimedCall × ℤ)} (hsub : waiting.Sublist s.waiting)
    (hnew : ∀ p c now, op = .leave p c true now → now ≤ s.clock ∧ ∀ w ∈ waiting, now ≤ w.2) :
    Timely { s with mem := m, waiting := waiting } where
  waiting := hs.waiting.sublist hsub
  read := fun w hw => hs.read w (hsub.subset hw)
  parked := fun x hx =>
    ⟨parkTime_le h hstep (fun x hx => (hs.parked x hx).1) (fun p c now hop => (hnew p c now hop).1)
      x hx,
    fun w hw => parkTime_le h hstep (fun x hx => (hs.parked x hx).2 w (hsub.subset hw))
      (fun p c now hop => (hnew p c now hop).2 w hw) x hx⟩

/-- A step that gives the lock to the first reader keeps a state timely. -/
theorem step {op : ClockOp} (hs : s.Timely) (h : s.mem.StoreInv) (hfirst : s.FirstIn op)
    (hstep : s.Step op s') : s'.Timely := by
  cases op with
  | tick elapsed =>
      obtain rfl := Option.some.inj hstep
      exact hs.tick elapsed
  | read call =>
      obtain rfl := Option.some.inj hstep
      exact hs.readClock call
  | lock i newID =>
      obtain rfl : i = 0 := hfirst
      obtain ⟨w, hw, hstep⟩ := Option.bind_eq_some_iff.1 hstep
      obtain ⟨m, hm, rfl⟩ := Option.map_eq_some_iff.1 hstep
      refine hs.call h hm (List.eraseIdx_sublist _ _) fun p c now hop => ?_
      rw [TimedCall.op_eq_leave hop]
      cases hwaiting : s.waiting with
      | nil => simp [hwaiting] at hw
      | cons v rest =>
          obtain ⟨hord, hread, -⟩ := hs
          rw [hwaiting] at hw hord hread
          obtain rfl : v = w := Option.some.inj hw
          exact ⟨hread v List.mem_cons_self, (List.pairwise_cons.1 hord).1⟩
  | call op =>
      obtain ⟨htimed, hstep⟩ := Option.ite_none_left_eq_some.1 hstep
      obtain ⟨m, hm, rfl⟩ := Option.map_eq_some_iff.1 hstep
      refine hs.call h hm (List.Sublist.refl _) ?_
      rintro p c now rfl
      exact absurd rfl htimed

end Timely

/-- In a timely state every `Leave` parks in turn. -/
theorem Timely.inTurn {s : Clocked} (hs : s.Timely) (op : ClockOp) : s.InTurn op := by
  cases op with
  | lock i newID =>
      rintro ⟨call, now⟩ hw
      have hle : ∀ x ∈ s.mem.store.parked, (s.mem.session x.2).parked ≤ now :=
        fun x hx => (hs.parked x hx).2 _ (List.mem_of_getElem? hw)
      cases call with
      | leave p c resumable =>
          cases resumable with
          | false => trivial
          | true => exact fun _ _ x hx => hle x (List.mem_of_mem_drop hx)
      | _ => trivial
  | _ => trivial

/-- **With a lock that is first come, first served every sweep is exact.** -/
theorem sweepExact_of_firstIn {opt : SessionOptions} {digest : String → String}
    {sendBuffer : ClientRef → ℤ} {clock : ℤ} {s : Clocked}
    (h : Reachable (Guarded FirstIn Step) (init opt digest sendBuffer clock) s) :
    s.mem.Ordered ∧ ∀ t, s.mem.SweepExact t := by
  obtain ⟨hinv, -, hord⟩ : s.mem.StoreInv ∧ s.Timely ∧ s.mem.Ordered := by
    refine h.invariant (P := fun s => s.mem.StoreInv ∧ s.Timely ∧ s.mem.Ordered) ?_ ?_
    · refine ⟨Mem.storeInv_newSessionStore opt digest sendBuffer, ⟨.nil, ?_, ?_⟩, .nil⟩
      · exact fun w hw => absurd hw List.not_mem_nil
      · exact fun x hx => absurd hx List.not_mem_nil
    · rintro s op s' ⟨hinv, htimely, hord⟩ ⟨hfirst, hstep⟩
      exact ⟨hstep.storeInv hinv, htimely.step hinv hfirst hstep,
        (hstep.ordered_iff hinv hord).2 (htimely.inTurn op)⟩
  exact ⟨hord, hinv.ordered_iff_sweepExact.1 hord⟩

/-- Two sessions are opened; one `Leave` reads the time 1 and another the time 5, and the second
gets the lock first; then a sweep reads the time 13. -/
def outOfTurn : List ClockOp :=
  [.read (.openSession 0 ⟨false, false, "", 0, "u"⟩), .lock 0 (some "a"),
    .read (.openSession 1 ⟨false, false, "", 0, "v"⟩), .lock 0 (some "b"),
    .tick 1, .read (.leave 0 0 true), .tick 4, .read (.leave 1 1 true), .lock 1 none, .lock 0 none,
    .tick 8, .read .sweep, .lock 0 none]

/-- **An overdue session that survives the sweep.**  With a TTL of 10, the sweep stops at the
session that was parked at 5; the one that was parked at 1 is behind it and stays, and `Open`
refuses it as expired. -/
theorem overdue_survives : ∃ s,
    exec step (init ⟨0, 0, 10, 0, 0⟩ id (fun _ => 0) 0) outOfTurn = some s ∧
      s.clock = 13 ∧ ¬s.mem.Ordered ∧ s.mem.Overdue 13 0 ∧
      (s.mem.open 2 ⟨true, false, "a", 0, "u"⟩ 13 none).2.1.reason = some .expired := by
  obtain ⟨s, hs, hp⟩ : ∃ s, exec step (init ⟨0, 0, 10, 0, 0⟩ id (fun _ => 0) 0) outOfTurn = some s ∧
      decide (s.clock = 13 ∧ s.mem.store.parked = [(0, 1), (1, 0)] ∧
        (s.mem.session 0).parked = 1 ∧ (s.mem.session 1).parked = 5 ∧ s.mem.store.opt.ttl = 10 ∧
        (s.mem.open 2 ⟨true, false, "a", 0, "u"⟩ 13 none).2.1.reason = some .expired) = true :=
    Option.map_eq_some_iff.1 (by decide)
  obtain ⟨hclock, hlist, h0, h1, httl, hreason⟩ := of_decide_eq_true hp
  refine ⟨s, hs, hclock, ?_, ⟨⟨1, by simp [hlist]⟩, by rw [httl, h0]; decide⟩, hreason⟩
  rw [Mem.Ordered, hlist]
  simp [h0, h1]

end Clocked
end GoSocket
