/-
# What is left of a call

The place of a call in a serial order is where it first touches the memory: where
`deliver` puts the frame on the queue, where `Open` has decided, where `Leave` parks or
closes the session, where `Sweep` takes the store lock.  What it does to the memory after
that is known: `Pc.rest` for the goroutine with the store lock, and `Pc.pendingAt` for the
commit of a delivery.  What it is going to return is known too (`Pc.promise`).

`Calls.virtual` is the memory with all of it done.  A move that places no call leaves it as
it is (`Moves.quiet`), up to the sessions a loop is still going to discard.
-/

import GoSocket.Session.Progress

namespace GoSocket

open Lib

/-- A `Leave` that does not park touches no client and makes no session. -/
theorem Mem.leave_unparked {m r : Mem} {p : SessionRef} {c : ClientRef} {resumable : Bool} {now : ℤ}
    {res : LeaveResult} {due : List Release} (h : m.leave p c resumable now = (r, res, due))
    (hres : res ≠ .parked) : r.client = m.client ∧ r.sessionCount = m.sessionCount := by
  unfold Mem.leave at h
  dsimp only at h
  split_ifs at h <;> cases h
  · exact ⟨rfl, rfl⟩
  · exact ⟨rfl, rfl⟩
  · rw [removeLocked_eq]
    exact ⟨rfl, rfl⟩
  · exact absurd rfl hres

namespace PopLoop

/-- The loop to its end, and the sessions it pops. -/
def run (m : Mem) : PopLoop → Mem × List SessionRef
  | .evict _ => m.evictLoop m.store.parked.length
  | .sweep now => m.sweepLoop now m.store.parked.length

variable {m : Mem} {k : PopLoop} {v : SessionRef}

/-- A pop loop commutes with the edits still pending. -/
theorem run_pend (m : Mem) (k : PopLoop) (E : SessionRef → Edit) :
    k.run (m.pend E) = ((k.run m).1.pend E, (k.run m).2) := by
  cases k with
  | evict a => exact m.evictLoop_pend E _
  | sweep now => exact m.sweepLoop_pend E now _

/-- A pop loop commutes with a poke. -/
theorem run_poke (m : Mem) (k : PopLoop) (c : ClientRef) (x : Poke) :
    k.run (m.poke c x) = ((k.run m).1.poke c x, (k.run m).2) := by
  cases k with
  | evict a => exact m.evictLoop_poke c x _
  | sweep now => exact m.sweepLoop_poke c x now _

/-- A pop loop discards some number of sessions from the front of the parked list. -/
theorem run_popped (hl : m.Linked) (k : PopLoop) : ∃ n, Mem.Popped m n (k.run m) := by
  cases k with
  | evict a => exact ⟨_, Mem.evictLoop_popped hl le_rfl⟩
  | sweep now => exact ⟨_, Mem.sweepLoop_popped hl now le_rfl⟩

/-- The sessions a loop pops are parked. -/
theorem state_of_mem_run (hl : m.Linked) (hv : v ∈ (k.run m).2) :
    (m.session v).state = .parked := by
  obtain ⟨n, hpop⟩ := run_popped hl k
  rw [hpop.sessions] at hv
  obtain ⟨⟨e, w⟩, hx, rfl⟩ := List.mem_map.1 hv
  exact ((hl.session w).elem ((hl.session w).listed.1 (List.mem_of_mem_take hx))).1

/-- A pop loop closes the sessions it answers with and changes no other. -/
theorem run_session (hl : m.Linked) (k : PopLoop) (q : SessionRef) :
    (k.run m).1.session q =
      if q ∈ (k.run m).2 then { m.session q with state := .closed, elem := none }
      else m.session q := by
  obtain ⟨n, hpop⟩ := run_popped hl k
  rw [hpop.mem]
  exact Mem.discardAll_session m _ q

/-- A pop loop touches no client. -/
theorem run_client (hl : m.Linked) (k : PopLoop) : (k.run m).1.client = m.client := by
  obtain ⟨n, hpop⟩ := run_popped hl k
  rw [hpop.mem, Mem.discardAll_client]

/-- A pop loop allocates no session. -/
theorem run_sessionCount (hl : m.Linked) (k : PopLoop) :
    (k.run m).1.sessionCount = m.sessionCount := by
  obtain ⟨n, hpop⟩ := run_popped hl k
  rw [hpop.mem, Mem.discardAll_sessionCount]

/-- A pop loop keeps the options. -/
theorem run_opt (hl : m.Linked) (k : PopLoop) : (k.run m).1.store.opt = m.store.opt := by
  obtain ⟨n, hpop⟩ := run_popped hl k
  rw [hpop.mem, Mem.discardAll_opt]

/-- A loop that stops at its test has popped everything. -/
theorem run_of_front_eq_none (hf : k.front m = none) : k.run m = (m, []) := by
  cases k with
  | sweep now =>
      have hnil : m.store.parked = [] := by simpa [front] using hf
      rw [run, hnil]
      rfl
  | evict a =>
      have hshort : ¬ m.store.opt.maxParked < m.store.parked.length := by
        intro hlong
        rw [front, if_pos hlong] at hf
        have hnil : m.store.parked = [] := by simpa using hf
        simp [hnil] at hlong
      rw [run]
      cases m.store.parked.length with
      | zero => rfl
      | succ n => rw [Mem.evictLoop, if_neg hshort]

/-- A loop that refuses the front session is over. -/
theorem run_of_takes_eq_false (hf : k.front m = some v) (ht : k.takes m v = false) :
    k.run m = (m, []) := by
  obtain ⟨e, rest, hp⟩ := Pc.front_eq hf
  cases k with
  | evict a => cases ht
  | sweep now =>
      have hyoung : ¬ m.store.opt.ttl < now - (m.session v).parked := by simpa [takes] using ht
      rw [run, hp, List.length_cons, Mem.sweepLoop, hp]
      exact if_neg hyoung

/-- One round of a loop. -/
theorem run_of_takes (hl : m.Linked) (hf : k.front m = some v) (ht : k.takes m v = true) :
    k.run m = ((k.run (m.discard v)).1, v :: (k.run (m.discard v)).2) := by
  obtain ⟨e, rest, hp⟩ := Pc.front_eq hf
  have hrest := hl.discard_front hp
  cases k with
  | evict a =>
      have hlong : m.store.opt.maxParked < m.store.parked.length :=
        (Option.ite_none_right_eq_some.1 hf).1
      rw [run, run, hrest]
      simp only [hp, List.length_cons] at hlong ⊢
      rw [Mem.evictLoop, hp, List.length_cons, if_pos hlong]
  | sweep now =>
      have hold : m.store.opt.ttl < now - (m.session v).parked := by simpa [takes] using ht
      rw [run, run, hrest, hp, List.length_cons, Mem.sweepLoop, hp]
      exact if_pos hold

end PopLoop

/-- The targets that are left of a broadcast. -/
def After.names : After → List SessionRef
  | .ret => []
  | .cast rest _ _ => rest

namespace Pc

/-- What the goroutine with the store lock is still going to do to the memory, and the
sessions it is going to discard. -/
def rest (m : Mem) : Pc → Mem × List SessionRef
  | .refused a newID _ reason victim =>
      ((m.openFresh a.c a.req.owner newID (some reason) victim).1, [])
  | .making a newID reason victim => ((m.openFresh a.c a.req.owner newID reason victim).1, [])
  | .parked a => (PopLoop.evict a).run m
  | .popLoop k _ | .popFront k _ _ | .popHeld k _ _ => k.run m
  | .popClosed k _ v | .popFreed k _ v => k.run (m.removeLocked v)
  | _ => (m, [])

/-- The commit of a delivery whose frame is on the queue. -/
def pendingAt (q : SessionRef) : Pc → Edit
  | .queued p _ _ e _ _ => if q = p then e else .keep
  | _ => .keep

/-- The call that has its place in the serial order, and what it is going to return. -/
def promise (m : Mem) : Pc → Option (Op × Reply)
  | .queued p data pol _ ok _ | .delivered p data pol ok _ =>
      some (.deliver p data pol, .delivered ok)
  | .touched p x reply => some (x.op p, reply)
  | .refused a newID _ reason victim =>
      let r := m.openFresh a.c a.req.owner newID (some reason) victim
      some (a.op newID, .opened r.2.1 r.2.2)
  | .making a newID reason victim =>
      let r := m.openFresh a.c a.req.owner newID reason victim
      some (a.op newID, .opened r.2.1 r.2.2)
  | .parked a => some (a.op, (PopLoop.evict a).reply ((PopLoop.evict a).run m).2)
  | .popLoop k acc | .popFront k acc _ | .popHeld k acc _ =>
      some (k.op, k.reply (acc ++ (k.run m).2))
  | .popClosed k acc v | .popFreed k acc v =>
      some (k.op, k.reply (acc ++ v :: (k.run (m.removeLocked v)).2))
  | .popYoung k acc _ => some (k.op, k.reply acc)
  | .bound _ op reply | .done op reply => some (op, reply)
  | _ => none

/-- The client that is going to be bound. -/
def binds : Pc → Option ClientRef
  | .refused a _ _ _ _ | .making a _ _ _ => some a.c
  | _ => none

variable {m : Mem} {pc : Pc} {E : SessionRef → Edit}

/-- **What is left of a store call does not look at edits.** -/
theorem rest_pend (pc : Pc) (hE : E m.sessionCount = .keep) :
    pc.rest (m.pend E) = ((pc.rest m).1.pend E, (pc.rest m).2) := by
  cases pc with
  | refused | making => simp only [rest, m.openFresh_pend E _ hE]
  | parked | popLoop | popFront | popHeld => simp only [rest, PopLoop.run_pend]
  | popClosed | popFreed => simp only [rest, Mem.removeLocked_pend, PopLoop.run_pend]
  | _ => rfl

/-- The rest of a call commutes with a poke, unless the call is still to bind the client and the
poke is its write pump's. -/
theorem rest_poke {d : ClientRef} {x : Poke} (hx : pc.binds = some d → x ≠ .write) :
    pc.rest (m.poke d x) = ((pc.rest m).1.poke d x, (pc.rest m).2) := by
  cases pc with
  | refused a | making a =>
      simp only [rest, m.openFresh_poke a.c d x fun hd => hx (by rw [hd]; rfl)]
  | parked | popLoop | popFront | popHeld => simp only [rest, PopLoop.run_poke]
  | popClosed | popFreed => simp only [rest, Mem.removeLocked_poke, PopLoop.run_poke]
  | _ => rfl

/-- A promised reply does not depend on the edits still pending. -/
theorem promise_pend (pc : Pc) (hE : E m.sessionCount = .keep) :
    pc.promise (m.pend E) = pc.promise m := by
  cases pc with
  | refused | making => simp only [promise, m.openFresh_pend E _ hE]
  | parked | popLoop | popFront | popHeld => simp only [promise, PopLoop.run_pend]
  | popClosed | popFreed => simp only [promise, Mem.removeLocked_pend, PopLoop.run_pend]
  | _ => rfl

/-- A promised reply does not depend on a poke, unless the call is still to bind the client and
the poke is its write pump's. -/
theorem promise_poke {d : ClientRef} {x : Poke} (hx : pc.binds = some d → x ≠ .write) :
    pc.promise (m.poke d x) = pc.promise m := by
  cases pc with
  | refused a | making a =>
      simp only [promise, m.openFresh_poke a.c d x fun hd => hx (by rw [hd]; rfl)]
  | parked | popLoop | popFront | popHeld => simp only [promise, PopLoop.run_poke]
  | popClosed | popFreed => simp only [promise, Mem.removeLocked_poke, PopLoop.run_poke]
  | _ => rfl

/-- The rest of a call commutes with an edit of a session that exists. -/
theorem rest_edit (pc : Pc) {u : SessionRef × Edit} (hu : u.1 < m.sessionCount) :
    pc.rest (m.edit u) = ((pc.rest m).1.edit u, (pc.rest m).2) := by
  rw [Mem.edit_eq_pend, Mem.edit_eq_pend]
  exact rest_pend pc (Function.update_of_ne hu.ne' ..)

/-- A promised reply does not depend on an edit of a session that exists. -/
theorem promise_edit (pc : Pc) {u : SessionRef × Edit} (hu : u.1 < m.sessionCount) :
    pc.promise (m.edit u) = pc.promise m := by
  rw [Mem.edit_eq_pend]
  exact promise_pend pc (Function.update_of_ne hu.ne' ..)

/-- A promised reply does not depend on what a live client is sent. -/
theorem promise_pokeLive (pc : Pc) {p : SessionRef} {x : Poke} (hx : x ≠ .write) :
    pc.promise (m.pokeLive p x) = pc.promise m := by
  unfold Mem.pokeLive
  split
  · rfl
  · exact promise_poke fun _ => hx

/-- Without the store lock a promise does not depend on the memory. -/
theorem promise_congr (h : Lock.store ∉ pc.holds) (m m' : Mem) : pc.promise m = pc.promise m' := by
  cases pc with
  | refused | making | parked | popLoop | popFront | popHeld | popClosed | popFreed =>
      simp [holds] at h
  | _ => rfl

/-- A loop is run on a store that is linked. -/
theorem Good.rest_session (h : pc.Good m) {q : SessionRef} (hq : q < m.sessionCount)
    (hv : q ∉ (pc.rest m).2) : ∃ el, (pc.rest m).1.session q = { m.session q with elem := el } := by
  have hrun : ∀ {k : PopLoop} {m : Mem}, m.Linked → q ∉ (k.run m).2 →
      (k.run m).1.session q = m.session q := by
    intro k m hl hv
    rw [PopLoop.run_session hl, if_neg hv]
  have hfresh : ∀ {c owner newID reason victim},
      (m.openFresh c owner newID reason victim).1.session q = m.session q := by
    intro c owner newID reason victim
    cases newID with
    | none => rfl
    | some id => simp [Mem.openFresh_some, hq.ne]
  cases pc with
  | refused | making => exact ⟨_, hfresh⟩
  | parked | popLoop | popFront | popHeld => exact ⟨_, hrun h.1 hv⟩
  | popClosed k acc v | popFreed k acc v =>
      have heq := hrun h.1 hv
      rw [Mem.removeLocked_session] at heq
      by_cases hqv : q = v
      · subst hqv
        exact ⟨none, by rw [rest, heq, if_pos rfl]⟩
      · exact ⟨_, by rw [rest, heq, if_neg hqv]⟩
  | _ => exact ⟨_, rfl⟩

/-- Nothing but a binding is done to the clients. -/
theorem Good.rest_client (h : pc.Good m) (d : ClientRef) :
    (∃ ses rep, (pc.rest m).1.client d = { m.client d with session := ses, replay := rep }) ∧
      (pc.binds ≠ some d → (pc.rest m).1.client d = m.client d) := by
  have hfresh : ∀ {c owner newID reason victim},
      (∃ ses rep, (m.openFresh c owner newID reason victim).1.client d =
        { m.client d with session := ses, replay := rep }) ∧
      (some c ≠ some d → (m.openFresh c owner newID reason victim).1.client d = m.client d) := by
    intro c owner newID reason victim
    cases newID with
    | none => exact ⟨⟨_, _, rfl⟩, fun _ => rfl⟩
    | some id =>
        simp only [Mem.openFresh_some, Mem.fresh_client]
        by_cases hdc : d = c
        · subst hdc
          exact ⟨⟨_, _, if_pos rfl⟩, fun h => absurd rfl h⟩
        · exact ⟨⟨_, _, if_neg hdc⟩, fun _ => if_neg hdc⟩
  cases pc with
  | refused | making => exact hfresh
  | parked | popLoop | popFront | popHeld =>
      rw [rest, PopLoop.run_client h.1]
      exact ⟨⟨_, _, rfl⟩, fun _ => rfl⟩
  | popClosed k acc v | popFreed k acc v =>
      rw [rest, PopLoop.run_client h.1, Mem.removeLocked_eq]
      exact ⟨⟨_, _, rfl⟩, fun _ => rfl⟩
  | _ => exact ⟨⟨_, _, rfl⟩, fun _ => rfl⟩

/-- A session that is going to be discarded is parked. -/
theorem Good.state_of_mem_rest (h : pc.Good m) {v : SessionRef} (hv : v ∈ (pc.rest m).2) :
    (m.session v).state = .parked ∧ (m.session v).live = none := by
  have hrun : ∀ {k : PopLoop} {m : Mem}, m.Linked → v ∈ (k.run m).2 →
      (m.session v).state = .parked ∧ (m.session v).live = none := by
    intro k m hl hv
    have hs := PopLoop.state_of_mem_run hl hv
    exact ⟨hs, ((hl.session v).parked hs).1⟩
  cases pc with
  | parked | popLoop | popFront | popHeld => exact hrun h.1 hv
  | popClosed k acc w | popFreed k acc w =>
      have hs := hrun h.1 hv
      rw [Mem.removeLocked_session] at hs
      by_cases hvw : v = w
      · subst hvw
        simpa using hs
      · simpa [hvw] using hs
  | _ => cases hv

/-- The rest of a call only adds sessions. -/
theorem Good.rest_sessionCount (h : pc.Good m) : m.sessionCount ≤ (pc.rest m).1.sessionCount := by
  have hfresh : ∀ {c owner newID reason victim},
      m.sessionCount ≤ (m.openFresh c owner newID reason victim).1.sessionCount := by
    intro c owner newID reason victim
    cases newID with
    | none => exact le_rfl
    | some id => exact Nat.le_succ _
  cases pc with
  | refused | making => exact hfresh
  | parked | popLoop | popFront | popHeld => exact (PopLoop.run_sessionCount h.1 _).ge
  | popClosed | popFreed =>
      rw [rest, PopLoop.run_sessionCount h.1, Mem.removeLocked_eq]
  | _ => exact le_rfl

/-- The rest of a call keeps the options. -/
theorem Good.rest_opt (h : pc.Good m) : (pc.rest m).1.store.opt = m.store.opt := by
  cases pc with
  | refused _ newID | making _ newID => cases newID <;> rfl
  | parked | popLoop | popFront | popHeld => exact PopLoop.run_opt h.1 _
  | popClosed | popFreed => rw [rest, PopLoop.run_opt h.1, Mem.removeLocked_eq]
  | _ => rfl

/-- Before a call has its place it has done nothing. -/
theorem rest_of_promise_eq_none (h : pc.promise m = none) : pc.rest m = (m, []) := by
  cases pc <;> first | rfl | cases h

variable {mv : Move Mem Lock Pc} {draw : Option String}

/-- **A move that places no call** does what was known of it. -/
theorem Moves.quiet (h : Moves draw m pc mv) (hgood : pc.Good m)
    (hstore : Lock.store ∈ pc.holds ∨ Lock.store ∈ mv.point.holds)
    (hq : pc.promise m ≠ none ∨ mv.point.promise (mv.after m) = none) :
    (mv.point.rest (mv.after m)).1 = (pc.rest m).1 ∧
      (∃ vs, (pc.rest m).2 = vs ++ (mv.point.rest (mv.after m)).2) ∧
      ∀ v ∈ (mv.point.rest (mv.after m)).2, (mv.after m).session v = m.session v := by
  -- moves that write nothing come to a point with the same rest
  have hsame : ∀ {r r' : Mem × List SessionRef}, r' = r →
      r'.1 = r.1 ∧ (∃ vs, r.2 = vs ++ r'.2) ∧ ∀ v ∈ r'.2, m.session v = m.session v := by
    rintro r _ rfl
    exact ⟨rfl, ⟨[], rfl⟩, fun _ _ => rfl⟩
  cases h with
  | named | judge | refused | leaving | parked | loopFront | popFront | popClosed | popYoung
  | bound | done | openCall | leaveCall => exact hsame rfl
  | loopDone hf => exact hsame (PopLoop.run_of_front_eq_none hf).symm
  | popStop ht => exact hsame (PopLoop.run_of_takes_eq_false hgood.2.2 ht).symm
  | make => exact ⟨rfl, ⟨[], rfl⟩, fun _ hv => nomatch hv⟩
  | @popClose k acc v ht =>
      obtain ⟨hl, -, hf⟩ := hgood
      have hrun := PopLoop.run_of_takes hl hf ht
      have hrest : (Pc.popClosed k acc v).rest (m.close v) = k.run (m.discard v) := rfl
      obtain ⟨e, tail, hp⟩ := front_eq hf
      simp only [Move.point, Move.after, hrest]
      refine ⟨by rw [rest, hrun], ⟨[v], by rw [rest, hrun]; rfl⟩, fun w hw => ?_⟩
      have hparked := PopLoop.state_of_mem_run (hl.discard (hl.front_open hp)) hw
      have hwv : w ≠ v := by
        rintro rfl
        simp at hparked
      rw [Mem.close_session, if_neg hwv]
  | @popRemove k acc v =>
      refine ⟨rfl, ⟨[], rfl⟩, fun w hw => ?_⟩
      have hparked := PopLoop.state_of_mem_run hgood.1 hw
      obtain ⟨e, he⟩ := ((hgood.1.session w).parked hparked).2
      have hwv : w ≠ v := by
        rintro rfl
        simp at he
      rw [Move.after, Mem.removeLocked_session, if_neg hwv]
  | delivered =>
      rcases hstore with hstore | hstore
      · simp [holds] at hstore
      · exact absurd hstore (store_not_mem_holds_point _)
  | _ =>
      first
        | (simp [holds, Move.point] at hstore; done)
        | simp [promise, Move.point] at hq

/-- The commit of a delivery is made with the lock of its session. -/
theorem pendingAt_of_not_mem {q : SessionRef} (h : Lock.session q ∉ pc.holds) :
    pc.pendingAt q = .keep := by
  cases pc with
  | queued p => exact if_neg fun hq => h (by simp [holds, hq])
  | _ => rfl

/-- The sessions a call outside of the store lock is going to write to. -/
def names : Pc → List SessionRef
  | .deliver p _ _ k | .delivering p _ _ k | .queued p _ _ _ _ k | .delivered p _ _ _ k =>
      p :: k.names
  | .touch p _ | .touching p _ | .touched p _ _ => [p]
  | .cast targets _ _ | .casting targets _ _ => targets
  | .leaveCall a | .leaving a | .leftWith a => [a.p]
  | _ => []

/-- The connection that is being opened. -/
def opens : Pc → Option ClientRef
  | .openCall a | .opening a _ | .openNamed a _ _ | .judging a _ _ | .refused a _ _ _ _
  | .making a _ _ _ => some a.c
  | _ => none

/-- A call still to bind a client is one that opens for it. -/
theorem opens_of_binds {c : ClientRef} (h : pc.binds = some c) : pc.opens = some c := by
  cases pc <;> first | exact h | cases h

/-- A move adds no session to those its call names. -/
theorem Moves.names (h : Moves draw m pc mv) {p : SessionRef} (hp : p ∈ mv.point.names) :
    p ∈ pc.names := by
  cases h with
  | @delivered q data pol ok k =>
      cases k with
      | ret => cases hp
      | cast => exact List.mem_cons_of_mem _ hp
  | castNext => exact hp
  | _ => first | exact hp | cases hp

/-- A move opens for no client its call did not. -/
theorem Moves.opens (h : Moves draw m pc mv) {c : ClientRef} (hc : mv.point.opens = some c) :
    pc.opens = some c := by
  cases h with
  | @delivered q data pol ok k => cases k <;> cases hc
  | _ => first | exact hc | cases hc

/-- A move only adds sessions. -/
theorem Moves.sessionCount_le (h : Moves draw m pc mv) :
    m.sessionCount ≤ (mv.after m).sessionCount := by
  cases h with
  | look =>
      simp only [Move.after, Mem.pokeLive]
      split <;> exact le_rfl
  | resume => exact (Mem.attachLocked_sessionCount ..).ge
  | kill => exact (Mem.discard_sessionCount ..).ge
  | @make a newID reason victim =>
      cases newID with
      | none => exact le_rfl
      | some id => exact Nat.le_succ _
  | leave hl hres => exact (Mem.leave_unparked hl hres).2.ge
  | popRemove => rw [Move.after, Mem.removeLocked_eq]
  | _ => exact le_rfl

/-- A connection is bound by its own `Open` and by nobody else. -/
theorem Moves.session_eq_none (h : Moves draw m pc mv) {c : ClientRef}
    (hc : (m.client c).session = none) (hopens : pc.opens = some c → mv.point.opens = some c) :
    ((mv.after m).client c).session = none := by
  cases h with
  | @look p =>
      simp only [Move.after, Mem.pokeLive]
      split
      · exact hc
      · rw [Mem.poke_client]
        split_ifs
        · rw [Poke.apply_session, hc]
        · exact hc
  | @resume a newID p hv =>
      have hca : c ≠ a.c := by
        intro hca
        cases hopens (by rw [hca]; rfl)
      rw [Move.after, Mem.attachLocked_client, if_neg hca]
      exact hc
  | kill => simpa [Move.after] using hc
  | @make a newID reason victim =>
      have hca : c ≠ a.c := by
        intro hca
        cases hopens (by rw [hca]; rfl)
      cases newID with
      | none => exact hc
      | some id =>
          rw [Move.after, Mem.openFresh_some, Mem.fresh_client, if_neg hca]
          exact hc
  | leave hl hres =>
      rw [Move.after, (Mem.leave_unparked hl hres).1]
      exact hc
  | @park a =>
      rw [Move.after, Mem.park_client]
      split_ifs with hca
      · rw [← hca]
        exact hc
      · exact hc
  | popRemove =>
      rw [Move.after, Mem.removeLocked_eq]
      exact hc
  | _ => exact hc

end Pc

namespace Calls

/-- The commit that is still to come to a session. -/
def pending (f : Calls) (q : SessionRef) : Edit :=
  match f.pool.shared.owner (.session q) with
  | none => .keep
  | some t => (f.pc t).pendingAt q

/-- The memory with the commits made that are still to come. -/
def settled (f : Calls) : Mem := f.mem.pend f.pending

/-- The memory with everything done that is left of the calls that have their place. -/
def virtual (f : Calls) : Mem := (f.holder.rest f.mem).1.pend f.pending

/-- The parked sessions that an eviction or a sweep is going to discard. -/
def victims (f : Calls) : List SessionRef := (f.holder.rest f.mem).2

/-- What the call of a goroutine is going to return, once it has its place. -/
def promised (f : Calls) (t : Thread) : Option (Op × Reply) := (f.pc t).promise f.mem

section pending

variable {f g : Calls} (hf : f.pool.Owned Pc.holds) {t : Thread} {q : SessionRef}

include hf

/-- A session's pending edit is that of the goroutine holding its lock. -/
theorem pending_eq (ht : Lock.session q ∈ (f.pc t).holds) : f.pending q = (f.pc t).pendingAt q := by
  rw [pending, (hf (.session q) t).2 ht]

/-- If no other goroutine holds the session's lock, what is pending on it is this one's. -/
theorem pending_eq_of_others (h : ∀ u ≠ t, Lock.session q ∉ (f.pc u).holds) :
    f.pending q = (f.pc t).pendingAt q := by
  by_cases ht : Lock.session q ∈ (f.pc t).holds
  · exact pending_eq hf ht
  · have hfree : f.pool.shared.owner (.session q) = none := by
      refine Option.eq_none_iff_forall_ne_some.2 fun u hu => ?_
      have hmem := (hf (.session q) u).1 hu
      by_cases hut : u = t
      · exact ht (hut ▸ hmem)
      · exact h u hut hmem
    rw [pending, hfree, Pc.pendingAt_of_not_mem ht]

/-- One goroutine moves, and the commits of the others are still to come. -/
theorem pending_congr (hg : g.pool.Owned Pc.holds) (hothers : ∀ u ≠ t, g.pc u = f.pc u)
    (hq : (g.pc t).pendingAt q = (f.pc t).pendingAt q) : g.pending q = f.pending q := by
  by_cases h : ∃ u, u ≠ t ∧ Lock.session q ∈ (f.pc u).holds
  · obtain ⟨u, hu, hmem⟩ := h
    have hgmem : Lock.session q ∈ (g.pc u).holds := by rwa [hothers u hu]
    rw [pending_eq hf hmem, pending_eq hg hgmem, hothers u hu]
  · have hnone : ∀ u ≠ t, Lock.session q ∉ (f.pc u).holds := fun u hu hmem => h ⟨u, hu, hmem⟩
    have hgnone : ∀ u ≠ t, Lock.session q ∉ (g.pc u).holds := fun u hu => by
      rw [hothers u hu]
      exact hnone u hu
    rw [pending_eq_of_others hf hnone, pending_eq_of_others hg hgnone, hq]

end pending

/-- What is known besides `Inv`: the calls are on sessions that are there, and a connection
that is being opened is not bound, and is opened by one goroutine. -/
structure Apt (f : Calls) : Prop where
  inv : f.Inv
  named : ∀ t, ∀ p ∈ (f.pc t).names, p < f.mem.sessionCount
  opened : ∀ t c, (f.pc t).opens = some c → f.opened c = true
  unbound : ∀ t c, (f.pc t).opens = some c → (f.mem.client c).session = none
  once : ∀ t u c, (f.pc t).opens = some c → (f.pc u).opens = some c → t = u

/-- In the empty store no call names or opens anything. -/
theorem apt_init (opt : SessionOptions) (digest : String → String) (sendBuffer : ClientRef → ℤ) :
    (init opt digest sendBuffer).Apt where
  inv := inv_init opt digest sendBuffer
  named _ _ hp := nomatch hp
  opened _ _ h := nomatch h
  unbound _ _ h := nomatch h
  once _ _ _ h := nomatch h

variable {f g : Calls} {t : Thread}

/-- A call starts with references that exist. -/
theorem Starts.names {pc : Pc} (h : f.Starts pc) : ∀ p ∈ pc.names, p < f.mem.sessionCount := by
  cases pc with
  | deliver p data pol k =>
      cases k with
      | ret => exact fun q hq => List.mem_singleton.1 hq ▸ h
      | cast => exact absurd h id
  | touch p x => exact fun q hq => List.mem_singleton.1 hq ▸ h
  | leaveCall a => exact fun q hq => List.mem_singleton.1 hq ▸ h
  | cast targets data pol => exact h
  | openCall | sweepCall => exact fun q hq => nomatch hq
  | _ => exact absurd h id

/-- A call that opens for a client starts unopened, unbound, and marks the client. -/
theorem Starts.opens {pc : Pc} (h : f.Starts pc) {c : ClientRef} (hc : pc.opens = some c) :
    f.opened c = false ∧ (f.mem.client c).session = none ∧ f.marks pc c = true := by
  cases pc with
  | openCall a =>
      obtain rfl := Option.some.inj hc
      exact ⟨h.1, h.2, Function.update_self ..⟩
  | opening | openNamed | judging | refused | making => exact absurd h id
  | _ => cases hc

/-- Starting a call never unmarks a client. -/
theorem le_marks (pc : Pc) {c : ClientRef} (hc : f.opened c = true) : f.marks pc c = true := by
  cases pc with
  | openCall a =>
      rw [marks, Function.update_apply]
      split_ifs
      · rfl
      · exact hc
  | _ => exact hc

/-- A call starts. -/
theorem Apt.start (h : f.Apt) {pc : Pc} (hinv : g.Inv) (hs : f.Starts pc)
    (hpc : ∀ u, g.pc u = if u = t then pc else f.pc u) (hmem : g.mem = f.mem)
    (hopened : g.opened = f.marks pc) : g.Apt := by
  have hcases : ∀ {u c}, (g.pc u).opens = some c →
      u = t ∧ pc.opens = some c ∨ u ≠ t ∧ (f.pc u).opens = some c := by
    intro u c hu
    rw [hpc] at hu
    split_ifs at hu with hut
    · exact Or.inl ⟨hut, hu⟩
    · exact Or.inr ⟨hut, hu⟩
  refine ⟨hinv, fun u p hp => ?_, fun u c hu => ?_, fun u c hu => ?_, fun u w c hu hw => ?_⟩
  · rw [hmem]
    rw [hpc] at hp
    split_ifs at hp
    · exact hs.names p hp
    · exact h.named u p hp
  · rw [hopened]
    rcases hcases hu with ⟨-, hu⟩ | ⟨-, hu⟩
    · exact (hs.opens hu).2.2
    · exact le_marks pc (h.opened u c hu)
  · rw [hmem]
    rcases hcases hu with ⟨-, hu⟩ | ⟨-, hu⟩
    · exact (hs.opens hu).2.1
    · exact h.unbound u c hu
  · -- a connection that is being opened already cannot start again
    have hfresh : ∀ {u}, (f.pc u).opens = some c → pc.opens ≠ some c := fun hu hpc => by
      exact absurd (hs.opens hpc).1 (by rw [h.opened _ c hu]; decide)
    rcases hcases hu with ⟨rfl, hu⟩ | ⟨-, hu⟩ <;> rcases hcases hw with ⟨rfl, hw⟩ | ⟨-, hw⟩
    · rfl
    · exact absurd hu (hfresh hw)
    · exact absurd hw (hfresh hu)
    · exact h.once u w c hu hw

/-- A goroutine goes on with its call. -/
structure Moved (f : Calls) (t : Thread) (draw : Option String) (mv : Move Mem Lock Pc)
    (g : Calls) : Prop where
  moves : Pc.Moves draw f.mem (f.pc t) mv
  point : g.pc t = mv.point
  others : ∀ u ≠ t, g.pc u = f.pc u
  mem : g.mem = mv.after f.mem
  hist : g.hist = Function.update f.hist t (f.hist t ++ (f.pc t).answers.toList)
  opened : g.opened = f.opened

/-- An advance of the pool is one move of the goroutine's call. -/
theorem moved {draw : Option String} {q : Pool (Locked Mem Lock Thread) fun _ : Thread => Pc}
    (h : f.pool.advance Pc.code draw t = some q) :
    ∃ mv, f.Moved t draw mv { f with
      pool := q, hist := Function.update f.hist t (f.hist t ++ (f.pc t).answers.toList) } := by
  obtain ⟨mv, hcode, hpoint, hafter⟩ := Pool.exists_move h
  exact ⟨mv, Pc.moves hcode, hpoint, fun u hu => Pool.thread_of_ne h hu, hafter, rfl, rfl⟩

/-- A move adds no name and no opening, and binds only the connection it was opening. -/
theorem Apt.move (h : f.Apt) {draw : Option String} {mv : Move Mem Lock Pc} (hinv : g.Inv)
    (hmv : f.Moved t draw mv g) : g.Apt := by
  obtain ⟨hm, hpoint, hothers, hafter, -, hopened⟩ := hmv
  have hopens : ∀ {u c}, (g.pc u).opens = some c → (f.pc u).opens = some c := by
    intro u c hu
    by_cases hut : u = t
    · subst hut
      exact hm.opens (hpoint ▸ hu)
    · rwa [hothers u hut] at hu
  refine ⟨hinv, fun u p hp => ?_, fun u c hu => ?_, fun u c hu => ?_, fun u w c hu hw => ?_⟩
  · have hold : p ∈ (f.pc u).names := by
      by_cases hut : u = t
      · subst hut
        exact hm.names (hpoint ▸ hp)
      · rwa [hothers u hut] at hp
    rw [hafter]
    exact (h.named u p hold).trans_le hm.sessionCount_le
  · rw [hopened]
    exact h.opened u c (hopens hu)
  · rw [hafter]
    refine hm.session_eq_none (h.unbound u c (hopens hu)) fun ht => ?_
    -- the goroutine that opens the connection is the one that moved
    obtain rfl := h.once u t c (hopens hu) ht
    exact hpoint ▸ hu
  · exact h.once u w c (hopens hu) (hopens hw)

/-- Every step keeps the calls on sessions that are there and each opening with one goroutine. -/
theorem Apt.step {a : CallStep} (h : f.Apt) (hstep : f.Step a g) : g.Apt := by
  have hinv := h.inv.step hstep
  cases hstep.took with
  | start hidle hs => exact h.start hinv hs (fun u => Function.update_apply ..) rfl rfl
  | @advance t draw q hq =>
      obtain ⟨mv, hmv⟩ := moved hq
      exact h.move hinv hmv
  | @poke t c x op hop hidle hx =>
      have hsame : ∀ u, Function.update f.pool.thread t Pc.idle u = f.pc u := by
        intro u
        rw [Function.update_apply]
        split_ifs with hut
        · rw [hut, hidle]
        · rfl
      refine ⟨hinv, fun u p hp => h.named u p ?_, fun u d hu => h.opened u d ?_,
        fun u d hu => ?_, fun u w d hu hw => h.once u w d ?_ ?_⟩
      · exact hsame u ▸ hp
      · exact hsame u ▸ hu
      · have hd := h.unbound u d (hsame u ▸ hu)
        show ((f.mem.poke c x).client d).session = none
        rw [Mem.poke_client]
        split_ifs
        · rw [Poke.apply_session, hd]
        · exact hd
      · exact hsame u ▸ hu
      · exact hsame w ▸ hw

/-- Nothing is to be committed to a session that is not there. -/
theorem Apt.pending_sessionCount (h : f.Apt) : f.pending f.mem.sessionCount = .keep := by
  unfold pending
  cases f.pool.shared.owner (.session f.mem.sessionCount) with
  | none => rfl
  | some t =>
      have hnamed := h.named t
      dsimp only
      cases hpc : f.pc t with
      | queued p data pol e ok k =>
          have hp : p < f.mem.sessionCount := hnamed p (by rw [hpc]; exact List.mem_cons_self ..)
          exact if_neg hp.ne'
      | _ => rfl

/-- What is left of a store call comes to the same on the memory with the commits made. -/
theorem Apt.rest_settled (h : f.Apt) : f.holder.rest f.settled = (f.virtual, f.victims) :=
  Pc.rest_pend _ h.pending_sessionCount

end Calls
end GoSocket
