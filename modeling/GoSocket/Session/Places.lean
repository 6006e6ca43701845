/-
# The place of a call in the serial order

A serial run is a list of calls, each one step of the memory with its result (`Mem.Call`).
Here is what such a run needs to know of the moves of a goroutine: a move that places a
call of the store makes the step of the whole call (`Moves.places`), a call on one
session makes the same step in every memory in which that session is the same
(`Alike.deliver`, `Alike.touch`), and what is returned was promised when the call got its
place (`Moves.account`).

A call does not mind the edits of sessions it does not name (`Call.edit`), which is why a
delivery to a session that is about to be discarded can be put before the call that
discards it.
-/

import GoSocket.Session.Rest

namespace GoSocket

open Lib

namespace Op

/-- The locks a call takes. -/
def locks : Op → List Lock
  | .openSession .. | .sweep _ => [.store]
  | .leave p .. => [.store, .session p]
  | .deliver p _ _ | .ack p _ | .claimKey p _ => [.session p]
  | .trySend .. | .write _ | .closeRaw _ | .shutdown _ => []

/-- The call does not mind an edit of the session at `v`. -/
def Apart (v : SessionRef) : Op → Prop
  | .deliver p _ _ | .ack p _ | .claimKey p _ | .leave p .. => p ≠ v
  | .sweep _ | .write _ | .closeRaw _ | .shutdown _ => True
  | .openSession .. | .trySend .. => False

/-- A call apart from a session does not take its lock. -/
theorem Apart.locks {v : SessionRef} {op : Op} (h : op.Apart v) : Lock.session v ∉ op.locks := by
  cases op <;> first | exact absurd h id | simp_all [Apart, Op.locks, eq_comm]

end Op

namespace Mem

/-- A connection calls `Open` once, and its write pump starts after that. -/
def Admits (m : Mem) : Op → Prop
  | .openSession c .. => (m.client c).session = none
  | .write c => (m.client c).session ≠ none
  | _ => True

/-- One call of a serial run: it is one step, and this is what it returns. -/
structure Call (m : Mem) (x : Thread × Op × Reply) (m' : Mem) : Prop where
  step : m.Step x.2.1 m'
  returns : m.reply x.2.1 = x.2.2
  admitted : m.Admits x.2.1

/-- **A call does not mind the edits of other sessions.** -/
theorem Call.edit {m m' : Mem} {x : Thread × Op × Reply} (h : m.Call x m')
    {u : SessionRef × Edit} (hx : x.2.1.Apart u.1) : (m.edit u).Call x (m'.edit u) := by
  obtain ⟨t, op, reply⟩ := x
  obtain ⟨hstep, hreply, hadmit⟩ := h
  obtain rfl : m.reply op = reply := hreply
  cases hstep.took with
  | openSession | trySend => exact absurd hx id
  | deliver p data pol hp =>
      have hne : u.1 ≠ p := Ne.symm hx
      have hs : (m.edit u).session p = m.session p := by rw [edit_session, if_neg hx]
      have hl : (m.edit u).liveClient p = m.liveClient p := by
        rw [liveClient, hs, edit_client, liveClient]
      refine ⟨?_, ?_, trivial⟩
      · rw [Step, Mem.step, edit_sessionCount, if_pos hp, deliver_eq_edit, deliver_eq_edit, hs, hl,
          edit_comm _ hne, pokeLive_edit]
      · simp only [reply, deliver_eq_edit, hs, hl]
  | ack p seq hp =>
      have hne : u.1 ≠ p := Ne.symm hx
      refine ⟨?_, rfl, trivial⟩
      rw [Step, Mem.step, edit_sessionCount, if_pos hp, ack_eq_edit, ack_eq_edit,
        edit_comm _ hne]
  | claimKey p key hp =>
      have hne : u.1 ≠ p := Ne.symm hx
      have hs : (m.edit u).session p = m.session p := by rw [edit_session, if_neg hx]
      refine ⟨?_, ?_, trivial⟩
      · rw [Step, Mem.step, edit_sessionCount, if_pos hp, claimKey_eq_edit, claimKey_eq_edit,
          edit_store, edit_comm _ hne]
      · simp only [reply, claimKey_eq_edit, hs, edit_store]
  | leave p c resumable now hp =>
      have hkeep : Function.update (fun _ => Edit.keep) u.1 u.2 p = .keep :=
        Function.update_of_ne hx ..
      rw [edit_eq_pend, edit_eq_pend]
      refine ⟨?_, ?_, trivial⟩
      · rw [Step, Mem.step, pend_sessionCount, if_pos hp, leave_pend m _ p c hkeep]
      · simp only [reply, leave_pend m _ p c hkeep]
  | sweep now =>
      rw [edit_eq_pend, edit_eq_pend]
      refine ⟨?_, ?_, trivial⟩
      · rw [Step, Mem.step, sweep, pend_store, sweepLoop_pend]
        rfl
      · simp only [reply, sweep, pend_store, sweepLoop_pend]
  | write c cl hcl =>
      refine ⟨?_, rfl, hadmit⟩
      rw [Step, Mem.step, edit_client, hcl]
      rfl
  | closeRaw c => exact ⟨rfl, rfl, trivial⟩
  | shutdown c => exact ⟨rfl, rfl, trivial⟩

/-- For a call on it the session at `p` is the same in both memories. -/
structure Alike (b m : Mem) (p : SessionRef) : Prop where
  session : ∃ el, b.session p = { m.session p with elem := el }
  client : ∀ c, (m.session p).live = some c →
    ∃ ses rep, b.client c = { m.client c with session := ses, replay := rep }
  opt : b.store.opt = m.store.opt
  there : p < b.sessionCount

namespace Alike

variable {b m : Mem} {p : SessionRef}

/-- Alike stores agree on the session's live client. -/
theorem live (h : b.Alike m p) : (b.session p).live = (m.session p).live := by
  obtain ⟨el, hs⟩ := h.session
  rw [hs]

/-- Alike stores agree on what a delivery would do. -/
theorem look (h : b.Alike m p) (data : Bytes) (pol : SendPolicy) :
    (b.session p).look (b.liveClient p) data pol =
      (m.session p).look (m.liveClient p) data pol := by
  have hlive := h.live
  obtain ⟨el, hs⟩ := h.session
  refine Session.look_congr (by rw [hs]) (by rw [hs]) (by rw [hs]) (fun frame => ?_) data pol
  unfold liveClient
  rw [hlive]
  cases hl : (m.session p).live with
  | none => rfl
  | some c =>
      obtain ⟨ses, rep, hc⟩ := h.client c hl
      simp only [Option.map_some, hc, Option.some.injEq]
      unfold Client.enqueue
      dsimp only
      split_ifs <;> rfl

/-- A delivery at the alike store gives the same answer and makes the same edit and poke. -/
theorem deliver (h : b.Alike m p) (t : Thread) (data : Bytes) (pol : SendPolicy) :
    b.Call (t, .deliver p data pol, .delivered ((m.session p).look (m.liveClient p) data pol).2.2)
      ((b.edit (p, ((m.session p).look (m.liveClient p) data pol).1)).pokeLive p
        ((m.session p).look (m.liveClient p) data pol).2.1) := by
  refine ⟨?_, ?_, trivial⟩
  · rw [Step, step, if_pos h.there, deliver_eq_edit, h.look]
  · simp only [reply, deliver_eq_edit, h.look]

/-- An ack or a key claim at the alike store gives the same answer and makes the same edit. -/
theorem touch (h : b.Alike m p) (t : Thread) (x : Touch) :
    b.Call (t, x.op p, x.reply m p) (b.edit (p, x.edit m.store.opt.digest)) := by
  obtain ⟨el, hs⟩ := h.session
  cases x with
  | ack seq =>
      refine ⟨?_, rfl, trivial⟩
      rw [Step, Touch.op, step, if_pos h.there, ack_eq_edit]
      rfl
  | claimKey key =>
      refine ⟨?_, ?_, trivial⟩
      · rw [Step, Touch.op, step, if_pos h.there, claimKey_eq_edit, h.opt]
        rfl
      · simp only [reply, Touch.op, Touch.reply, claimKey_eq_edit, h.opt, hs]

end Alike

variable {m : Mem} {req : ResumeRequest} {p : SessionRef}

/-- An `open` that names no session opens a fresh one. -/
theorem open_of_namesNone {reason : Option Reason} (h : Pc.NamesNone m req reason) (c : ClientRef)
    (now : ℤ) (newID : Option String) :
    m.open c req now newID = m.openFresh c req.owner newID reason none := by
  unfold Mem.open
  cases h with
  | invalid hinv => rw [if_pos hinv]
  | unknown hinv hreq hnone => simp [hinv, hreq, hnone]
  | plain hinv hreq => simp [hinv, hreq]

section named

variable (h : Pc.Names m req p) (c : ClientRef) {now : ℤ} (newID : Option String)

include h

/-- An `open` whose named session passes every check attaches to it. -/
theorem open_of_resume (hv : ((m.session p).verdict req now m.store.opt.ttl).1 = none) :
    m.open c req now newID =
      ((m.attachLocked p c req.lastSeq).1, (m.attachLocked p c req.lastSeq).2, []) := by
  rcases hw : (m.session p).verdict req now m.store.opt.ttl with ⟨_ | reason, kill⟩
  · simp [Mem.open, h.valid, h.requested, h.stored, hw]
  · simp [hw] at hv

/-- An `open` whose named session is to be killed discards it and opens a fresh one. -/
theorem open_of_kill {reason : Reason}
    (hv : (m.session p).verdict req now m.store.opt.ttl = (some reason, true)) :
    m.open c req now newID =
      (m.discard p).openFresh c req.owner newID (some reason) (some p) := by
  simp [Mem.open, h.valid, h.requested, h.stored, hv]

/-- An `open` refused without a kill opens a fresh session and leaves the named one be. -/
theorem open_of_refuse {reason : Reason}
    (hv : (m.session p).verdict req now m.store.opt.ttl = (some reason, false)) :
    m.open c req now newID = m.openFresh c req.owner newID (some reason) none := by
  simp [Mem.open, h.valid, h.requested, h.stored, hv]

end named

/-- An `open` for an unbound client is one call. -/
theorem call_open {a : OpenArgs} {newID : Option String} {r : Mem} {res : OpenResult}
    {due : List Release} (hid : m.Unused newID)
    (h : m.open a.c a.req a.now newID = (r, res, due)) (hc : (m.client a.c).session = none)
    (t : Thread) : m.Call (t, a.op newID, .opened res due) r := by
  refine ⟨?_, ?_, hc⟩
  · have hstep : m.step (a.op newID) = some (m.open a.c a.req a.now newID).1 := if_pos hid
    rw [Step, hstep, h]
  · simp only [reply, OpenArgs.op, h]

/-- A `leave` of a session that exists is one call. -/
theorem call_leave {a : LeaveArgs} {r : Mem} {res : LeaveResult} {due : List Release}
    (hp : a.p < m.sessionCount) (h : m.leave a.p a.c a.resumable a.now = (r, res, due))
    (t : Thread) : m.Call (t, a.op, .left res due) r := by
  refine ⟨?_, ?_, trivial⟩
  · have hstep : m.step a.op = some (m.leave a.p a.c a.resumable a.now).1 := if_pos hp
    rw [Step, hstep, h]
  · simp only [reply, LeaveArgs.op, h]

/-- The session that leaves is the last of the list, so it is not evicted by its own `Leave`. -/
theorem not_mem_run_park {a : LeaveArgs} (h : m.Linked) (hs : (m.session a.p).state = .attached) :
    a.p ∉ ((PopLoop.evict a).run (m.park a.p a.c a.now)).2 := by
  have hpop := evictLoop_popped (h.park hs a.c a.now) le_rfl
  have hfew : m.store.parked.length + 1 - m.store.opt.maxParked ≤ m.store.parked.length := by
    have := m.store.opt.maxParked_pos
    omega
  intro hmem
  rw [PopLoop.run, hpop.sessions] at hmem
  simp only [park_parked, park_opt, List.length_append, List.length_singleton,
    List.take_append_of_le_length hfew] at hmem
  obtain ⟨⟨e, w⟩, hx, rfl⟩ := List.mem_map.1 hmem
  have hparked := ((h.session a.p).elem ((h.session _).listed.1 (List.mem_of_mem_take hx))).1
  rw [hs] at hparked
  cases hparked

end Mem

namespace Pc

variable {m : Mem} {pc : Pc} {mv : Move Mem Lock Pc} {draw : Option String}

/-- **A call of the store gets its place.**  The step is the one of the whole call, on the
memory with the commits `E` of others made, and the parked sessions it is going to discard
are as they were. -/
theorem Moves.places (h : Moves draw m pc mv) (hgood : pc.Good m)
    (hstore : Lock.store ∈ pc.holds ∨ Lock.store ∈ mv.point.holds)
    (hnamed : ∀ p ∈ pc.names, p < m.sessionCount) {E : SessionRef → Edit}
    (hE : E m.sessionCount = .keep)
    (hheld : ∀ q, Lock.session q ∈ pc.holds → E q = .keep)
    (hopens : ∀ c, pc.opens = some c → (m.client c).session = none) {x : Op × Reply}
    (hnone : pc.promise m = none) (hx : mv.point.promise (mv.after m) = some x) (t : Thread) :
    (m.pend E).Call (t, x) ((mv.point.rest (mv.after m)).1.pend E) ∧
      ∀ v ∈ (mv.point.rest (mv.after m)).2,
        x.1.Apart v ∧ v < m.sessionCount ∧ (mv.after m).session v = m.session v := by
  -- the session that is held has no commit to come
  have hkeep : ∀ {q}, Lock.session q ∈ pc.holds → (m.pend E).session q = m.session q := by
    intro q hq
    rw [Mem.pend_session, hheld q hq, Edit.apply_keep]
  cases h with
  | @unnamed a newID reason hn =>
      obtain rfl := Option.some.inj hx
      have hn' : NamesNone (m.pend E) a.req reason := by
        cases hn with
        | invalid hinv => exact .invalid hinv
        | unknown hinv hreq hnone => exact .unknown hinv hreq hnone
        | plain hinv hreq => exact .plain hinv hreq
      have hopen := Mem.open_of_namesNone hn' a.c a.now newID
      rw [m.openFresh_pend E a.c hE] at hopen
      exact ⟨Mem.call_open (m := m.pend E) hgood.2 hopen (hopens a.c rfl) t,
        fun v hv => by cases hv⟩
  | @resume a newID p hv =>
      obtain rfl := Option.some.inj hx
      obtain ⟨-, hid, hn⟩ := hgood
      have hp := hkeep (q := p) (by simp [holds])
      have hopen := Mem.open_of_resume (m := m.pend E) ⟨hn.valid, hn.requested, hn.stored⟩ a.c newID
        (by rwa [hp])
      rw [m.attachLocked_pend E p a.c (hheld p (by simp [holds]))] at hopen
      exact ⟨Mem.call_open (m := m.pend E) hid hopen (hopens a.c rfl) t,
        fun v hv => by cases hv⟩
  | @kill a newID p reason hv =>
      obtain rfl := Option.some.inj hx
      obtain ⟨-, hid, hn⟩ := hgood
      have hp := hkeep (q := p) (by simp [holds])
      have hopen := Mem.open_of_kill (m := m.pend E) ⟨hn.valid, hn.requested, hn.stored⟩ a.c newID
        (by rwa [hp])
      have hE' : E (m.discard p).sessionCount = .keep := by rwa [Mem.discard_sessionCount]
      rw [Mem.discard_pend, (m.discard p).openFresh_pend E a.c hE'] at hopen
      exact ⟨Mem.call_open (m := m.pend E) hid hopen (hopens a.c rfl) t,
        fun v hv => by cases hv⟩
  | @refuse a newID p reason hv =>
      obtain rfl := Option.some.inj hx
      obtain ⟨-, hid, hn⟩ := hgood
      have hp := hkeep (q := p) (by simp [holds])
      have hopen := Mem.open_of_refuse (m := m.pend E) ⟨hn.valid, hn.requested, hn.stored⟩ a.c newID
        (by rwa [hp])
      rw [m.openFresh_pend E a.c hE] at hopen
      exact ⟨Mem.call_open (m := m.pend E) hid hopen (hopens a.c rfl) t,
        fun v hv => by cases hv⟩
  | @leave a r res hl hres =>
      obtain rfl := Option.some.inj hx
      have hleave := m.leave_pend E a.p a.c (hheld a.p (by simp [holds])) a.resumable a.now
      rw [hl] at hleave
      exact ⟨Mem.call_leave (m := m.pend E) (hnamed a.p (List.mem_singleton.2 rfl)) hleave t,
        fun v hv => by cases hv⟩
  | @park a hopen hlive hres =>
      obtain rfl := Option.some.inj hx
      have hl := Mem.StoreInv.linked hgood
      have hs := hl.attached_of_live hopen hlive
      have hleave := m.leave_pend E a.p a.c (hheld a.p (by simp [holds])) a.resumable a.now
      have hparks : m.leave a.p a.c a.resumable a.now =
          (((PopLoop.evict a).run (m.park a.p a.c a.now)).1, .parked,
            ((PopLoop.evict a).run (m.park a.p a.c a.now)).2.map fun v => (v, .evicted)) := by
        rw [Mem.leave, if_neg hopen, if_neg (not_not.2 hlive), if_neg (by simp [hres])]
        rfl
      rw [hparks] at hleave
      refine ⟨Mem.call_leave (m := m.pend E) (hnamed a.p (List.mem_singleton.2 rfl)) hleave t,
        fun v hv => ?_⟩
      have hne : a.p ≠ v := fun heq => Mem.not_mem_run_park hl hs (heq ▸ hv)
      have hv' : (m.park a.p a.c a.now).session v = m.session v := by
        rw [Mem.park_session, if_neg (Ne.symm hne)]
      have hparked := PopLoop.state_of_mem_run (hl.park hs a.c a.now) hv
      rw [hv'] at hparked
      exact ⟨hne, (hl.session v).allocated (by rw [hparked]; decide), hv'⟩
  | @sweepCall now =>
      obtain rfl := Option.some.inj hx
      have hl := Mem.StoreInv.linked hgood
      have hsweep : (m.pend E).sweep now = (((PopLoop.sweep now).run m).1.pend E,
          ((PopLoop.sweep now).run m).2.map fun v => (v, .expired)) := by
        rw [Mem.sweep, Mem.pend_store, Mem.sweepLoop_pend]
        rfl
      refine ⟨⟨?_, ?_, trivial⟩, fun v hv => ⟨trivial, ?_, rfl⟩⟩
      · exact congrArg (fun r => some r.1) hsweep
      · exact congrArg (fun r => Reply.swept r.2) hsweep
      · have hparked := PopLoop.state_of_mem_run hl hv
        exact (hl.session v).allocated (by rw [hparked]; decide)
  | _ =>
      first
        | (simp [holds, Move.point] at hstore; done)
        | (simp [promise, Move.point] at hx; done)
        | simp [promise] at hnone

/-- Without the store lock nothing is left to do to the store. -/
theorem rest_of_not_mem (h : Lock.store ∉ pc.holds) (m : Mem) : pc.rest m = (m, []) := by
  cases pc with
  | refused | making | parked | popLoop | popFront | popHeld | popClosed | popFreed =>
      simp [holds] at h
  | _ => rfl

/-- A quiet move outside of the store lock writes a commit that was to come, or nothing. -/
theorem Moves.settles (h : Moves draw m pc mv) (hpc : Lock.store ∉ pc.holds)
    (hq : pc.promise m ≠ none ∨ mv.point.promise (mv.after m) = none) :
    mv.after m = { m with session := (mv.after m).session } ∧ ∀ q,
      mv.point.pendingAt q = pc.pendingAt q ∧ (mv.after m).session q = m.session q ∨
        Lock.session q ∈ pc.holds ∧ Lock.session q ∈ mv.point.holds ∧
          (mv.point.pendingAt q).apply ((mv.after m).session q) =
            (pc.pendingAt q).apply (m.session q) := by
  cases h with
  | look | touching => simp [promise, Move.point] at hq
  | @commit p data pol e ok k =>
      refine ⟨rfl, fun q => ?_⟩
      by_cases hqp : q = p
      · subst hqp
        exact Or.inr ⟨by simp [holds], by simp [Move.point, holds],
          by simp [Move.point, Move.after, pendingAt]⟩
      · exact Or.inl (by simp [Move.point, Move.after, pendingAt, hqp])
  | @delivered p data pol ok k => cases k <;> exact ⟨rfl, fun q => Or.inl ⟨rfl, rfl⟩⟩
  | deliver | touch | touched | cast | castNext | castDone | openCall | leaveCall | sweepCall
  | released | release | read | noMember | member | unregister | unregistered =>
      exact ⟨rfl, fun q => Or.inl ⟨rfl, rfl⟩⟩
  | _ => simp [holds] at hpc

/-- A call that does not hold the store's lock fits every store in order. -/
theorem good_of_not_mem (h : Lock.store ∉ pc.holds) (hm : m.StoreInv) : pc.Good m := by
  cases pc with
  | opening | openNamed | judging | refused | making | parked | popLoop | popFront | popHeld
  | popClosed | popFreed => simp [holds] at h
  | _ => exact hm

/-- A delivery is not a call of the store. -/
theorem Moves.pendingAt (h : Moves draw m pc mv)
    (hstore : Lock.store ∈ pc.holds ∨ Lock.store ∈ mv.point.holds) (q : SessionRef) :
    pc.pendingAt q = .keep ∧ mv.point.pendingAt q = .keep := by
  cases h with
  | look | commit => simp [holds, Move.point] at hstore
  | @delivered p data pol ok k => cases k <;> exact ⟨rfl, rfl⟩
  | _ => exact ⟨rfl, rfl⟩

/-- What is returned was promised. -/
theorem answers_eq_promise (m : Mem) (h : pc.answers ≠ none) : pc.answers = pc.promise m := by
  cases pc <;> first | rfl | exact absurd rfl h

/-- A move that places no call keeps the promise or makes good on it. -/
theorem Moves.account (h : Moves draw m pc mv) (hgood : Lock.store ∈ pc.holds → pc.Good m)
    (hq : pc.promise m ≠ none ∨ mv.point.promise (mv.after m) = none) :
    pc.answers.toList ++ (mv.point.promise (mv.after m)).toList = (pc.promise m).toList := by
  cases h with
  | @delivered p data pol ok k => cases k <;> rfl
  | parked => rfl
  | @loopDone k acc hf =>
      simp only [Move.point, promise, PopLoop.run_of_front_eq_none hf, List.append_nil]
      rfl
  | @popStop k acc v ht =>
      have hf := (hgood (by simp [holds])).2.2
      simp only [Move.point, promise, PopLoop.run_of_takes_eq_false hf ht, List.append_nil]
      rfl
  | @popClose k acc v ht =>
      obtain ⟨hl, -, hf⟩ := hgood (by simp [holds])
      simp only [Move.point, Move.after, promise, PopLoop.run_of_takes hl hf ht,
        Mem.removeLocked_close]
      rfl
  | @popRemove k acc v =>
      simp only [Move.point, Move.after, promise, List.append_assoc, List.singleton_append]
      rfl
  | _ => first | rfl | simp [promise, Move.point] at hq

/-- Outside of the store lock a move does not change what the others are going to do. -/
theorem Moves.promise_beside (h : Moves draw m pc mv) (hpc : Lock.store ∉ pc.holds)
    (hnamed : ∀ p ∈ pc.names, p < m.sessionCount) (x : Pc) :
    x.promise (mv.after m) = x.promise m := by
  cases h with
  | look => exact promise_pokeLive x ((Session.look_ne_write _ _ _ _))
  | commit => exact promise_edit x (hnamed _ (List.mem_cons_self ..))
  | touching => exact promise_edit x (hnamed _ (List.mem_cons_self ..))
  | deliver | delivered | touch | touched | cast | castNext | castDone | openCall | leaveCall
  | sweepCall | released | release | read | noMember | member | unregister | unregistered => rfl
  | _ => simp [holds] at hpc

end Pc

end GoSocket
