/-
# The session layer with its locks

`Mem.step` takes a call into the session layer as one step.  Here the goroutines make
their calls statement by statement: `code` is the text of `Open`, `Leave`, `Sweep`,
`deliver`, `Ack`, `ClaimKey` and `releaseSession`, cut where a lock is taken or given
back and, in `deliver`, between the frame that goes on the queue and the commit of its
number.  `Leave` gives the lock of the leaving session back before it evicts, and both
loops give the lock of a victim back before they take it off the store.

"Lock order: SessionStore.mu -> Session.mu", says the source, and that `Release` "runs
outside all locks".  A request to the hub is a rendezvous with its goroutine, which is
busy while it sends a job to its targets: whoever makes a request waits as for a lock
(`Lock.hub`), and the hub has that lock during a broadcast.  The three ranks
are a discipline (`discipline`), so **no interleaving of calls ends in a deadlock, and
every call ends** (`calls_return`): no goroutine makes more than `Pc.budget` moves in a call.

The counters of `Open`, which only `Stats` reads, are added with the binding; the clock
is read before the call; the draw of a session id is an argument of `code`, and the one
thing that is assumed of it is that the id is not in use.  A connection calls `Open`
once, and its write pump starts after it.
-/

import GoSocket.Lib.Locks
import GoSocket.Session.Edits

namespace GoSocket

open Lib

/-- A goroutine. -/
abbrev Thread := ℕ

/-- What goroutines wait for. -/
inductive Lock where
  | hub
  | store
  | session (p : SessionRef)
  deriving DecidableEq

/-- The lock order. -/
def Lock.rank : Lock → ℕ
  | .hub => 0
  | .store => 1
  | .session _ => 2

/-- What a call returns; `due` are the sessions it releases before it does. -/
inductive Reply where
  | opened (res : OpenResult) (due : List Release)
  | left (res : LeaveResult) (due : List Release)
  | swept (due : List Release)
  | delivered (ok : Bool)
  | claimed (ok : Bool)
  | done
  deriving DecidableEq

def Reply.due : Reply → List Release
  | .opened _ due | .left _ due | .swept due => due
  | .delivered _ | .claimed _ | .done => []

/-- What the call returns if it is one step. -/
def Mem.reply (m : Mem) : Op → Reply
  | .openSession c req now newID =>
      .opened (m.open c req now newID).2.1 (m.open c req now newID).2.2
  | .leave p c resumable now =>
      .left (m.leave p c resumable now).2.1 (m.leave p c resumable now).2.2
  | .sweep now => .swept (m.sweep now).2
  | .deliver p data pol => .delivered (m.deliver p data pol).2
  | .trySend c data pol => .delivered (m.trySendPolicy c data pol).2
  | .claimKey p key => .claimed (m.claimKey p key).2
  | .ack .. | .write _ | .closeRaw _ | .shutdown _ => .done

/-- The arguments of `Open`, and when it read the clock. -/
structure OpenArgs where
  c : ClientRef
  req : ResumeRequest
  now : ℤ
  deriving DecidableEq

/-- The arguments of `Leave`, and when it read the clock. -/
structure LeaveArgs where
  p : SessionRef
  c : ClientRef
  resumable : Bool
  now : ℤ
  deriving DecidableEq

/-- The two loops over the parked list. -/
inductive PopLoop where
  | evict (a : LeaveArgs)
  | sweep (now : ℤ)
  deriving DecidableEq

/-- `Ack` and `ClaimKey`. -/
inductive Touch where
  | ack (seq : ℕ)
  | claimKey (key : String)
  deriving DecidableEq

/-- What comes after a delivery: the end of the call, or the rest of a broadcast. -/
inductive After where
  | ret
  | cast (rest : List SessionRef) (data : Bytes) (pol : SendPolicy)
  deriving DecidableEq

/-- Where a goroutine is. -/
inductive Pc where
  | idle
  /-- `deliver`: before its lock, before its look, before its write, before `Unlock`. -/
  | deliver (p : SessionRef) (data : Bytes) (pol : SendPolicy) (k : After)
  | delivering (p : SessionRef) (data : Bytes) (pol : SendPolicy) (k : After)
  | queued (p : SessionRef) (data : Bytes) (pol : SendPolicy) (e : Edit) (ok : Bool) (k : After)
  | delivered (p : SessionRef) (data : Bytes) (pol : SendPolicy) (ok : Bool) (k : After)
  /-- `Ack` and `ClaimKey`: before the lock, before the write, before `Unlock`. -/
  | touch (p : SessionRef) (x : Touch)
  | touching (p : SessionRef) (x : Touch)
  | touched (p : SessionRef) (x : Touch) (reply : Reply)
  /-- The hub: before it takes a job, and in the loop of `emitToTargets`. -/
  | cast (targets : List SessionRef) (data : Bytes) (pol : SendPolicy)
  | casting (rest : List SessionRef) (data : Bytes) (pol : SendPolicy)
  /-- `Open`: before the store lock; under it; before the lock of the session named and
  under it; after a refusal, with a session that was discarded; and before a new session. -/
  | openCall (a : OpenArgs)
  | opening (a : OpenArgs) (newID : Option String)
  | openNamed (a : OpenArgs) (newID : Option String) (p : SessionRef)
  | judging (a : OpenArgs) (newID : Option String) (p : SessionRef)
  | refused (a : OpenArgs) (newID : Option String) (p : SessionRef) (reason : Reason)
      (victim : Option SessionRef)
  | making (a : OpenArgs) (newID : Option String) (reason : Option Reason)
      (victim : Option SessionRef)
  /-- `Leave`: before the store lock, before the session's, under both, and after parking. -/
  | leaveCall (a : LeaveArgs)
  | leaving (a : LeaveArgs)
  | leftWith (a : LeaveArgs)
  | parked (a : LeaveArgs)
  | sweepCall (now : ℤ)
  /-- The loops: at their test; before the lock of the front session and under it; after
  closing it; after `Unlock`, before `removeLocked`; and with a front that is young. -/
  | popLoop (k : PopLoop) (acc : List SessionRef)
  | popFront (k : PopLoop) (acc : List SessionRef) (v : SessionRef)
  | popHeld (k : PopLoop) (acc : List SessionRef) (v : SessionRef)
  | popClosed (k : PopLoop) (acc : List SessionRef) (v : SessionRef)
  | popFreed (k : PopLoop) (acc : List SessionRef) (v : SessionRef)
  | popYoung (k : PopLoop) (acc : List SessionRef) (v : SessionRef)
  /-- Before `s.mu.Unlock()` and `st.mu.Unlock()` at the end of `Open` and `Leave`. -/
  | bound (p : SessionRef) (op : Op) (reply : Reply)
  | done (op : Op) (reply : Reply)
  /-- `releaseOne` and `releaseSession`: `Member`, with the session's lock, and `Unregister`. -/
  | releasing (due : List Release)
  | reading (x : Release) (due : List Release)
  | member (x : Release) (c : Option ClientRef) (due : List Release)
  | unregister (due : List Release)
  | unregistered (due : List Release)
  deriving DecidableEq

def OpenArgs.op (a : OpenArgs) (newID : Option String) : Op :=
  .openSession a.c a.req a.now newID

def LeaveArgs.op (a : LeaveArgs) : Op := .leave a.p a.c a.resumable a.now

namespace PopLoop

def op : PopLoop → Op
  | .evict a => a.op
  | .sweep now => .sweep now

/-- What the call returns after the loop has popped the sessions `acc`. -/
def reply (acc : List SessionRef) : PopLoop → Reply
  | .evict _ => .left .parked (acc.map fun v => (v, .evicted))
  | .sweep _ => .swept (acc.map fun v => (v, .expired))

/-- The session the loop looks at next. -/
def front (m : Mem) : PopLoop → Option SessionRef
  | .evict _ =>
      if m.store.opt.maxParked < m.store.parked.length then m.store.parked.head?.map Prod.snd
      else none
  | .sweep _ => m.store.parked.head?.map Prod.snd

/-- Whether it takes it: a sweep stops at a session that is young enough. -/
def takes (m : Mem) (v : SessionRef) : PopLoop → Bool
  | .evict _ => true
  | .sweep now => decide (m.store.opt.ttl < now - (m.session v).parked)

end PopLoop

namespace Touch

def op (p : SessionRef) : Touch → Op
  | .ack seq => .ack p seq
  | .claimKey key => .claimKey p key

def edit (digest : String → String) : Touch → Edit
  | .ack seq => .ack seq
  | .claimKey key => .claim (Session.windowKey digest key)

def reply (m : Mem) (p : SessionRef) : Touch → Reply
  | .ack _ => .done
  | .claimKey key => .claimed (m.claimKey p key).2

end Touch

def After.point : After → Pc
  | .ret => .idle
  | .cast rest data pol => .casting rest data pol

namespace Pc

/-- What a goroutine does next. -/
def code (draw : Option String) (m : Mem) : Pc → Option (Move Mem Lock Pc)
  | .idle => none
  | .deliver p data pol k => some (.lock (.session p) (.delivering p data pol k))
  | .delivering p data pol k =>
      let r := (m.session p).look (m.liveClient p) data pol
      some (.work (m.pokeLive p r.2.1) (.queued p data pol r.1 r.2.2 k))
  | .queued p data pol e ok k => some (.work (m.edit (p, e)) (.delivered p data pol ok k))
  | .delivered p _ _ _ k => some (.unlock (.session p) k.point)
  | .touch p x => some (.lock (.session p) (.touching p x))
  | .touching p x =>
      some (.work (m.edit (p, x.edit m.store.opt.digest)) (.touched p x (x.reply m p)))
  | .touched p _ _ => some (.unlock (.session p) .idle)
  | .cast targets data pol => some (.lock .hub (.casting targets data pol))
  | .casting [] _ _ => some (.unlock .hub .idle)
  | .casting (p :: rest) data pol => some (.work m (.deliver p data pol (.cast rest data pol)))
  | .openCall a =>
      if ∀ id ∈ draw, m.store.sessions id = none then some (.lock .store (.opening a draw))
      else none
  | .opening a newID =>
      if a.req.invalid then some (.work m (.making a newID (some .badRequest) none))
      else if a.req.requested then
        match m.store.sessions a.req.sessionID with
        | none => some (.work m (.making a newID (some .unknownSession) none))
        | some p => some (.work m (.openNamed a newID p))
      else some (.work m (.making a newID none none))
  | .openNamed a newID p => some (.lock (.session p) (.judging a newID p))
  | .judging a newID p =>
      match (m.session p).verdict a.req a.now m.store.opt.ttl with
      | (none, _) =>
          let r := m.attachLocked p a.c a.req.lastSeq
          some (.work r.1 (.bound p (a.op newID) (.opened r.2 [])))
      | (some reason, true) => some (.work (m.discard p) (.refused a newID p reason (some p)))
      | (some reason, false) => some (.work m (.refused a newID p reason none))
  | .refused a newID p reason victim =>
      some (.unlock (.session p) (.making a newID (some reason) victim))
  | .making a newID reason victim =>
      let r := m.openFresh a.c a.req.owner newID reason victim
      some (.work r.1 (.done (a.op newID) (.opened r.2.1 r.2.2)))
  | .leaveCall a => some (.lock .store (.leaving a))
  | .leaving a => some (.lock (.session a.p) (.leftWith a))
  | .leftWith a =>
      let s := m.session a.p
      if s.state = .closed then some (.work m (.bound a.p a.op (.left .gone [])))
      else if s.live ≠ some a.c then some (.work m (.bound a.p a.op (.left .displaced [])))
      else if a.resumable = false then
        some (.work ((m.setSession a.p { s with state := .closed, live := none }).removeLocked a.p)
          (.bound a.p a.op (.left .gone [])))
      else some (.work (m.park a.p a.c a.now) (.parked a))
  | .parked a => some (.unlock (.session a.p) (.popLoop (.evict a) []))
  | .sweepCall now => some (.lock .store (.popLoop (.sweep now) []))
  | .popLoop k acc =>
      match k.front m with
      | none => some (.work m (.done k.op (k.reply acc)))
      | some v => some (.work m (.popFront k acc v))
  | .popFront k acc v => some (.lock (.session v) (.popHeld k acc v))
  | .popHeld k acc v =>
      if k.takes m v then some (.work (m.close v) (.popClosed k acc v))
      else some (.work m (.popYoung k acc v))
  | .popClosed k acc v => some (.unlock (.session v) (.popFreed k acc v))
  | .popFreed k acc v => some (.work (m.removeLocked v) (.popLoop k (acc ++ [v])))
  | .popYoung k acc v => some (.unlock (.session v) (.done k.op (k.reply acc)))
  | .bound p op reply => some (.unlock (.session p) (.done op reply))
  | .done _ reply => some (.unlock .store (.releasing reply.due))
  | .releasing [] => some (.work m .idle)
  | .releasing (x :: due) => some (.lock (.session x.1) (.reading x due))
  | .reading x due => some (.work m (.member x (m.session x.1).member due))
  | .member x none due => some (.unlock (.session x.1) (.releasing due))
  | .member x (some _) due => some (.unlock (.session x.1) (.unregister due))
  | .unregister due => some (.lock .hub (.unregistered due))
  | .unregistered due => some (.unlock .hub (.releasing due))

end Pc

/-- The lock the hub has during a broadcast. -/
def After.held : After → List Lock
  | .ret => []
  | .cast .. => [.hub]

namespace Pc

/-- The locks that are held, latest first. -/
def holds : Pc → List Lock
  | .deliver _ _ _ k => k.held
  | .delivering p _ _ k | .queued p _ _ _ _ k | .delivered p _ _ _ k => .session p :: k.held
  | .touching p _ | .touched p _ _ => [.session p]
  | .casting .. | .unregistered _ => [.hub]
  | .opening .. | .openNamed .. | .making .. | .leaving _ => [.store]
  | .judging _ _ p | .refused _ _ p _ _ | .bound p _ _ => [.session p, .store]
  | .leftWith a | .parked a => [.session a.p, .store]
  | .popLoop .. | .popFront .. | .popFreed .. | .done .. => [.store]
  | .popHeld _ _ v | .popClosed _ _ v | .popYoung _ _ v => [.session v, .store]
  | .reading x _ | .member x _ _ => [.session x.1]
  | .idle | .touch .. | .cast .. | .openCall _ | .leaveCall _ | .sweepCall _ | .releasing _
  | .unregister _ => []

/-- What a call holds past the loops is not the store's lock. -/
@[simp] theorem store_not_mem_held (k : After) : Lock.store ∉ k.held := by
  cases k <;> simp [After.held]

/-- The point after the loops does not hold the store's lock. -/
theorem store_not_mem_holds_point (k : After) : Lock.store ∉ k.point.holds := by
  cases k <;> simp [After.point, holds]

/-- The request names no session of the store, and this is the reason of the refusal. -/
inductive NamesNone (m : Mem) (req : ResumeRequest) : Option Reason → Prop where
  | invalid : req.invalid = true → NamesNone m req (some .badRequest)
  | unknown : req.invalid = false → req.requested = true →
      m.store.sessions req.sessionID = none → NamesNone m req (some .unknownSession)
  | plain : req.invalid = false → req.requested = false → NamesNone m req none

/-- The request names the session at `p`. -/
structure Names (m : Mem) (req : ResumeRequest) (p : SessionRef) : Prop where
  valid : req.invalid = false
  requested : req.requested = true
  stored : m.store.sessions req.sessionID = some p

/-- The cases of `code`. -/
inductive Moves (draw : Option String) (m : Mem) : Pc → Move Mem Lock Pc → Prop where
  | deliver {p data pol k} : Moves draw m (.deliver p data pol k)
      (.lock (.session p) (.delivering p data pol k))
  | look {p data pol k} : Moves draw m (.delivering p data pol k)
      (.work (m.pokeLive p ((m.session p).look (m.liveClient p) data pol).2.1)
        (.queued p data pol ((m.session p).look (m.liveClient p) data pol).1
          ((m.session p).look (m.liveClient p) data pol).2.2 k))
  | commit {p data pol e ok k} : Moves draw m (.queued p data pol e ok k)
      (.work (m.edit (p, e)) (.delivered p data pol ok k))
  | delivered {p data pol ok k} : Moves draw m (.delivered p data pol ok k)
      (.unlock (.session p) k.point)
  | touch {p x} : Moves draw m (.touch p x) (.lock (.session p) (.touching p x))
  | touching {p x} : Moves draw m (.touching p x)
      (.work (m.edit (p, x.edit m.store.opt.digest)) (.touched p x (x.reply m p)))
  | touched {p x reply} : Moves draw m (.touched p x reply) (.unlock (.session p) .idle)
  | cast {targets data pol} : Moves draw m (.cast targets data pol)
      (.lock .hub (.casting targets data pol))
  | castNext {p rest data pol} : Moves draw m (.casting (p :: rest) data pol)
      (.work m (.deliver p data pol (.cast rest data pol)))
  | castDone {data pol} : Moves draw m (.casting [] data pol) (.unlock .hub .idle)
  | openCall {a} : (∀ id ∈ draw, m.store.sessions id = none) →
      Moves draw m (.openCall a) (.lock .store (.opening a draw))
  | unnamed {a newID reason} : NamesNone m a.req reason →
      Moves draw m (.opening a newID) (.work m (.making a newID reason none))
  | named {a newID p} : Names m a.req p →
      Moves draw m (.opening a newID) (.work m (.openNamed a newID p))
  | judge {a newID p} : Moves draw m (.openNamed a newID p)
      (.lock (.session p) (.judging a newID p))
  | resume {a newID p} : ((m.session p).verdict a.req a.now m.store.opt.ttl).1 = none →
      Moves draw m (.judging a newID p)
        (.work (m.attachLocked p a.c a.req.lastSeq).1
          (.bound p (a.op newID) (.opened (m.attachLocked p a.c a.req.lastSeq).2 [])))
  | kill {a newID p reason} :
      (m.session p).verdict a.req a.now m.store.opt.ttl = (some reason, true) →
      Moves draw m (.judging a newID p)
        (.work (m.discard p) (.refused a newID p reason (some p)))
  | refuse {a newID p reason} :
      (m.session p).verdict a.req a.now m.store.opt.ttl = (some reason, false) →
      Moves draw m (.judging a newID p) (.work m (.refused a newID p reason none))
  | refused {a newID p reason victim} : Moves draw m (.refused a newID p reason victim)
      (.unlock (.session p) (.making a newID (some reason) victim))
  | make {a newID reason victim} : Moves draw m (.making a newID reason victim)
      (.work (m.openFresh a.c a.req.owner newID reason victim).1
        (.done (a.op newID) (.opened (m.openFresh a.c a.req.owner newID reason victim).2.1
          (m.openFresh a.c a.req.owner newID reason victim).2.2)))
  | leaveCall {a} : Moves draw m (.leaveCall a) (.lock .store (.leaving a))
  | leaving {a} : Moves draw m (.leaving a) (.lock (.session a.p) (.leftWith a))
  | leave {a r res} : m.leave a.p a.c a.resumable a.now = (r, res, []) → res ≠ .parked →
      Moves draw m (.leftWith a) (.work r (.bound a.p a.op (.left res [])))
  | park {a} : (m.session a.p).state ≠ .closed → (m.session a.p).live = some a.c →
      a.resumable = true → Moves draw m (.leftWith a) (.work (m.park a.p a.c a.now) (.parked a))
  | parked {a} : Moves draw m (.parked a) (.unlock (.session a.p) (.popLoop (.evict a) []))
  | sweepCall {now} : Moves draw m (.sweepCall now) (.lock .store (.popLoop (.sweep now) []))
  | loopDone {k acc} : k.front m = none →
      Moves draw m (.popLoop k acc) (.work m (.done k.op (k.reply acc)))
  | loopFront {k acc v} : k.front m = some v →
      Moves draw m (.popLoop k acc) (.work m (.popFront k acc v))
  | popFront {k acc v} : Moves draw m (.popFront k acc v)
      (.lock (.session v) (.popHeld k acc v))
  | popClose {k acc v} : k.takes m v = true →
      Moves draw m (.popHeld k acc v) (.work (m.close v) (.popClosed k acc v))
  | popStop {k acc v} : k.takes m v = false →
      Moves draw m (.popHeld k acc v) (.work m (.popYoung k acc v))
  | popClosed {k acc v} : Moves draw m (.popClosed k acc v)
      (.unlock (.session v) (.popFreed k acc v))
  | popRemove {k acc v} : Moves draw m (.popFreed k acc v)
      (.work (m.removeLocked v) (.popLoop k (acc ++ [v])))
  | popYoung {k acc v} : Moves draw m (.popYoung k acc v)
      (.unlock (.session v) (.done k.op (k.reply acc)))
  | bound {p op reply} : Moves draw m (.bound p op reply) (.unlock (.session p) (.done op reply))
  | done {op reply} : Moves draw m (.done op reply) (.unlock .store (.releasing reply.due))
  | released : Moves draw m (.releasing []) (.work m .idle)
  | release {x due} : Moves draw m (.releasing (x :: due))
      (.lock (.session x.1) (.reading x due))
  | read {x due} : Moves draw m (.reading x due)
      (.work m (.member x (m.session x.1).member due))
  | noMember {x due} : Moves draw m (.member x none due)
      (.unlock (.session x.1) (.releasing due))
  | member {x c due} : Moves draw m (.member x (some c) due)
      (.unlock (.session x.1) (.unregister due))
  | unregister {due} : Moves draw m (.unregister due) (.lock .hub (.unregistered due))
  | unregistered {due} : Moves draw m (.unregistered due) (.unlock .hub (.releasing due))

variable {draw : Option String} {m : Mem} {pc : Pc} {mv : Move Mem Lock Pc}

/-- A refusal before a session was found. -/
theorem moves_opening {a : OpenArgs} {newID : Option String}
    (h : code draw m (.opening a newID) = some mv) : Moves draw m (.opening a newID) mv := by
  simp only [code] at h
  split_ifs at h with hinv hreq
  · cases h
    exact .unnamed (.invalid hinv)
  · split at h
    next hnone =>
      cases h
      exact .unnamed (.unknown (by simpa using hinv) hreq hnone)
    next p hp =>
      cases h
      exact .named ⟨by simpa using hinv, hreq, hp⟩
  · cases h
    exact .unnamed (.plain (by simpa using hinv) (by simpa using hreq))

/-- The verdict on the session that was found. -/
theorem moves_judging {a : OpenArgs} {newID : Option String} {p : SessionRef}
    (h : code draw m (.judging a newID p) = some mv) : Moves draw m (.judging a newID p) mv := by
  simp only [code] at h
  split at h
  next hv =>
    cases h
    exact .resume (by rw [hv])
  next reason hv =>
    cases h
    exact .kill hv
  next reason hv =>
    cases h
    exact .refuse hv

/-- `Leave` under both locks. -/
theorem moves_leftWith {a : LeaveArgs} (h : code draw m (.leftWith a) = some mv) :
    Moves draw m (.leftWith a) mv := by
  simp only [code] at h
  split_ifs at h with hclosed hlive hres
  · cases h
    exact .leave (by simp [Mem.leave, hclosed]) (by decide)
  · cases h
    exact .leave (by simp [Mem.leave, hclosed, hlive]) (by decide)
  · cases h
    exact .leave (by rw [Mem.leave, if_neg hclosed, if_neg hlive, if_pos hres]) (by decide)
  · cases h
    exact .park hclosed (not_not.1 hlive) (by simpa using hres)

/-- **Everything a move can be.** -/
theorem moves (h : code draw m pc = some mv) : Moves draw m pc mv := by
  cases pc with
  | idle => cases h
  | opening a newID => exact moves_opening h
  | judging a newID p => exact moves_judging h
  | leftWith a => exact moves_leftWith h
  | openCall a =>
      obtain ⟨hid, h⟩ := Option.ite_none_right_eq_some.1 h
      exact Option.some.inj h ▸ .openCall hid
  | casting rest data pol =>
      cases rest with
      | nil => exact Option.some.inj h ▸ .castDone
      | cons p rest => exact Option.some.inj h ▸ .castNext
  | popLoop k acc =>
      simp only [code] at h
      split at h
      next hf => exact Option.some.inj h ▸ .loopDone hf
      next v hf => exact Option.some.inj h ▸ .loopFront hf
  | popHeld k acc v =>
      simp only [code] at h
      split_ifs at h with ht
      · exact Option.some.inj h ▸ .popClose ht
      · exact Option.some.inj h ▸ .popStop (by simpa using ht)
  | releasing due =>
      cases due with
      | nil => exact Option.some.inj h ▸ .released
      | cons x due => exact Option.some.inj h ▸ .release
  | member x c due =>
      cases c with
      | none => exact Option.some.inj h ▸ .noMember
      | some c => exact Option.some.inj h ▸ .member
  | _ => exact Option.some.inj h ▸ by constructor

/-- **The locks are taken in the order the source gives.** -/
theorem discipline : Discipline code holds Lock.rank where
  sorted x := by
    cases x with
    | deliver _ _ _ k | delivering _ _ _ k | queued _ _ _ _ _ k | delivered _ _ _ _ k =>
        cases k <;> simp [holds, After.held, Lock.rank]
    | _ => simp [holds, Lock.rank]
  lock h := by cases moves h <;> rfl
  unlock h := by
    cases moves h with
    | @delivered p data pol ok k => cases k <;> rfl
    | _ => rfl
  work h := by cases moves h <;> rfl

/-- A goroutine in a call has something to do next; an `Open` may find no entropy. -/
theorem ready (m : Mem) (h : pc ≠ .idle) : ∃ d mv, code d m pc = some mv := by
  refine ⟨none, ?_⟩
  cases pc with
  | idle => exact absurd rfl h
  | openCall a => exact ⟨.lock .store (.opening a none), by simp [code]⟩
  | opening a newID =>
      simp only [code]
      split_ifs
      · exact ⟨_, rfl⟩
      · split <;> exact ⟨_, rfl⟩
      · exact ⟨_, rfl⟩
  | judging a newID p =>
      simp only [code]
      split <;> exact ⟨_, rfl⟩
  | leftWith a =>
      simp only [code]
      split_ifs <;> exact ⟨_, rfl⟩
  | popHeld k acc v =>
      simp only [code]
      split_ifs <;> exact ⟨_, rfl⟩
  | popLoop k acc =>
      simp only [code]
      split <;> exact ⟨_, rfl⟩
  | casting rest data pol => cases rest <;> exact ⟨_, rfl⟩
  | releasing due => cases due <;> exact ⟨_, rfl⟩
  | member x c due => cases c <;> exact ⟨_, rfl⟩
  | _ => exact ⟨_, rfl⟩

/-- What the goroutine returns when it goes on from here. -/
def answers : Pc → Option (Op × Reply)
  | .delivered p data pol ok _ => some (.deliver p data pol, .delivered ok)
  | .touched p x reply => some (x.op p, reply)
  | .done op reply => some (op, reply)
  | _ => none

end Pc

/-- The call a poke is. -/
def Poke.op (c : ClientRef) : Poke → Option Op
  | .close => some (.closeRaw c)
  | .shutdown => some (.shutdown c)
  | .write => some (.write c)
  | .nothing | .send _ | .drop => none

/-- The goroutines in their calls, and what their calls have returned so far. -/
structure Calls where
  pool : Pool (Locked Mem Lock Thread) fun _ : Thread => Pc
  hist : Thread → List (Op × Reply)
  /-- The connections that have called `Open`. -/
  opened : ClientRef → Bool

/-- One step of one goroutine. -/
inductive CallStep where
  /-- It makes a call, which starts here. -/
  | start (t : Thread) (pc : Pc)
  /-- It goes on with its call. -/
  | advance (t : Thread) (draw : Option String)
  /-- A pump writes, or a transport is closed. -/
  | poke (t : Thread) (c : ClientRef) (x : Poke)

namespace Calls

/-- The store before the first call. -/
def init (opt : SessionOptions) (digest : String → String) (sendBuffer : ClientRef → ℤ) :
    Calls where
  pool := ⟨⟨newSessionStore opt digest sendBuffer, fun _ => none⟩, fun _ => .idle⟩
  hist := fun _ => []
  opened := fun _ => false

def mem (f : Calls) : Mem := f.pool.shared.mem

def pc (f : Calls) (t : Thread) : Pc := f.pool.thread t

/-- The calls that can be made: on sessions that are there, and `Open` once for a connection. -/
def Starts (f : Calls) : Pc → Prop
  | .deliver p _ _ .ret => p < f.mem.sessionCount
  | .touch p _ => p < f.mem.sessionCount
  | .cast targets _ _ => ∀ p ∈ targets, p < f.mem.sessionCount
  | .openCall a => f.opened a.c = false ∧ (f.mem.client a.c).session = none
  | .leaveCall a => a.p < f.mem.sessionCount
  | .sweepCall _ => True
  | _ => False

instance (f : Calls) (pc : Pc) : Decidable (f.Starts pc) := by
  unfold Starts
  split <;> infer_instance

/-- The connections that have called `Open`, after this call. -/
def marks (f : Calls) : Pc → ClientRef → Bool
  | .openCall a => Function.update f.opened a.c true
  | _ => f.opened

/-- When a client can be poked: a pump runs once the connection is bound. -/
def Allowed (f : Calls) (c : ClientRef) (x : Poke) : Prop :=
  x = .write → (f.mem.client c).session ≠ none ∧ (f.mem.client c).writeNext ≠ none

instance (f : Calls) (c : ClientRef) (x : Poke) : Decidable (f.Allowed c x) :=
  inferInstanceAs (Decidable (_ → _))

/-- One step of one goroutine. -/
def step (f : Calls) : CallStep → Option Calls
  | .start t pc =>
      if f.pc t = .idle ∧ f.Starts pc then
        some { f with pool := f.pool.put t f.pool.shared pc, opened := f.marks pc }
      else none
  | .advance t draw =>
      (f.pool.advance Pc.code draw t).map fun q =>
        { f with pool := q, hist := Function.update f.hist t (f.hist t ++ (f.pc t).answers.toList) }
  | .poke t c x =>
      match x.op c with
      | none => none
      | some op =>
          if f.pc t = .idle ∧ f.Allowed c x then
            some { f with
              pool := f.pool.put t ⟨f.mem.poke c x, f.pool.shared.owner⟩ .idle
              hist := Function.update f.hist t (f.hist t ++ [(op, .done)]) }
          else none

/-- The step relation. -/
def Step (f : Calls) (a : CallStep) (f' : Calls) : Prop := f.step a = some f'

/-- The cases of `step`. -/
inductive Took (f : Calls) : CallStep → Calls → Prop where
  | start {t : Thread} {pc : Pc} : f.pc t = .idle → f.Starts pc →
      Took f (.start t pc) { f with pool := f.pool.put t f.pool.shared pc, opened := f.marks pc }
  | advance {t : Thread} {draw : Option String} {q} : f.pool.advance Pc.code draw t = some q →
      Took f (.advance t draw)
        { f with pool := q, hist := Function.update f.hist t (f.hist t ++ (f.pc t).answers.toList) }
  | poke {t : Thread} {c : ClientRef} {x : Poke} {op : Op} : x.op c = some op → f.pc t = .idle →
      f.Allowed c x →
      Took f (.poke t c x)
        { f with
          pool := f.pool.put t ⟨f.mem.poke c x, f.pool.shared.owner⟩ .idle
          hist := Function.update f.hist t (f.hist t ++ [(op, .done)]) }

variable {f f' : Calls} {a : CallStep}

/-- A step is a call that starts, a move of one call, or a poke of a client. -/
theorem Step.took (h : f.Step a f') : Took f a f' := by
  cases a with
  | start t pc =>
      obtain ⟨⟨hidle, hs⟩, h⟩ := Option.ite_none_right_eq_some.1 h
      exact Option.some.inj h ▸ .start hidle hs
  | advance t draw =>
      obtain ⟨q, hq, rfl⟩ := Option.map_eq_some_iff.1 h
      exact .advance hq
  | poke t c x =>
      simp only [Step, step] at h
      split at h
      next => cases h
      next op hop =>
        obtain ⟨⟨hidle, hx⟩, h⟩ := Option.ite_none_right_eq_some.1 h
        exact Option.some.inj h ▸ .poke hop hidle hx

end Calls
end GoSocket
