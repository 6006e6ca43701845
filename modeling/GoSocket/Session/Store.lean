/-
# The session store

`SessionStore` of `internal/session.go`: `NewSessionStore`, `Open`,
`attachLocked`, `Leave`, `Sweep` and `removeLocked`.

The store, the `*Session` objects and the `*Client` objects are one memory
`Mem`.  Pointers are numbers: `session p` is the session at address `p`, which
was allocated when `p < sessionCount`; the parked list is the list of its
elements, each an address and the session it holds, front first.

Every operation holds the store lock from the first look at the state to the
last write, so it is one step; only the reading of the clock precedes it, and
`now` is an argument.  The random session id is an argument too, `none` where
`newSessionID` returns `""`.  `Release` runs after the lock is dropped: the
operations return the calls that are due.  `Leave` releases the lock of the
leaving session before it evicts others; a delivery that falls in between
commutes with the eviction of another session, so nothing is lost by taking
the two together.
-/

import GoSocket.Session.Session
import Mathlib.Logic.Function.Basic

namespace GoSocket

open Lib

/-- `SessionOptions` as the caller gives them. -/
structure SessionOptions where
  replayMessages : ℤ
  replayBytes : Int64
  ttl : ℤ
  maxParked : ℤ
  keyWindow : ℤ
  deriving DecidableEq, Repr

/-- The options a store works with: every limit is positive.  `digest` is
`hex.EncodeToString` of `sha256.Sum256`. -/
structure StoreOptions where
  replayMessages : ℕ
  replayBytes : Int64
  ttl : ℤ
  maxParked : ℕ
  keyWindow : ℕ
  digest : String → String
  replayMessages_pos : 0 < replayMessages
  replayBytes_pos : 0 < replayBytes
  ttl_pos : 0 < ttl
  maxParked_pos : 0 < maxParked
  keyWindow_pos : 0 < keyWindow

/-- A limit, or its default when it is not positive. -/
def positiveOr (n : ℤ) (dflt : ℕ) : ℕ := if n ≤ 0 then dflt else n.toNat

/-- An option read with a positive default is positive. -/
theorem positiveOr_pos (n : ℤ) {dflt : ℕ} (h : 0 < dflt) : 0 < positiveOr n dflt := by
  unfold positiveOr
  split_ifs <;> omega

/-- The byte limit, or its default of 256 KiB when it is not positive. -/
def positiveBytes (n : Int64) : Int64 := if n ≤ 0 then 256 * 1024 else n

/-- The byte limit read with its default is positive. -/
theorem positiveBytes_pos (n : Int64) : 0 < positiveBytes n := by
  unfold positiveBytes
  split_ifs with h
  · decide
  · exact Int64.not_le.1 h

/-- The defaults of `NewSessionStore`: 256 messages, 256 KiB, two minutes, 10000
parked sessions, 1024 keys. -/
def SessionOptions.normalized (opt : SessionOptions) (digest : String → String) : StoreOptions where
  replayMessages := positiveOr opt.replayMessages 256
  replayBytes := positiveBytes opt.replayBytes
  ttl := positiveOr opt.ttl (2 * 60 * 1000000000)
  maxParked := positiveOr opt.maxParked 10000
  keyWindow := positiveOr opt.keyWindow 1024
  digest := digest
  replayMessages_pos := positiveOr_pos _ (by decide)
  replayBytes_pos := positiveBytes_pos _
  ttl_pos := by exact_mod_cast positiveOr_pos _ (by decide)
  maxParked_pos := positiveOr_pos _ (by decide)
  keyWindow_pos := positiveOr_pos _ (by decide)

/-- `SessionStore`. -/
structure SessionStore where
  opt : StoreOptions
  sessions : String → Option SessionRef
  parked : List (ElemRef × SessionRef)
  resumed : ℕ
  replayed : ℕ

/-- The store and the objects it points to. -/
structure Mem where
  store : SessionStore
  session : SessionRef → Session
  client : ClientRef → Client
  sessionCount : ℕ
  elemCount : ℕ

/-- `ReleaseReason`. -/
inductive ReleaseReason where
  | expired
  | evicted
  | replaced
  deriving DecidableEq, Repr

/-- A call `Release(s, why)` that is due. -/
abbrev Release := SessionRef × ReleaseReason

/-- `LeaveResult`. -/
inductive LeaveResult where
  | gone
  | parked
  | displaced
  deriving DecidableEq, Repr

/-- `OpenResult`. -/
structure OpenResult where
  session : Option SessionRef := none
  resumed : Bool := false
  reason : Option Reason := none
  replayed : ℕ := 0
  prev : Option ClientRef := none
  displaced : Option ClientRef := none
  deriving DecidableEq, Repr

/-- The session a fresh `Open` allocates. -/
def newSession (opt : StoreOptions) (id owner : String) (c : ClientRef) : Session where
  id := id
  owner := owner
  state := .attached
  next := 1
  buf := .new opt.replayMessages opt.replayBytes opt.replayMessages_pos opt.replayBytes_pos
  live := some c
  member := some c
  stalled := false
  parked := 0
  keys := .new opt.keyWindow
  elem := none
  dropped := 0
  committed := []

/-- What stands at an address that was never allocated. -/
def noSession (opt : StoreOptions) : Session :=
  { newSession opt "" "" 0 with state := .closed, live := none, member := none }

/-- `NewSessionStore`, with a client at every address; `sendBuffer` is the option
each of them is created with. -/
def newSessionStore (opt : SessionOptions) (digest : String → String)
    (sendBuffer : ClientRef → ℤ) : Mem where
  store :=
    { opt := opt.normalized digest, sessions := fun _ => none, parked := [], resumed := 0,
      replayed := 0 }
  session := fun _ => noSession (opt.normalized digest)
  client := fun c => newClient (sendBuffer c)
  sessionCount := 0
  elemCount := 0

namespace Mem

/-- Write the session at an address. -/
def setSession (m : Mem) (p : SessionRef) (s : Session) : Mem :=
  { m with session := Function.update m.session p s }

/-- Write the client at an address. -/
def setClient (m : Mem) (c : ClientRef) (cl : Client) : Mem :=
  { m with client := Function.update m.client c cl }

/-- Write the store's map. -/
def setSessions (m : Mem) (f : String → Option SessionRef) : Mem :=
  { m with store := { m.store with sessions := f } }

/-- Write the store's parked list. -/
def setParked (m : Mem) (l : List (ElemRef × SessionRef)) : Mem :=
  { m with store := { m.store with parked := l } }

/-- `removeLocked`. -/
def removeLocked (m : Mem) (p : SessionRef) : Mem :=
  let s := m.session p
  let m := m.setSessions (Function.update m.store.sessions s.id none)
  match s.elem with
  | none => m
  | some e =>
      (m.setParked (m.store.parked.filter fun x => x.1 ≠ e)).setSession p { s with elem := none }

/-- `s.state = stateClosed` and `removeLocked(s)`. -/
def discard (m : Mem) (p : SessionRef) : Mem :=
  (m.setSession p { m.session p with state := .closed }).removeLocked p

/-- `attachLocked`, with the counters `Open` adds to. -/
def attachLocked (m : Mem) (p : SessionRef) (c : ClientRef) (lastSeq : ℕ) : Mem × OpenResult :=
  let s := m.session p
  let replayed := ((s.buf.ackUpTo lastSeq).after lastSeq).length
  let res : OpenResult :=
    { session := some p, resumed := true, replayed := replayed, prev := s.member,
      displaced := if s.live = some c then none else s.live }
  let m := match s.elem with
    | none => m
    | some e => m.setParked (m.store.parked.filter fun x => x.1 ≠ e)
  let m := m.setSession p (s.attach c lastSeq)
  let m := m.setClient c
    { m.client c with session := some p, replay := s.resumeFrames lastSeq }
  ({ m with store :=
      { m.store with
        resumed := m.store.resumed + 1, replayed := m.store.replayed + replayed } }, res)

/-- The part of `Open` that binds the client to a brand-new session, after a
refusal for `reason` that may have discarded `victim`. -/
def openFresh (m : Mem) (c : ClientRef) (owner : String) (newID : Option String)
    (reason : Option Reason) (victim : Option SessionRef) : Mem × OpenResult × List Release :=
  let due := victim.toList.map fun p => (p, ReleaseReason.replaced)
  match newID with
  -- no entropy: serve the peer without recovery
  | none => (m, { reason := reason }, due)
  | some id =>
      let p := m.sessionCount
      let m := m.setSession p (newSession m.store.opt id owner c)
      let m := m.setSessions (Function.update m.store.sessions id (some p))
      let m := m.setClient c
        { m.client c with session := some p, replay := [sessionFrame id false 0 0 reason] }
      ({ m with sessionCount := p + 1 }, { session := some p, reason := reason }, due)

end Mem

/-- `Open`. -/
def Mem.open (m : Mem) (c : ClientRef) (req : ResumeRequest) (now : ℤ) (newID : Option String) :
    Mem × OpenResult × List Release :=
  if req.invalid then m.openFresh c req.owner newID (some .badRequest) none
  else if req.requested then
    match m.store.sessions req.sessionID with
    | none => m.openFresh c req.owner newID (some .unknownSession) none
    | some p =>
        match (m.session p).verdict req now m.store.opt.ttl with
        | (none, _) =>
            let r := m.attachLocked p c req.lastSeq
            (r.1, r.2, [])
        | (some reason, true) =>
            (m.discard p).openFresh c req.owner newID (some reason) (some p)
        | (some reason, false) => m.openFresh c req.owner newID (some reason) none
  else m.openFresh c req.owner newID none none

namespace Mem

/-- The eviction loop of `Leave`: discard the front of the parked list while it
is too long. -/
def evictLoop : ℕ → Mem → Mem × List SessionRef
  | 0, m => (m, [])
  | fuel + 1, m =>
      if m.store.opt.maxParked < m.store.parked.length then
        match m.store.parked with
        | [] => (m, [])
        | (_, v) :: _ =>
            let r := evictLoop fuel (m.discard v)
            (r.1, v :: r.2)
      else (m, [])

/-- The part of `Leave` that parks the session. -/
def park (m : Mem) (p : SessionRef) (c : ClientRef) (now : ℤ) : Mem :=
  let s := m.session p
  let e := m.elemCount
  let m := m.setSession p
    { s with live := none, stalled := false, state := .parked, parked := now, elem := some e }
  let m := m.setClient c { m.client c with parked := true }
  let m := m.setParked (m.store.parked ++ [(e, p)])
  { m with elemCount := e + 1 }

/-- `Leave`. -/
def leave (m : Mem) (p : SessionRef) (c : ClientRef) (resumable : Bool) (now : ℤ) :
    Mem × LeaveResult × List Release :=
  let s := m.session p
  if s.state = .closed then (m, .gone, [])
  else if s.live ≠ some c then (m, .displaced, [])
  else if resumable = false then
    ((m.setSession p { s with state := .closed, live := none }).removeLocked p, .gone, [])
  else
    let m := m.park p c now
    let r := m.evictLoop m.store.parked.length
    (r.1, .parked, r.2.map fun v => (v, ReleaseReason.evicted))

/-- The loop of `Sweep`: discard the front of the parked list while it is older
than the TTL. -/
def sweepLoop (now : ℤ) : ℕ → Mem → Mem × List SessionRef
  | 0, m => (m, [])
  | fuel + 1, m =>
      match m.store.parked with
      | [] => (m, [])
      | (_, v) :: _ =>
          if m.store.opt.ttl < now - (m.session v).parked then
            let r := sweepLoop now fuel (m.discard v)
            (r.1, v :: r.2)
          else (m, [])

/-- `Sweep`. -/
def sweep (m : Mem) (now : ℤ) : Mem × List Release :=
  let r := sweepLoop now m.store.parked.length m
  (r.1, r.2.map fun v => (v, ReleaseReason.expired))

/-- `Session.deliver` on the session at an address and the client it points to. -/
def deliver (m : Mem) (p : SessionRef) (data : Bytes) (pol : SendPolicy) : Mem × Bool :=
  let s := m.session p
  match s.live with
  | none =>
      let r := s.deliver none data pol
      (m.setSession p r.1, r.2.2)
  | some c =>
      let r := s.deliver (some (m.client c)) data pol
      ((m.setSession p r.1).setClient c (r.2.1.getD (m.client c)), r.2.2)

/-- `Client.TrySendPolicy`. -/
def trySendPolicy (m : Mem) (c : ClientRef) (data : Bytes) (pol : SendPolicy) : Mem × Bool :=
  match (m.client c).session with
  | some p => m.deliver p data pol
  | none =>
      match (m.client c).enqueue data with
      | (cl, .ok) => (m.setClient c cl, true)
      | (cl, .full) =>
          if pol = .disconnect then (m.setClient c cl, false)
          else (m.setClient c { cl with dropped := cl.dropped + 1 }, true)
      | (cl, .closed) => (m.setClient c cl, false)

/-- `Session.Ack`. -/
def ack (m : Mem) (p : SessionRef) (seq : ℕ) : Mem := m.setSession p ((m.session p).ack seq)

/-- `Session.ClaimKey`. -/
def claimKey (m : Mem) (p : SessionRef) (key : String) : Mem × Bool :=
  let r := (m.session p).claimKey m.store.opt.digest key
  (m.setSession p r.1, r.2)

end Mem
end GoSocket
