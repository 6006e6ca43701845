/-
# A session and its outbound path

`Session` of `internal/session.go` with `deliver`, `commit`, `Ack`, `ClaimKey`
and `verdict`.  Every method runs under the session's lock and is one step.

`deliver` is given the live client's record, since it enqueues there, and
returns it.  `deliver_cases` says everything a delivery can do: it leaves the
sequence alone, or it commits the frame under the next number; and it puts the
stamped frame on the live queue exactly when it commits online and the queue
takes it.  The proofs about sessions use it in place of the function.

`committed` is a history variable, every payload committed so far in order; the
source has no such field and no operation reads it.
-/

import GoSocket.Session.Client
import GoSocket.Session.KeyWindow
import GoSocket.Session.ReplayBuffer

namespace GoSocket

open Lib

/-- `sessionState`. -/
inductive SessionState where
  | attached
  | parked
  | closed
  deriving DecidableEq, Repr

/-- `SendPolicy`. -/
inductive SendPolicy where
  | disconnect
  | drop
  | volatile
  deriving DecidableEq, Repr

/-- A `*list.Element` of the parked list. -/
abbrev ElemRef := ℕ

/-- `Session`; times are nanoseconds. -/
structure Session where
  id : String
  owner : String
  state : SessionState
  next : ℕ
  buf : ReplayBuffer
  live : Option ClientRef
  member : Option ClientRef
  stalled : Bool
  parked : ℤ
  keys : KeyWindow
  elem : Option ElemRef
  dropped : ℕ
  committed : List Bytes
  deriving DecidableEq

/-- `ResumeRequest`. -/
structure ResumeRequest where
  requested : Bool
  invalid : Bool
  sessionID : String
  lastSeq : ℕ
  owner : String
  deriving DecidableEq, Repr

/-- `maxKeyLen`. -/
def maxKeyLen : ℕ := 128

namespace Session

/-- `commit`. -/
def commit (s : Session) (seq : ℕ) (data : Bytes) : Session :=
  { s with next := seq + 1, buf := s.buf.push seq data, committed := s.committed ++ [data] }

/-- The client that takes frames: the live one, unless the session is offline
because its queue overflowed earlier. -/
def online (s : Session) (live : Option Client) : Option Client :=
  if s.stalled then none else live

/-- `deliver`; `live` is the client `s.live` points to.  The result `false` asks
the caller to disconnect the slow peer. -/
def deliver (s : Session) (live : Option Client) (data : Bytes) (pol : SendPolicy) :
    Session × Option Client × Bool :=
  if s.state = .closed then (s, live, true)
  else
    match pol, s.online live with
    | .volatile, none => ({ s with dropped := s.dropped + 1 }, live, true)
    | .volatile, some c =>
        match c.enqueue data with
        | (c, .ok) => (s, some c, true)
        | (c, _) => (s, some { c with dropped := c.dropped + 1 }, true)
    | _, none => (s.commit s.next data, live, true)
    | pol, some c =>
        match c.enqueue (stamp data s.next) with
        | (c, .ok) => (s.commit s.next data, some c, true)
        -- the transport is going away: keep the frame for the resume
        | (c, .closed) => ({ s.commit s.next data with stalled := true }, some c, true)
        | (c, .full) =>
            if pol = .drop then (s, some { c with dropped := c.dropped + 1 }, true)
            else ({ s.commit s.next data with stalled := true }, some c, false)

/-- `Ack`. -/
def ack (s : Session) (seq : ℕ) : Session :=
  if seq < s.next then { s with buf := s.buf.ackUpTo seq } else s

/-- `ClaimKey`; `digest` is the hexadecimal SHA-256 long keys are replaced by. -/
def claimKey (s : Session) (digest : String → String) (key : String) : Session × Bool :=
  let key := if maxKeyLen < key.utf8ByteSize then digest key else key
  ({ s with keys := (s.keys.claim key).1 }, (s.keys.claim key).2)

/-- `verdict`: the reason to refuse a resume, `none` to honour it, and whether
the session is to be discarded. -/
def verdict (s : Session) (req : ResumeRequest) (now ttl : ℤ) : Option Reason × Bool :=
  if s.state = .closed then (some .unknownSession, false)
  else if s.owner ≠ req.owner then (some .ownerMismatch, false)
  else if s.state = .parked ∧ ttl < now - s.parked then (some .expired, true)
  else if s.next ≤ req.lastSeq then (some .badSeq, true)
  else if req.lastSeq < s.next - 1 ∧ s.buf.covers req.lastSeq = false then (some .gap, true)
  else (none, false)

/-- The session `attachLocked` leaves behind, off the parked list. -/
def attach (s : Session) (c : ClientRef) (lastSeq : ℕ) : Session :=
  { s with
    buf := s.buf.ackUpTo lastSeq, live := some c, member := some c, state := .attached,
    stalled := false, elem := none }

/-- The pre-queue `attachLocked` primes: the `$session` frame, then the replay. -/
def resumeFrames (s : Session) (lastSeq : ℕ) : List Bytes :=
  let entries := (s.buf.ackUpTo lastSeq).after lastSeq
  sessionFrame s.id true entries.length (s.next - 1) none ::
    entries.map fun e => stamp e.data e.seq

/-- What a delivery that commits does with the stamped frame: it goes on the
live queue; or the session is offline and stays so; or the live queue does not
take it and the session stalls, which is reported as `false` exactly when the
queue was full. -/
inductive Handed (s : Session) (live : Option Client) (data : Bytes) (pol : SendPolicy) :
    Bool → Option Client → Bool → Prop where
  | queued {c : Client} : s.online live = some c → c.closed = false →
      c.send.length < c.sendBuffer →
      Handed s live data pol s.stalled (some { c with send := c.send ++ [stamp data s.next] }) true
  | offline : s.online live = none → Handed s live data pol s.stalled live true
  | closed {c : Client} : s.online live = some c → c.closed = true →
      Handed s live data pol true live true
  | full {c : Client} : s.online live = some c → c.closed = false →
      c.sendBuffer ≤ c.send.length → pol = .disconnect → Handed s live data pol true live false

/-- What a delivery that does not commit does to the live client: nothing, a
raw frame on the queue, or one more frame counted as dropped. -/
inductive Skipped (s : Session) (live : Option Client) (data : Bytes) (pol : SendPolicy) :
    Option Client → Prop where
  | nothing : s.state = .closed ∨ pol = .volatile → Skipped s live data pol live
  | raw {c : Client} : pol = .volatile → live = some c →
      Skipped s live data pol (some { c with send := c.send ++ [data] })
  | lost {c : Client} : pol ≠ .disconnect → live = some c →
      Skipped s live data pol (some { c with dropped := c.dropped + 1 })

/-- A session is online when it has a live client and is not stalled. -/
theorem online_eq_some {s : Session} {live : Option Client} {c : Client} :
    s.online live = some c ↔ s.stalled = false ∧ live = some c := by
  cases hst : s.stalled <;> simp [online, hst]

/-- A session is offline when it is stalled or has no live client. -/
theorem online_eq_none {s : Session} {live : Option Client} :
    s.online live = none ↔ s.stalled = true ∨ live = none := by
  cases hst : s.stalled <;> simp [online, hst]

/-- A delivery that finds no online client. -/
theorem deliver_offline {s : Session} {live : Option Client} (data : Bytes) {pol : SendPolicy}
    (hopen : s.state ≠ .closed) (hpol : pol ≠ .volatile) (hon : s.online live = none) :
    s.deliver live data pol = (s.commit s.next data, live, true) := by
  unfold deliver
  rw [if_neg hopen, hon]
  cases pol with
  | volatile => exact absurd rfl hpol
  | disconnect => rfl
  | drop => rfl

/-- A reliable delivery to an online client, by what its queue does. -/
theorem deliver_online {s : Session} {live : Option Client} (data : Bytes) {pol : SendPolicy}
    (hopen : s.state ≠ .closed) (hpol : pol ≠ .volatile) {c : Client}
    (hon : s.online live = some c) :
    s.deliver live data pol =
      match c.enqueue (stamp data s.next) with
      | (c, .ok) => (s.commit s.next data, some c, true)
      | (c, .closed) => ({ s.commit s.next data with stalled := true }, some c, true)
      | (c, .full) =>
          if pol = .drop then (s, some { c with dropped := c.dropped + 1 }, true)
          else ({ s.commit s.next data with stalled := true }, some c, false) := by
  unfold deliver
  rw [if_neg hopen, hon]
  cases pol with
  | volatile => exact absurd rfl hpol
  | disconnect => rfl
  | drop => rfl

/-- What a volatile delivery does: it never commits. -/
theorem deliver_volatile {s : Session} (live : Option Client) (data : Bytes)
    (hopen : s.state ≠ .closed) :
    ∃ n live', s.deliver live data .volatile = ({ s with dropped := n }, live', true) ∧
      s.Skipped live data .volatile live' := by
  unfold deliver
  rw [if_neg hopen]
  cases hon : s.online live with
  | none => exact ⟨_, _, rfl, .nothing (Or.inr rfl)⟩
  | some c =>
      obtain ⟨-, rfl⟩ := online_eq_some.1 hon
      dsimp only
      by_cases hc : c.closed = true
      · exact ⟨_, _, by rw [c.enqueue_of_closed hc], .lost (by simp) rfl⟩
      rw [Bool.not_eq_true] at hc
      by_cases hroom : c.send.length < c.sendBuffer
      · exact ⟨_, _, by rw [c.enqueue_of_room hc hroom], .raw rfl rfl⟩
      · exact ⟨_, _, by rw [c.enqueue_of_full hc (not_lt.1 hroom)], .lost (by simp) rfl⟩

/-- **Everything a delivery can do.** -/
theorem deliver_cases (s : Session) (live : Option Client) (data : Bytes) (pol : SendPolicy) :
    (∃ n live', s.deliver live data pol = ({ s with dropped := n }, live', true) ∧
      s.Skipped live data pol live') ∨
    (∃ st live' ok, s.deliver live data pol =
        ({ s.commit s.next data with stalled := st }, live', ok) ∧
      s.state ≠ .closed ∧ pol ≠ .volatile ∧ s.Handed live data pol st live' ok) := by
  by_cases hclosed : s.state = .closed
  · exact Or.inl ⟨_, _, if_pos hclosed, .nothing (Or.inl hclosed)⟩
  by_cases hvol : pol = .volatile
  · exact Or.inl (hvol ▸ deliver_volatile live data hclosed)
  cases hon : s.online live with
  | none =>
      exact Or.inr ⟨_, _, _, deliver_offline data hclosed hvol hon, hclosed, hvol, .offline hon⟩
  | some c =>
      have hd := deliver_online data hclosed hvol hon
      obtain ⟨-, rfl⟩ := online_eq_some.1 hon
      by_cases hc : c.closed = true
      · rw [c.enqueue_of_closed hc] at hd
        exact Or.inr ⟨_, _, _, hd, hclosed, hvol, .closed hon hc⟩
      rw [Bool.not_eq_true] at hc
      by_cases hroom : c.send.length < c.sendBuffer
      · rw [c.enqueue_of_room hc hroom] at hd
        exact Or.inr ⟨_, _, _, hd, hclosed, hvol, .queued hon hc hroom⟩
      · rw [c.enqueue_of_full hc (not_lt.1 hroom)] at hd
        dsimp only at hd
        split_ifs at hd with hdrop
        · exact Or.inl ⟨_, _, hd, .lost (by simp [hdrop]) rfl⟩
        · have hdisc : pol = .disconnect := by
            cases pol <;> simp_all
          exact Or.inr ⟨_, _, _, hd, hclosed, hvol, .full hon hc (not_lt.1 hroom) hdisc⟩

end Session
end GoSocket
