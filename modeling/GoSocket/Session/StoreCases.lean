/-
# What each store operation can do

One case analysis per operation: `open_cases`, `leave_cases`, `sweep_popped` and
the frame lemmas of `deliver`.  The invariants below are read off them; nothing
after this module unfolds an operation again.
-/

import GoSocket.Session.StoreInv

namespace GoSocket

open Lib

namespace Session

/-- The cases in which a resume is honoured. -/
theorem verdict_eq_none {s : Session} {req : ResumeRequest} {now ttl : ℤ} :
    (s.verdict req now ttl).1 = none ↔
      s.state ≠ .closed ∧ s.owner = req.owner ∧ ¬ (s.state = .parked ∧ ttl < now - s.parked) ∧
        req.lastSeq < s.next ∧ (req.lastSeq < s.next - 1 → s.buf.covers req.lastSeq = true) := by
  unfold verdict
  split_ifs <;> simp_all

/-- A session that is discarded was not closed, and it was its owner who asked. -/
theorem verdict_kill {s : Session} {req : ResumeRequest} {now ttl : ℤ}
    (h : (s.verdict req now ttl).2 = true) : s.state ≠ .closed ∧ s.owner = req.owner := by
  unfold verdict at h
  split_ifs at h <;> simp_all

/-- A delivery changes the sequence and nothing else of the session. -/
theorem deliver_frame (s : Session) (live : Option Client) (data : Bytes) (pol : SendPolicy) :
    ∃ next buf stalled dropped committed, (s.deliver live data pol).1 =
      { s with
        next := next, buf := buf, stalled := stalled, dropped := dropped,
        committed := committed } := by
  rcases s.deliver_cases live data pol with ⟨n, live', h, -⟩ | ⟨st, live', ok, h, -⟩
  · exact ⟨_, _, _, n, _, by rw [h]⟩
  · exact ⟨_, _, st, _, _, by rw [h]; rfl⟩

end Session

namespace Mem

/-- What `Open` does before it allocates a session: nothing, or it discards the
session the request names. -/
inductive Refused (m : Mem) (req : ResumeRequest) (now : ℤ) :
    Mem → Option Reason → Option SessionRef → Prop where
  | kept (reason : Option Reason) : Refused m req now m reason none
  | killed {p : SessionRef} {reason : Reason} : req.invalid = false → req.requested = true →
      m.store.sessions req.sessionID = some p →
      (m.session p).verdict req now m.store.opt.ttl = (some reason, true) →
      Refused m req now (m.discard p) (some reason) (some p)

/-- The outcomes of `Open`. -/
inductive Opened (m : Mem) (c : ClientRef) (req : ResumeRequest) (now : ℤ)
    (newID : Option String) : Mem → OpenResult → List Release → Prop where
  | resumed {p : SessionRef} : req.invalid = false → req.requested = true →
      m.store.sessions req.sessionID = some p →
      ((m.session p).verdict req now m.store.opt.ttl).1 = none →
      Opened m c req now newID (m.attachLocked p c req.lastSeq).1
        (m.attachLocked p c req.lastSeq).2 []
  | unbound {m₁ : Mem} {reason : Option Reason} {victim : Option SessionRef} : newID = none →
      Refused m req now m₁ reason victim →
      Opened m c req now newID m₁ { reason := reason }
        (victim.toList.map fun p => (p, .replaced))
  | fresh {m₁ : Mem} {reason : Option Reason} {victim : Option SessionRef} {id : String} :
      newID = some id → Refused m req now m₁ reason victim →
      Opened m c req now newID (m₁.fresh c req.owner id reason)
        { session := some m₁.sessionCount, reason := reason }
        (victim.toList.map fun p => (p, .replaced))

/-- A refusal followed by the rest of `Open`. -/
theorem Refused.openFresh {m m₁ : Mem} {c : ClientRef} {req : ResumeRequest} {now : ℤ}
    {newID : Option String} {reason : Option Reason} {victim : Option SessionRef}
    (h : Refused m req now m₁ reason victim) :
    Opened m c req now newID (m₁.openFresh c req.owner newID reason victim).1
      (m₁.openFresh c req.owner newID reason victim).2.1
      (m₁.openFresh c req.owner newID reason victim).2.2 := by
  cases newID with
  | none => exact .unbound rfl h
  | some id => exact .fresh rfl h

/-- **Everything `Open` can do.** -/
theorem open_cases (m : Mem) (c : ClientRef) (req : ResumeRequest) (now : ℤ)
    (newID : Option String) :
    Opened m c req now newID (m.open c req now newID).1 (m.open c req now newID).2.1
      (m.open c req now newID).2.2 := by
  unfold Mem.open
  by_cases hinv : req.invalid = true
  · rw [if_pos hinv]
    exact (Refused.kept _).openFresh
  rw [if_neg hinv]
  rw [Bool.not_eq_true] at hinv
  by_cases hreq : req.requested = true
  · rw [if_pos hreq]
    cases hs : m.store.sessions req.sessionID with
    | none => exact (Refused.kept _).openFresh
    | some p =>
        dsimp only
        rcases hv : (m.session p).verdict req now m.store.opt.ttl with ⟨_ | reason, _ | _⟩
        · exact .resumed hinv hreq hs (by rw [hv])
        · exact .resumed hinv hreq hs (by rw [hv])
        · exact (Refused.kept _).openFresh
        · exact (Refused.killed hinv hreq hs hv).openFresh
  · rw [if_neg hreq]
    exact (Refused.kept _).openFresh

/-- Every `open` takes one of the listed ways. -/
theorem exists_opened (m : Mem) (c : ClientRef) (req : ResumeRequest) (now : ℤ)
    (newID : Option String) :
    ∃ m' res due, m.open c req now newID = (m', res, due) ∧ Opened m c req now newID m' res due :=
  ⟨_, _, _, rfl, m.open_cases c req now newID⟩

/-- A resumed session passed the tests of `verdict`, and it is attached. -/
theorem resumed_verdict {m : Mem} {c : ClientRef} {req : ResumeRequest} {now : ℤ}
    {newID : Option String} {p : SessionRef}
    (hres : (m.open c req now newID).2.1.resumed = true)
    (hs : (m.open c req now newID).2.1.session = some p) :
    req.requested = true ∧ req.invalid = false ∧ m.store.sessions req.sessionID = some p ∧
      ((m.session p).verdict req now m.store.opt.ttl).1 = none ∧
      (m.open c req now newID).1 = (m.attachLocked p c req.lastSeq).1 := by
  obtain ⟨m', res, due, hopen, ho⟩ := m.exists_opened c req now newID
  rw [hopen] at hres hs ⊢
  cases ho with
  | resumed hinv hreq hfind hv =>
      obtain rfl := Option.some.inj hs
      exact ⟨hreq, hinv, hfind, hv, rfl⟩
  | unbound => cases hres
  | fresh => cases hres

/-- A refusal leaves the clients and the counter alone. -/
theorem Refused.client_eq {m m₁ : Mem} {req : ResumeRequest} {now : ℤ} {reason : Option Reason}
    {victim : Option SessionRef} (h : Refused m req now m₁ reason victim) :
    m₁.client = m.client ∧ m₁.sessionCount = m.sessionCount ∧ m₁.store.opt = m.store.opt := by
  cases h with
  | kept => exact ⟨rfl, rfl, rfl⟩
  | killed => exact ⟨discard_client .., discard_sessionCount .., discard_opt ..⟩

/-- What a terminal `Leave` does: the session is discarded and detached. -/
theorem leave_terminal_eq (m : Mem) (p : SessionRef) :
    (m.setSession p { m.session p with state := .closed, live := none }).removeLocked p =
      (m.discard p).setSession p
        { m.session p with state := .closed, elem := none, live := none } := by
  rw [discard_eq]
  unfold removeLocked
  cases he : (m.session p).elem with
  | none => simp [he, setSession, setSessions, unpark]
  | some e => simp [he, setSession, setSessions, setParked, unpark]

/-- The outcomes of `Leave`. -/
inductive Left (m : Mem) (p : SessionRef) (c : ClientRef) (resumable : Bool) (now : ℤ) :
    Mem → LeaveResult → List Release → Prop where
  | gone : (m.session p).state = .closed → Left m p c resumable now m .gone []
  | displaced : (m.session p).state ≠ .closed → (m.session p).live ≠ some c →
      Left m p c resumable now m .displaced []
  | ended : (m.session p).state ≠ .closed → (m.session p).live = some c → resumable = false →
      Left m p c resumable now
        ((m.discard p).setSession p
          { m.session p with state := .closed, elem := none, live := none }) .gone []
  | parked {r : Mem × List SessionRef} : (m.session p).state = .attached →
      (m.session p).live = some c → resumable = true →
      Popped (m.park p c now) (m.store.parked.length + 1 - m.store.opt.maxParked) r →
      Left m p c resumable now r.1 .parked (r.2.map fun v => (v, .evicted))

section park

variable (m : Mem) (p : SessionRef) (c : ClientRef) (now : ℤ)

/-- A parked session has no live client, the time it was parked, and the fresh list element. -/
@[simp] theorem park_session (q : SessionRef) :
    (m.park p c now).session q =
      if q = p then
        { m.session p with
          live := none, stalled := false, state := .parked, parked := now,
          elem := some m.elemCount }
      else m.session q :=
  Function.update_apply ..

/-- Parking marks the client that left. -/
@[simp] theorem park_client (d : ClientRef) :
    (m.park p c now).client d =
      if d = c then { m.client c with parked := true } else m.client d :=
  Function.update_apply ..

@[simp] theorem park_sessions : (m.park p c now).store.sessions = m.store.sessions := rfl

@[simp] theorem park_opt : (m.park p c now).store.opt = m.store.opt := rfl

/-- A parked session joins the back of the list. -/
@[simp] theorem park_parked :
    (m.park p c now).store.parked = m.store.parked ++ [(m.elemCount, p)] := rfl

@[simp] theorem park_sessionCount : (m.park p c now).sessionCount = m.sessionCount := rfl

@[simp] theorem park_elemCount : (m.park p c now).elemCount = m.elemCount + 1 := rfl

end park

/-- Parking an attached session. -/
theorem Linked.park {m : Mem} (h : m.Linked) {p : SessionRef}
    (hp : (m.session p).state = .attached) (c : ClientRef) (now : ℤ) :
    (m.park p c now).Linked := by
  have hopen : (m.session p).state ≠ .closed := by
    rw [hp]
    decide
  have hunlisted : ∀ e, (e, p) ∉ m.store.parked := by
    intro e he
    rw [(h.session p).listed, h.elem_eq_none (by rw [hp]; decide)] at he
    cases he
  have hnew : ∀ x ∈ m.store.parked, x.1 < m.elemCount := fun x hx =>
    ((h.session x.2).elem ((h.session x.2).listed.1 hx)).2
  refine h.relink (p := p) (fun q hqp => by simp [hqp]) rfl le_rfl (Nat.le_succ _)
    (fun _ _ _ => Iff.rfl) ?_ ?_ ?_
  · intro e q hqp
    simp [hqp]
  · rw [park_parked, List.map_append, List.nodup_append]
    refine ⟨h.nodup, by simp, ?_⟩
    simp only [List.map_cons, List.map_nil, List.mem_singleton, List.mem_map]
    rintro _ ⟨x, hx, rfl⟩ _ rfl
    exact (hnew x hx).ne
  · constructor
    case stored =>
      intro id
      simp [(h.session p).stored, hp]
    case listed =>
      intro e
      simp [hunlisted e, eq_comm]
    case allocated => exact fun _ => (h.session p).allocated hopen
    case limits =>
      rw [park_session, if_pos rfl]
      exact (h.session p).limits
    all_goals simp

/-- **Everything `Leave` can do.** -/
theorem leave_cases {m : Mem} (h : m.Linked) (p : SessionRef) (c : ClientRef) (resumable : Bool)
    (now : ℤ) :
    Left m p c resumable now (m.leave p c resumable now).1 (m.leave p c resumable now).2.1
      (m.leave p c resumable now).2.2 := by
  unfold leave
  by_cases hclosed : (m.session p).state = .closed
  · simp only [if_pos hclosed]
    exact .gone hclosed
  by_cases hlive : (m.session p).live ≠ some c
  · simp only [if_neg hclosed, if_pos hlive]
    exact .displaced hclosed hlive
  simp only [if_neg hclosed, if_neg hlive]
  rw [not_not] at hlive
  cases resumable with
  | false =>
      simp only [if_true, leave_terminal_eq]
      exact .ended hclosed hlive rfl
  | true =>
      have hattached : (m.session p).state = .attached := by
        cases hs : (m.session p).state with
        | attached => rfl
        | closed => exact absurd hs hclosed
        | parked => simp [((h.session p).parked hs).1] at hlive
      have hpop := evictLoop_popped (h.park hattached c now) le_rfl
      have hexcess : (m.park p c now).store.parked.length - (m.park p c now).store.opt.maxParked =
          m.store.parked.length + 1 - m.store.opt.maxParked := by
        simp
      exact .parked hattached hlive rfl (hexcess ▸ hpop)

/-- Every `leave` takes one of the listed ways. -/
theorem Linked.exists_left {m : Mem} (h : m.Linked) (p : SessionRef) (c : ClientRef)
    (resumable : Bool) (now : ℤ) :
    ∃ m' res due, m.leave p c resumable now = (m', res, due) ∧
      Left m p c resumable now m' res due :=
  ⟨_, _, _, rfl, leave_cases h p c resumable now⟩

/-- **Everything `Sweep` can do**: it discards the sessions at the front of the
parked list that are too old. -/
theorem sweep_popped {m : Mem} (h : m.Linked) (now : ℤ) :
    ∃ r, Popped m (m.expiredPrefix now).length r ∧
      m.sweep now = (r.1, r.2.map fun v => (v, .expired)) :=
  ⟨_, sweepLoop_popped h now le_rfl, rfl⟩

/-- The client the session at `p` writes to. -/
def liveClient (m : Mem) (p : SessionRef) : Option Client := (m.session p).live.map m.client

section deliver

variable (m : Mem) (p : SessionRef) (data : Bytes) (pol : SendPolicy)

/-- A delivery changes the session delivered to as `Session.deliver` does. -/
@[simp] theorem deliver_session (q : SessionRef) :
    (m.deliver p data pol).1.session q =
      if q = p then ((m.session p).deliver (m.liveClient p) data pol).1 else m.session q := by
  unfold deliver liveClient
  cases hl : (m.session p).live <;> simp [hl]

/-- A delivery changes no client but the session's live one. -/
theorem deliver_client (d : ClientRef) :
    (m.deliver p data pol).1.client d =
      if (m.session p).live = some d then
        ((m.session p).deliver (m.liveClient p) data pol).2.1.getD (m.client d)
      else m.client d := by
  unfold deliver liveClient
  cases hl : (m.session p).live with
  | none => simp [hl]
  | some c =>
      by_cases hdc : d = c
      · subst hdc
        simp [hl]
      · simp [hl, hdc, Ne.symm hdc]

/-- A delivery answers what `Session.deliver` does. -/
@[simp] theorem deliver_ok :
    (m.deliver p data pol).2 = ((m.session p).deliver (m.liveClient p) data pol).2.2 := by
  unfold deliver liveClient
  cases hl : (m.session p).live <;> simp [hl]

/-- A delivery leaves the store's tables alone. -/
@[simp] theorem deliver_store : (m.deliver p data pol).1.store = m.store := by
  unfold deliver
  cases hl : (m.session p).live <;> simp [hl]

/-- A delivery allocates no session. -/
@[simp] theorem deliver_sessionCount :
    (m.deliver p data pol).1.sessionCount = m.sessionCount := by
  unfold deliver
  cases hl : (m.session p).live <;> simp [hl]

/-- A delivery allocates no list element. -/
@[simp] theorem deliver_elemCount : (m.deliver p data pol).1.elemCount = m.elemCount := by
  unfold deliver
  cases hl : (m.session p).live <;> simp [hl]

end deliver

/-- What a delivery that commits does to a client: the live client of a session
that is not stalled before and after takes the stamped frame, and nothing else
happens to any client. -/
theorem deliver_client_cases {m : Mem} {p : SessionRef} {data : Bytes} {pol : SendPolicy}
    {st ok : Bool} {live' : Option Client}
    (hd : (m.session p).deliver (m.liveClient p) data pol =
      ({ (m.session p).commit (m.session p).next data with stalled := st }, live', ok))
    (hh : (m.session p).Handed (m.liveClient p) data pol st live' ok) (c : ClientRef) :
    ((m.deliver p data pol).1.client c = m.client c ∧
      ((m.session p).live = some c → st = true)) ∨
    ((m.session p).live = some c ∧ (m.session p).stalled = false ∧ st = false ∧
      (m.deliver p data pol).1.client c =
        { m.client c with
          send := (m.client c).send ++ [stamp data (m.session p).next] }) := by
  rw [deliver_client, hd]
  by_cases hlive : (m.session p).live = some c
  · have hlc : m.liveClient p = some (m.client c) := by
      rw [liveClient, hlive, Option.map_some]
    rw [if_pos hlive]
    rw [hlc] at hh
    cases hh with
    | queued hon _ _ =>
        obtain ⟨hst, hcl⟩ := Session.online_eq_some.1 hon
        obtain rfl := Option.some.inj hcl
        exact Or.inr ⟨hlive, hst, hst, rfl⟩
    | offline hon =>
        rcases Session.online_eq_none.1 hon with hst | hno
        · exact Or.inl ⟨rfl, fun _ => hst⟩
        · cases hno
    | closed => exact Or.inl ⟨rfl, fun _ => rfl⟩
    | full => exact Or.inl ⟨rfl, fun _ => rfl⟩
  · rw [if_neg hlive]
    exact Or.inl ⟨rfl, fun hl => absurd hl hlive⟩

/-- The links are about the sessions, the store and the counters. -/
theorem Linked.congr {m m' : Mem} (h : m.Linked) (hs : m'.session = m.session)
    (hst : m'.store = m.store) (hn : m'.sessionCount = m.sessionCount)
    (he : m'.elemCount = m.elemCount) : m'.Linked := by
  obtain ⟨store, session, client, n, e⟩ := m
  obtain ⟨store', session', client', n', e'⟩ := m'
  subst hs hst hn he
  exact ⟨fun p => ⟨(h.session p).stored, (h.session p).listed, (h.session p).elem,
    (h.session p).allocated, (h.session p).parked, (h.session p).attached, (h.session p).limits⟩,
    h.nodup⟩

/-- A delivery keeps the list and the sessions linked: it changes no state and no element. -/
theorem Linked.deliver {m : Mem} (h : m.Linked) (p : SessionRef) (data : Bytes)
    (pol : SendPolicy) : (m.deliver p data pol).1.Linked := by
  have hlim := (h.session p).limits
  have hset : (m.setSession p ((m.session p).deliver (m.liveClient p) data pol).1).Linked := by
    rcases (m.session p).deliver_cases (m.liveClient p) data pol with
      ⟨n, live', hd, -⟩ | ⟨st, live', ok, hd, -⟩
    · rw [hd]
      exact h.setSession rfl rfl rfl (fun _ => ⟨rfl, rfl⟩) hlim
    · rw [hd]
      obtain ⟨hm, hb⟩ := (m.session p).buf.push_caps (m.session p).next data
      exact h.setSession rfl rfl rfl (fun _ => ⟨rfl, rfl⟩)
        ⟨hm.trans hlim.1, hb.trans hlim.2.1, hlim.2.2⟩
  exact hset.congr (funext fun q => by simp) (by simp) (by simp) (by simp)

/-- `TrySendPolicy` on a client without a session touches that client only, and
its queue and drop counter only. -/
theorem trySendPolicy_unbound {m : Mem} {c : ClientRef} (hc : (m.client c).session = none)
    (data : Bytes) (pol : SendPolicy) :
    ∃ send dropped ok, m.trySendPolicy c data pol =
        (m.setClient c { m.client c with send := send, dropped := dropped }, ok) ∧
      (send = (m.client c).send ∨ send = (m.client c).send ++ [data]) := by
  unfold trySendPolicy
  rw [hc]
  dsimp only
  by_cases hclosed : (m.client c).closed = true
  · exact ⟨_, _, _, by rw [Client.enqueue_of_closed hclosed], Or.inl rfl⟩
  rw [Bool.not_eq_true] at hclosed
  by_cases hroom : (m.client c).send.length < (m.client c).sendBuffer
  · exact ⟨_, _, _, by rw [Client.enqueue_of_room hclosed hroom], Or.inr rfl⟩
  · rw [Client.enqueue_of_full hclosed (not_lt.1 hroom)]
    dsimp only
    split_ifs
    · exact ⟨_, _, _, rfl, Or.inl rfl⟩
    · exact ⟨_, _, _, rfl, Or.inl rfl⟩

/-- A bound client sends through its session. -/
theorem trySendPolicy_bound {m : Mem} {c : ClientRef} {p : SessionRef}
    (hc : (m.client c).session = some p) (data : Bytes) (pol : SendPolicy) :
    m.trySendPolicy c data pol = m.deliver p data pol := by
  unfold trySendPolicy
  rw [hc]

/-- Sending leaves the store's tables alone. -/
@[simp] theorem trySendPolicy_store (m : Mem) (c : ClientRef) (data : Bytes) (pol : SendPolicy) :
    (m.trySendPolicy c data pol).1.store = m.store := by
  cases hc : (m.client c).session with
  | none =>
      obtain ⟨send, dropped, ok, heq, -⟩ := trySendPolicy_unbound hc data pol
      rw [heq, setClient_store]
  | some p => rw [trySendPolicy_bound hc, deliver_store]

/-- Sending allocates no session. -/
@[simp] theorem trySendPolicy_sessionCount (m : Mem) (c : ClientRef) (data : Bytes)
    (pol : SendPolicy) : (m.trySendPolicy c data pol).1.sessionCount = m.sessionCount := by
  cases hc : (m.client c).session with
  | none =>
      obtain ⟨send, dropped, ok, heq, -⟩ := trySendPolicy_unbound hc data pol
      rw [heq, setClient_sessionCount]
  | some p => rw [trySendPolicy_bound hc, deliver_sessionCount]

/-- Sending keeps the list and the sessions linked. -/
theorem Linked.trySendPolicy {m : Mem} (h : m.Linked) (c : ClientRef) (data : Bytes)
    (pol : SendPolicy) : (m.trySendPolicy c data pol).1.Linked := by
  cases hc : (m.client c).session with
  | none =>
      obtain ⟨send, dropped, ok, heq, -⟩ := trySendPolicy_unbound hc data pol
      rw [heq]
      exact h.setClient c _
  | some p =>
      rw [trySendPolicy_bound hc]
      exact h.deliver p data pol

/-- An ack keeps the list and the sessions linked. -/
theorem Linked.ack {m : Mem} (h : m.Linked) (p : SessionRef) (seq : ℕ) : (m.ack p seq).Linked := by
  have hlim := (h.session p).limits
  obtain ⟨hm, hb⟩ := (m.session p).buf.ackUpTo_caps seq
  unfold Mem.ack Session.ack
  split_ifs
  · exact h.setSession rfl rfl rfl (fun _ => ⟨rfl, rfl⟩)
      ⟨hm.trans hlim.1, hb.trans hlim.2.1, hlim.2.2⟩
  · exact h.setSession rfl rfl rfl (fun _ => ⟨rfl, rfl⟩) hlim

/-- Claiming a key keeps the list and the sessions linked. -/
theorem Linked.claimKey {m : Mem} (h : m.Linked) (p : SessionRef) (key : String) :
    (m.claimKey p key).1.Linked := by
  have hlim := (h.session p).limits
  exact h.setSession rfl rfl rfl (fun _ => ⟨rfl, rfl⟩)
    ⟨hlim.1, hlim.2.1, (KeyWindow.claim_max ..).trans hlim.2.2⟩

end Mem
end GoSocket
