/-
# Connections that go silent

Two ways a connection can stay up and never be written to again.

A session that stalls takes no frames on its live connection until a resume.
`deliver` stalls it because the live client's queue is full or closed; in the
first case it returns `false`, and the caller disconnects the client it sent
through.  That is the live client as long as the frame was sent through it; a
handler still running on a displaced connection, or a hub that has not yet
processed the `Transfer`, sends through another one, which is then closed in its
place (`stalled_connection_stays_up`).

A session that is discarded swallows every frame.  `attachLocked` reports the
connection it takes the session from as `Displaced`; the branch of `Open` that
refuses a resume and discards the session does not, although the session may be
attached to a live connection (`orphaned_connection_stays_up`).
-/

import GoSocket.Server.Layer

namespace GoSocket
namespace Layer

open Lib

variable {f f' : Layer} {a : LayerOp}

/-- The live connection of a stalled session is closed, or about to be. -/
def StalledCloses (f : Layer) : Prop :=
  ∀ p c, (f.mem.session p).state = .attached → (f.mem.session p).stalled = true →
    (f.mem.session p).live = some c → (f.mem.client c).closed = true ∨ c ∈ f.pending

/-- No frame that must not be dropped is sent through a client other than the
live one while the live client's queue is open and full. -/
def ThroughLive (f : Layer) : LayerOp → Prop
  | .send c _ pol => ∀ p ∈ (f.mem.client c).session, ∀ d ∈ (f.mem.session p).live, d ≠ c →
      ¬ (pol = .disconnect ∧ (f.mem.session p).state = .attached ∧
        (f.mem.session p).stalled = false ∧ (f.mem.client d).closed = false ∧
        (f.mem.client d).sendBuffer ≤ (f.mem.client d).send.length)
  | _ => True

instance (f : Layer) (a : LayerOp) : Decidable (f.ThroughLive a) := by
  unfold ThroughLive
  split <;> infer_instance

/-- The one step that delivers is a send through a client. -/
theorem call_eq_trySend {c : ClientRef} {data : Bytes} {pol : SendPolicy}
    (h : f.call a = some (.trySend c data pol)) : a = .send c data pol := by
  cases called h
  rfl

/-- No step of the layer is a delivery. -/
theorem call_ne_deliver {p : SessionRef} {data : Bytes} {pol : SendPolicy} :
    f.call a ≠ some (.deliver p data pol) :=
  fun h => nomatch called h

/-- A session that was stalled before the step. -/
theorem StalledCloses.of_stalled (hs : f.StalledCloses) (h : f.Inv) (hstep : f.Step a f')
    {p : SessionRef} {c : ClientRef} (hatt : (f.mem.session p).state = .attached)
    (hst : (f.mem.session p).stalled = true) (hlive : (f.mem.session p).live = some c) :
    (f'.mem.client c).closed = true ∨ c ∈ f'.pending := by
  rcases hs p c hatt hst hlive with hclosed | hpending
  · exact Or.inl (hstep.closed h hclosed)
  · exact (hstep.pending hpending).symm

/-- **A delivery that stalls the session** closes the live connection: it was
closed before, or it was the one the frame was sent through. -/
theorem StalledCloses.of_send (hs : f.StalledCloses) (h : f.Inv) {c : ClientRef} {data : Bytes}
    {pol : SendPolicy} (hstep : f.Step (.send c data pol) f')
    (hg : f.ThroughLive (.send c data pol)) {p : SessionRef}
    (hc : (f.mem.client c).session = some p) {d : ClientRef}
    (hatt : (f.mem.session p).state = .attached) (hlive : (f.mem.session p).live = some d)
    (hst : ((f.mem.session p).deliver (f.mem.liveClient p) data pol).1.stalled = true) :
    (f'.mem.client d).closed = true ∨ d ∈ f'.pending := by
  by_cases hold : (f.mem.session p).stalled = true
  · exact hs.of_stalled h hstep hatt hold hlive
  rw [Bool.not_eq_true] at hold
  have hlc : f.mem.liveClient p = some (f.mem.client d) := by
    rw [Mem.liveClient, hlive, Option.map_some]
  rcases (f.mem.session p).deliver_cases (f.mem.liveClient p) data pol with
    ⟨n, live', hd, -⟩ | ⟨st, live', ok, hd, -, -, hh⟩
  · rw [hd] at hst
    rw [show (f.mem.session p).stalled = true from hst] at hold
    cases hold
  · rw [hd] at hst
    have hst' : st = true := hst
    rw [hlc] at hh
    cases hh with
    | queued =>
        rw [hst'] at hold
        cases hold
    | offline hon =>
        rcases Session.online_eq_none.1 hon with hyes | hno
        · rw [hyes] at hold
          cases hold
        · cases hno
    | closed hon hclosed =>
        obtain rfl := Option.some.inj (Session.online_eq_some.1 hon).2
        exact Or.inl (hstep.closed h hclosed)
    | full hon hopen hfull hpol =>
        obtain rfl := Option.some.inj (Session.online_eq_some.1 hon).2
        have hdc : d = c := by
          by_contra hne
          exact hg p hc d hlive hne ⟨hpol, hatt, hold, hopen, hfull⟩
        subst hdc
        obtain ⟨-, heq, -⟩ := hstep.cases
        refine Or.inr ?_
        have hfalse : (f.mem.trySendPolicy d data pol).2 = false := by
          rw [Mem.trySendPolicy_bound hc, Mem.deliver_ok, hd]
        rw [heq]
        simp [record, hfalse]

/-- **Every step through the live client keeps it.** -/
theorem StalledCloses.step (hs : f.StalledCloses) (h : f.Inv)
    (hstep : Guarded ThroughLive Step f a f') : f'.StalledCloses := by
  obtain ⟨hg, hstep⟩ := hstep
  intro p c hatt hst hlive
  rcases hstep.session h p with heq | ⟨op, hcall, ht⟩
  · rw [heq] at hatt hst hlive
    exact hs.of_stalled h hstep hatt hst hlive
  · generalize f'.mem.session p = s at ht hatt hst hlive
    cases ht with
    | same => exact hs.of_stalled h hstep hatt hst hlive
    | allocated => cases hst
    | attached => cases hst
    | parked => cases hatt
    | expired => cases hatt
    | evicted => cases hatt
    | refused => cases hatt
    | ended => cases hatt
    | @delivered data pol hop =>
        rcases hop with rfl | ⟨d, rfl, hd⟩
        · exact absurd hcall call_ne_deliver
        · obtain rfl := call_eq_trySend hcall
          obtain ⟨_, _, _, _, _, hfr⟩ :=
            (f.mem.session p).deliver_frame (f.mem.liveClient p) data pol
          have hatt' : (f.mem.session p).state = .attached := by
            rw [hfr] at hatt
            exact hatt
          have hlive' : (f.mem.session p).live = some c := by
            rw [hfr] at hlive
            exact hlive
          exact hs.of_send h hstep hg hd hatt' hlive' hst
    | acked =>
        unfold Session.ack at hatt hst hlive
        split_ifs at hatt hst hlive <;> exact hs.of_stalled h hstep hatt hst hlive
    | claimed => exact hs.of_stalled h hstep hatt hst hlive

/-- **No session goes silent while its connection stays up**, in any run in which
no frame overflows the live client's queue on its way through another client. -/
theorem stalled_closes (opt : SessionOptions) (digest : String → String)
    (sendBuffer : ClientRef → ℤ) (f : Layer)
    (h : Reachable (Guarded ThroughLive Step) (init opt digest sendBuffer) f) :
    f.StalledCloses := by
  refine (h.invariant (P := fun f => f.Inv ∧ f.StalledCloses)
    ⟨inv_init opt digest sendBuffer, fun p c hatt => by cases hatt⟩
    fun s a t hs hstep => ⟨hs.1.step hstep.2, hs.2.step hs.1 hstep⟩).2

/-- A slow peer is disconnected by the frame that overflows its queue. -/
theorem stalled_closes_slow_peer :
    ∃ f : Layer, (f.mem.session 0).state = .attached ∧ (f.mem.session 0).stalled = true ∧
      (f.mem.session 0).live = some 0 ∧ ((f.mem.client 0).closed = true ∨ 0 ∈ f.pending) := by
  obtain ⟨f, hf, hp⟩ := Reachable.of_exec_guarded (G := ThroughLive) step
    (s := init ⟨0, 0, 0, 0, 0⟩ id fun _ => 1)
    [.openSession 0 ⟨false, false, "", 0, ""⟩ 0 (some "a"),
      .send 0 (ascii "\x7b\x7d") .disconnect, .send 0 (ascii "\x7b\x7d") .disconnect]
    (p := fun f => (f.mem.session 0).state = .attached ∧ (f.mem.session 0).stalled = true ∧
      (f.mem.session 0).live = some 0) (by decide +kernel)
  obtain ⟨hatt, hst, hlive⟩ := of_decide_eq_true hp
  exact ⟨f, hatt, hst, hlive, stalled_closes _ _ _ f hf 0 0 hatt hst hlive⟩

/-- **Counterexample.**  A peer resumes on a second connection with a send queue of
one frame.  A handler of the first connection sends two more events: the second
one overflows the queue of the new connection and stalls the session, and the old
connection is closed for it.  The new one stays up. -/
theorem stalled_connection_stays_up :
    ∃ f : Layer, Reachable Step (init ⟨0, 0, 0, 0, 0⟩ id fun _ => 1) f ∧
      (f.mem.session 0).state = .attached ∧ (f.mem.session 0).stalled = true ∧
      (f.mem.session 0).live = some 1 ∧ (f.mem.client 1).closed = false ∧ 1 ∉ f.pending := by
  obtain ⟨f, hf, hp⟩ := Reachable.of_exec step
    (s := init ⟨0, 0, 0, 0, 0⟩ id fun _ => 1)
    [.openSession 0 ⟨false, false, "", 0, ""⟩ 0 (some "a"),
      .openSession 1 ⟨true, false, "a", 0, ""⟩ 1 (some "b"),
      .send 0 (ascii "\x7b\x7d") .disconnect, .send 0 (ascii "\x7b\x7d") .disconnect,
      .runShutdown 0, .displace 0]
    (p := fun f => (f.mem.session 0).state = .attached ∧ (f.mem.session 0).stalled = true ∧
      (f.mem.session 0).live = some 1 ∧ (f.mem.client 1).closed = false ∧ 1 ∉ f.pending)
    (by decide +kernel)
  exact ⟨f, hf, of_decide_eq_true hp⟩

/-- The live connection of a closed session is closed, or its `openSession` was told to. -/
def ClosedCloses (f : Layer) : Prop :=
  ∀ p c, (f.mem.session p).state = .closed → (f.mem.session p).live = some c →
    (f.mem.client c).closed = true ∨ c ∈ f.told

/-- No owner asks to resume a session that is attached to an open connection with
a number that was not assigned yet, or from which the replay buffer has a gap. -/
def Resumable (f : Layer) : LayerOp → Prop
  | .openSession _ req _ _ => req.requested = true → req.invalid = false →
      ∀ p ∈ f.mem.store.sessions req.sessionID, ∀ c ∈ (f.mem.session p).live,
        (f.mem.session p).owner = req.owner → (f.mem.session p).state = .attached →
        (f.mem.client c).closed = false →
          req.lastSeq < (f.mem.session p).next ∧ (req.lastSeq < (f.mem.session p).next - 1 →
            (f.mem.session p).buf.covers req.lastSeq = true)
  | _ => True

instance (f : Layer) (a : LayerOp) : Decidable (f.Resumable a) := by
  induction a using LayerOp.casesOn with
  | openSession _ req =>
      exact inferInstanceAs (Decidable (req.requested = true → req.invalid = false → _))
  | _ => dsimp only [Resumable]; infer_instance

/-- A session that was closed before the step. -/
theorem ClosedCloses.of_closed (hs : f.ClosedCloses) (h : f.Inv) (hstep : f.Step a f')
    {p : SessionRef} {c : ClientRef} (hclosed : (f.mem.session p).state = .closed)
    (hlive : (f.mem.session p).live = some c) :
    (f'.mem.client c).closed = true ∨ c ∈ f'.told := by
  rcases hs p c hclosed hlive with hc | htold
  · exact Or.inl (hstep.closed h hc)
  · exact (hstep.told htold).symm

/-- An `Open` that discards an attached session found a number it cannot resume from. -/
theorem verdict_kill_attached {s : Session} {req : ResumeRequest} {now ttl : ℤ}
    (hkill : (s.verdict req now ttl).2 = true) (hatt : s.state = .attached) :
    s.owner = req.owner ∧ ¬ (req.lastSeq < s.next ∧
      (req.lastSeq < s.next - 1 → s.buf.covers req.lastSeq = true)) := by
  refine ⟨(Session.verdict_kill hkill).2, fun hok => ?_⟩
  have hnone : (s.verdict req now ttl).1 = none := by
    rw [Session.verdict_eq_none, hatt]
    exact ⟨by decide, (Session.verdict_kill hkill).2, by simp, hok⟩
  unfold Session.verdict at hkill hnone
  split_ifs at hkill hnone

/-- **Every step that resumes what it can keeps it.** -/
theorem ClosedCloses.step (hs : f.ClosedCloses) (h : f.Inv)
    (hstep : Guarded Resumable Step f a f') : f'.ClosedCloses := by
  obtain ⟨hg, hstep⟩ := hstep
  intro p c hclosed hlive
  -- a parked session has no live client
  have hparked : (f.mem.session p).state = .parked → (f.mem.session p).live ≠ some c := by
    intro hpark
    rw [((h.store.linked.session p).parked hpark).1]
    simp
  rcases hstep.session h p with heq | ⟨op, hcall, ht⟩
  · rw [heq] at hclosed hlive
    exact hs.of_closed h hstep hclosed hlive
  · generalize f'.mem.session p = s at ht hclosed hlive
    cases ht with
    | same => exact hs.of_closed h hstep hclosed hlive
    | allocated => cases hclosed
    | attached => cases hclosed
    | parked => cases hclosed
    | expired _ hpark => exact absurd hlive (hparked hpark)
    | evicted _ _ hpark => exact absurd hlive (hparked hpark)
    | refused hop hreq hinv hfind hkill =>
        subst hop
        obtain rfl := call_eq_openSession hcall
        have hatt : (f.mem.session p).state = .attached := by
          cases hst : (f.mem.session p).state with
          | attached => rfl
          | parked => exact absurd hlive (hparked hst)
          | closed => exact absurd hst (Session.verdict_kill hkill).1
        obtain ⟨howner, hbad⟩ := verdict_kill_attached hkill hatt
        refine Or.inl (hstep.closed h ?_)
        by_contra hopen
        rw [Bool.not_eq_true] at hopen
        exact hbad (hg hreq hinv p hfind c hlive howner hatt hopen)
    | ended => cases hlive
    | @delivered data pol hop =>
        obtain ⟨_, _, _, _, _, hfr⟩ :=
          (f.mem.session p).deliver_frame (f.mem.liveClient p) data pol
        rw [hfr] at hclosed hlive
        exact hs.of_closed h hstep hclosed hlive
    | acked =>
        unfold Session.ack at hclosed hlive
        split_ifs at hclosed hlive <;> exact hs.of_closed h hstep hclosed hlive
    | claimed => exact hs.of_closed h hstep hclosed hlive

/-- **No live connection is left bound to a dead session**, in any run in which no
owner asks to resume an attached session from a number it cannot be resumed from. -/
theorem closed_closes (opt : SessionOptions) (digest : String → String)
    (sendBuffer : ClientRef → ℤ) (f : Layer)
    (h : Reachable (Guarded Resumable Step) (init opt digest sendBuffer) f) : f.ClosedCloses := by
  refine (h.invariant (P := fun f => f.Inv ∧ f.ClosedCloses)
    ⟨inv_init opt digest sendBuffer, fun p c _ hlive => by cases hlive⟩
    fun s a t hs hstep => ⟨hs.1.step hstep.2, hs.2.step hs.1 hstep⟩).2

/-- The connection of a discarded session was closed before. -/
theorem closed_closes_zombie :
    ∃ f : Layer, (f.mem.session 0).state = .closed ∧ (f.mem.session 0).live = some 0 ∧
      ((f.mem.client 0).closed = true ∨ 0 ∈ f.told) := by
  obtain ⟨f, hf, hp⟩ := Reachable.of_exec_guarded (G := Resumable) step
    (s := init ⟨0, 0, 0, 0, 0⟩ id fun _ => 0)
    [.openSession 0 ⟨false, false, "", 0, ""⟩ 0 (some "a"), .closeRaw 0,
      .openSession 1 ⟨true, false, "a", 5, ""⟩ 1 (some "b")]
    (p := fun f => (f.mem.session 0).state = .closed ∧ (f.mem.session 0).live = some 0) (by decide)
  obtain ⟨hclosed, hlive⟩ := of_decide_eq_true hp
  exact ⟨f, hclosed, hlive, closed_closes _ _ _ f hf 0 0 hclosed hlive⟩

/-- **Counterexample.**  The owner of an attached session asks to resume it from
number 5 when none was assigned.  The session is discarded, and the connection it
is attached to stays up without anybody being told to close it. -/
theorem orphaned_connection_stays_up :
    ∃ f : Layer, Reachable Step (init ⟨0, 0, 0, 0, 0⟩ id fun _ => 0) f ∧
      (f.mem.session 0).state = .closed ∧ (f.mem.session 0).live = some 0 ∧
      (f.mem.client 0).closed = false ∧ 0 ∉ f.told := by
  obtain ⟨f, hf, hp⟩ := Reachable.of_exec step
    (s := init ⟨0, 0, 0, 0, 0⟩ id fun _ => 0)
    [.openSession 0 ⟨false, false, "", 0, ""⟩ 0 (some "a"),
      .openSession 1 ⟨true, false, "a", 5, ""⟩ 1 (some "b")]
    (p := fun f => (f.mem.session 0).state = .closed ∧ (f.mem.session 0).live = some 0 ∧
      (f.mem.client 0).closed = false ∧ 0 ∉ f.told) (by decide)
  exact ⟨f, hf, of_decide_eq_true hp⟩

end Layer
end GoSocket
