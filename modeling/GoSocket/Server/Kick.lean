/-
# A kicked peer

`ctx.Disconnect` is documented to terminate the session, so that a kicked peer
cannot resume.  `Shutdown` itself only sets `noResume` and closes the transport;
it is the read pump that ends the session, when it notices and calls
`Leave(s, c, !noResume)`.  Two schedules get in between:

* another connection resumes the session after `Shutdown` and before the read
  pump's `Leave`: nothing in `Open` looks at `noResume`, the session changes
  hands, and `Leave` then finds a client that is not live and does nothing
  (`kicked_peer_resumes`);
* `Shutdown` is called after the read pump has loaded `noResume` and before it
  calls `Leave`, which then parks the session.

They are the only ones (`kicked_never_resumes`).
-/

import GoSocket.Server.Layer

namespace GoSocket
namespace Layer

open Lib

/-- The schedules that end a session in time: no `Open` that passes every test of
`verdict` is called on a session whose live client was shut down, and `Shutdown`
is not called on a live client whose read pump has already loaded `noResume`. -/
def InTime (f : Layer) : LayerOp → Prop
  | .openSession _ req now _ => req.requested = true → req.invalid = false →
      ∀ p ∈ f.mem.store.sessions req.sessionID, ∀ c ∈ (f.mem.session p).live,
        (f.mem.client c).noResume = true →
        ((f.mem.session p).verdict req now f.mem.store.opt.ttl).1 ≠ none
  | .shutdown c => ∀ p ∈ (f.mem.client c).session, (f.mem.session p).live = some c →
      f.retiring c ≠ some true
  | _ => True

instance (f : Layer) (a : LayerOp) : Decidable (f.InTime a) := by
  induction a using LayerOp.casesOn <;> dsimp only [InTime] <;> infer_instance

/-- The session is closed, or it will be: its live client is `c`, which was shut
down, and no `Leave` that parks is on its way. -/
def Doomed (p : SessionRef) (c : ClientRef) (f : Layer) : Prop :=
  (f.mem.session p).state = .closed ∨
    ((f.mem.session p).state = .attached ∧ (f.mem.session p).live = some c ∧
      (f.mem.client c).noResume = true ∧ f.retiring c ≠ some true)

variable {f f' g : Layer} {a : LayerOp} {p : SessionRef} {c : ClientRef}

/-- Who is about to call `Leave(…, true)` decided so now or before. -/
theorem record_retiring (h : (f.record a).retiring c = some true) :
    f.retiring c = some true ∨ (f.mem.client c).noResume = false := by
  unfold record at h
  split at h
  · exact Or.inl h
  · split_ifs at h <;> exact Or.inl h
  · exact Or.inl h
  · exact Or.inl h
  · next d =>
    dsimp only at h
    rw [Function.update_apply] at h
    split_ifs at h with hcd
    · subst hcd
      exact Or.inr (by simpa using h)
    · exact Or.inl h
  · split at h
    · dsimp only at h
      rw [Function.update_apply] at h
      split_ifs at h
      exact Or.inl h
    · exact Or.inl h
  · exact Or.inl h
  · exact Or.inl h
  · exact Or.inl h

/-- A client that may not resume does not come to retire resumably. -/
theorem Step.retiring (h : f.Step a f') (hno : (f.mem.client c).noResume = true)
    (hr : f.retiring c ≠ some true) : f'.retiring c ≠ some true := by
  intro hr'
  obtain ⟨-, heq, -⟩ := h.cases
  have hrec : (f.record a).retiring c = some true := by
    rw [heq] at hr'
    exact hr'
  rcases record_retiring hrec with hold | hold
  · exact hr hold
  · rw [hno] at hold
    cases hold

/-- What one call does to a doomed session. -/
theorem doomed_call {op : Op} (h : f.Inv) (hp : p < f.mem.sessionCount)
    (hatt : (f.mem.session p).state = .attached) (hlive : (f.mem.session p).live = some c)
    (hno : (f.mem.client c).noResume = true) (hr : f.retiring c ≠ some true)
    (hcall : f.call a = some op) (hstep : f.mem.Step op f'.mem) (hintime : f.InTime a) :
    (f'.mem.session p).state = .closed ∨
      ((f'.mem.session p).state = .attached ∧ (f'.mem.session p).live = some c) := by
  have ht := h.store.step_touched hstep p
  generalize f'.mem.session p = s at ht
  cases ht with
  | same => exact Or.inr ⟨hatt, hlive⟩
  | allocated _ hpn => exact absurd hpn hp.ne
  | attached hop hreq hinv hs hv =>
      subst hop
      obtain rfl := call_eq_openSession hcall
      exact absurd hv (hintime hreq hinv p hs c hlive hno)
  | @parked d now hop _ hd =>
      obtain rfl : d = c := Option.some.inj (hd.symm.trans hlive)
      subst hop
      exact absurd (call_eq_leave hcall).2.2 hr
  | expired => exact Or.inl rfl
  | evicted => exact Or.inl rfl
  | refused => exact Or.inl rfl
  | ended => exact Or.inl rfl
  | @delivered data pol _ =>
      obtain ⟨_, _, _, _, _, hd⟩ :=
        (f.mem.session p).deliver_frame (f.mem.liveClient p) data pol
      rw [hd]
      exact Or.inr ⟨hatt, hlive⟩
  | acked =>
      unfold Session.ack
      split_ifs <;> exact Or.inr ⟨hatt, hlive⟩
  | claimed => exact Or.inr ⟨hatt, hlive⟩

/-- **A doomed session stays doomed.** -/
theorem Doomed.step (hd : Doomed p c f) (h : f.Inv) (hp : p < f.mem.sessionCount)
    (hstep : Guarded InTime Step f a f') : Doomed p c f' := by
  obtain ⟨hintime, hstep⟩ := hstep
  obtain ⟨-, -, hmem⟩ := hstep.cases
  rcases hd with hclosed | ⟨hatt, hlive, hno, hr⟩
  · refine Or.inl ?_
    rcases hmem with ⟨-, hm⟩ | ⟨op, -, hm⟩
    · rw [hm]
      exact hclosed
    · exact (h.store.step_touched hm p).closed hp hclosed
  · have hr' := hstep.retiring hno hr
    rcases hmem with ⟨-, hm⟩ | ⟨op, hcall, hm⟩
    · rw [Doomed, hm]
      exact Or.inr ⟨hatt, hlive, hno, hr'⟩
    · have hno' := (Mem.step_clientTouched h.store hm c).mono.2 hno
      rcases doomed_call h hp hatt hlive hno hr hcall hm hintime with hclosed | ⟨hatt', hlive'⟩
      · exact Or.inl hclosed
      · exact Or.inr ⟨hatt', hlive', hno', hr'⟩

/-- `Shutdown` in time dooms the session. -/
theorem doomed_shutdown (h : f.Inv) (hlive : (f.mem.session p).live = some c)
    (hopen : (f.mem.session p).state ≠ .closed)
    (hkick : Guarded InTime Step f (.shutdown c) f') : Doomed p c f' := by
  obtain ⟨hintime, hstep⟩ := hkick
  obtain ⟨-, heq, ⟨hno, -⟩ | ⟨op, hcall, hm⟩⟩ := hstep.cases
  · cases hno
  · cases hcall
    obtain hm := (Option.some.inj hm).symm
    have hatt : (f.mem.session p).state = .attached := by
      cases hs : (f.mem.session p).state with
      | attached => rfl
      | closed => exact absurd hs hopen
      | parked =>
          rw [((h.store.linked.session p).parked hs).1] at hlive
          cases hlive
    refine Or.inr ⟨?_, ?_, ?_, ?_⟩
    · rw [hm]
      exact hatt
    · rw [hm]
      exact hlive
    · rw [hm]
      simp [Client.shutdown]
    · rw [heq]
      exact hintime p (h.bound.live hlive) hlive

/-- **A kicked peer cannot resume** on a schedule that ends its session in time:
once `Shutdown` was called on the live client of an open session, no later `Open`
resumes the session. -/
theorem kicked_never_resumes (opt : SessionOptions) (digest : String → String)
    (sendBuffer : ClientRef → ℤ) (f f' g : Layer)
    (h : Reachable (Guarded InTime Step) (init opt digest sendBuffer) f) (p : SessionRef)
    (c : ClientRef) (hlive : (f.mem.session p).live = some c)
    (hopen : (f.mem.session p).state ≠ .closed)
    (hkick : Guarded InTime Step f (.shutdown c) f') (hrun : Reachable (Guarded InTime Step) f' g)
    (d : ClientRef) (req : ResumeRequest) (now : ℤ) (newID : Option String)
    (hnext : g.InTime (.openSession d req now newID)) :
    ¬ ((g.mem.open d req now newID).2.1.resumed = true ∧
      (g.mem.open d req now newID).2.1.session = some p) := by
  have hf := Inv.of_reachable h.of_guarded
  have hp := (hf.store.linked.session p).allocated hopen
  obtain ⟨as, hrun⟩ := hrun
  have hg := hrun.invariant
    (P := fun f => f.Inv ∧ p < f.mem.sessionCount ∧ Doomed p c f) (fun s a t hs hstep => ?_)
    ⟨hf.step hkick.2, ?_, doomed_shutdown hf hlive hopen hkick⟩
  · rintro ⟨hres, hs⟩
    obtain ⟨hreq, hinv, hfind, hv, -⟩ := Mem.resumed_verdict hres hs
    rcases hg.2.2 with hclosed | ⟨-, hlive', hno, -⟩
    · exact (Session.verdict_eq_none.1 hv).1 hclosed
    · exact hnext hreq hinv p hfind c hlive' hno hv
  · exact ⟨hs.1.step hstep.2, hs.2.1.trans_le (hstep.2.sessionCount_le hs.1),
      hs.2.2.step hs.1 hs.2.1 hstep⟩
  · exact hp.trans_le (hkick.2.sessionCount_le hf)

/-- A peer is kicked and its read pump leaves; its session does not come back. -/
theorem kicked_never_resumes_after_leave :
    ∃ f f' g : Layer, f.Step (.shutdown 0) f' ∧ (f.mem.session 0).live = some 0 ∧
      (g.mem.session 0).state = .closed ∧
      ¬ ((g.mem.open 1 ⟨true, false, "a", 0, ""⟩ 2 (some "b")).2.1.resumed = true ∧
        (g.mem.open 1 ⟨true, false, "a", 0, ""⟩ 2 (some "b")).2.1.session = some 0) := by
  obtain ⟨f, hf, hp⟩ := Reachable.of_exec_guarded (G := InTime) step
    (s := init ⟨0, 0, 0, 0, 0⟩ id fun _ => 0)
    [.openSession 0 ⟨false, false, "", 0, ""⟩ 0 (some "a")]
    (p := fun f => (f.mem.session 0).live = some 0 ∧ (f.mem.session 0).state ≠ .closed ∧
      f.InTime (.shutdown 0) ∧ (f.step (.shutdown 0)).any fun f' =>
        ((exec (fun s a => if InTime s a then step s a else none) f' [.readEnd 0, .leave 0 1]).map
          fun g => decide ((g.mem.session 0).state = .closed ∧
            g.InTime (.openSession 1 ⟨true, false, "a", 0, ""⟩ 2 (some "b")))) = some true)
    (by decide)
  obtain ⟨hlive, hopen, hintime, hkick⟩ := of_decide_eq_true hp
  obtain ⟨f', hf', hrun⟩ := (Option.any_eq_true _ _).1 hkick
  obtain ⟨g, hg, hclosed⟩ := Reachable.of_exec_guarded (G := InTime) step _ (of_decide_eq_true hrun)
  obtain ⟨hclosed, hnext⟩ := of_decide_eq_true hclosed
  exact ⟨f, f', g, hf', hlive, hclosed, kicked_never_resumes _ _ _ f f' g hf 0 0 hlive hopen
    ⟨hintime, hf'⟩ hg 1 _ 2 _ hnext⟩

/-- **Counterexample.**  A client is shut down by the server, and before its read
pump notices, a connection with the same session token resumes the session. -/
theorem kicked_peer_resumes :
    ∃ f f' : Layer, Reachable Step (init ⟨0, 0, 0, 0, 0⟩ id fun _ => 0) f ∧
      (f.mem.session 0).live = some 0 ∧ (f.mem.session 0).state ≠ .closed ∧
      f.Step (.shutdown 0) f' ∧
      (f'.mem.open 1 ⟨true, false, "a", 0, ""⟩ 1 (some "b")).2.1.resumed = true ∧
      (f'.mem.open 1 ⟨true, false, "a", 0, ""⟩ 1 (some "b")).2.1.session = some 0 := by
  obtain ⟨f, hf, hp⟩ := Reachable.of_exec step
    (s := init ⟨0, 0, 0, 0, 0⟩ id fun _ => 0)
    [.openSession 0 ⟨false, false, "", 0, ""⟩ 0 (some "a")]
    (p := fun f => (f.mem.session 0).live = some 0 ∧ (f.mem.session 0).state ≠ .closed ∧
      (f.step (.shutdown 0)).any fun f' =>
        (f'.mem.open 1 ⟨true, false, "a", 0, ""⟩ 1 (some "b")).2.1.resumed ∧
          (f'.mem.open 1 ⟨true, false, "a", 0, ""⟩ 1 (some "b")).2.1.session = some 0)
    (by decide)
  obtain ⟨hlive, hopen, hkick⟩ := of_decide_eq_true hp
  obtain ⟨f', hf', hres⟩ := (Option.any_eq_true _ _).1 hkick
  obtain ⟨hresumed, hs⟩ := of_decide_eq_true hres
  exact ⟨f, f', hf, hlive, hopen, hf', hresumed, hs⟩

end Layer
end GoSocket
