/-
# A broadcast reaches a session once

`deliver` routes through the session, whichever of its clients it was called on.
Between `Open` and `Transfer` the hub knows two clients of one session, the old
one and the new one.  A job for all clients, or for a room that the new client
has joined in the connect middlewares, is then sent to both, and the session
commits it twice, under two numbers, which the peer cannot tell from two events
(`delivered_twice`).  The comment on `transferMembership` claims that no emit
observes a half-moved state.

On a schedule that takes `Transfer`s in order and no `Join` of a replaced client
(`Server.Membership`), a session has two clients among the targets of a job only
while a `Transfer` between them is to come, or when `Open` binds a target in the
middle of the loop.  Without these (`Once`) no session is served twice
(`delivered_once`).
-/

import GoSocket.Server.Membership

namespace GoSocket

open Lib

/-- The session `Open` binds a client to is one it resumes or one it has just
allocated. -/
theorem Mem.open_session {m : Mem} {c : ClientRef} {req : ResumeRequest} {now : ℤ}
    {newID : Option String} {p : SessionRef} (hc : (m.client c).session = none)
    (hp : ((m.open c req now newID).1.client c).session = some p) :
    (req.requested = true ∧ req.invalid = false ∧ m.store.sessions req.sessionID = some p ∧
      ((m.session p).verdict req now m.store.opt.ttl).1 = none) ∨ p = m.sessionCount := by
  obtain ⟨m', res, due, hopen, ho⟩ := m.exists_opened c req now newID
  rw [hopen] at hp
  cases ho with
  | @resumed q hinv hreq hs hv =>
      obtain rfl : q = p := by simpa using hp
      exact Or.inl ⟨hreq, hinv, hs, hv⟩
  | unbound _ hr =>
      rw [hr.client_eq.1, hc] at hp
      cases hp
  | fresh _ hr =>
      refine Or.inr ?_
      rw [← hr.client_eq.2.1]
      simpa using hp.symm

namespace Sys

variable {σ σ' : Sys} {a : SysOp}

/-- The step does not take a `Transfer` away from a client whose own is still to
come, nor a `Join` of a client that has been replaced; a job does not start with
two clients of one session among its targets while a `Transfer` from one of them
is to come; and no target that the loop has still to serve resumes a session that
the loop has served or has still to serve. -/
def Once (σ : Sys) : SysOp → Prop
  | .transfer prev _ => ∀ x ∈ σ.transfers, x.2 ≠ prev
  | .join c _ _ => ∀ p ∈ (σ.layer.mem.client c).session, σ.Current p c
  | .emitStart _ targets => ∀ c ∈ targets, (∃ x ∈ σ.transfers, x.1 = c) →
      ∀ d ∈ targets, (σ.layer.mem.client d).session = (σ.layer.mem.client c).session → d = c
  | .layer (.openSession c req now _) => ∀ fan ∈ σ.phase.loop, c ∈ fan.rest →
      req.requested = true → req.invalid = false →
      ∀ p ∈ σ.layer.mem.store.sessions req.sessionID,
        ((σ.layer.mem.session p).verdict req now σ.layer.mem.store.opt.ttl).1 = none →
        p ∉ fan.served ∧ ∀ d ∈ fan.rest, (σ.layer.mem.client d).session ≠ some p
  | _ => True

instance (σ : Sys) (a : SysOp) : Decidable (σ.Once a) := by
  induction a using SysOp.casesOn with
  | layer b =>
      induction b using LayerOp.casesOn with
      | openSession => exact inferInstanceAs (Decidable (∀ fan ∈ σ.phase.loop, _))
      | _ => dsimp only [Once]; infer_instance
  | _ => dsimp only [Once]; infer_instance

/-- A step of `Once` is orderly for every session. -/
theorem Once.orderly (h : σ.Once a) (p : SessionRef) : σ.Orderly p a := by
  cases a with
  | transfer prev c => exact fun _ => h
  | join c room now => exact fun hc => h p hc
  | _ => trivial

/-- No session is served twice by the loop, so far and in what is left of it. -/
structure Spread (σ : Sys) (fan : Fanout) : Prop where
  served : fan.served.Nodup
  rest : fan.rest.Nodup
  /-- What is left of the loop is for other sessions, and for each of them once. -/
  apart : ∀ c ∈ fan.rest, ∀ p, (σ.layer.mem.client c).session = some p →
    p ∉ fan.served ∧ ∀ d ∈ fan.rest, (σ.layer.mem.client d).session = some p → d = c
  allocated : ∀ p ∈ fan.served, p < σ.layer.mem.sessionCount

/-- **The targets of a job are clients of different sessions.** -/
theorem spread_emitStart {job : EmitJob} {targets : List ClientRef} (hf : ∀ p, σ.Follows p)
    (hnodup : targets.Nodup) (htargets : targets.toFinset = σ.hub.collectTargets job)
    (honce : σ.Once (.emitStart job targets)) : σ.Spread ⟨job, targets, []⟩ where
  served := List.nodup_nil
  rest := hnodup
  apart := by
    have hcurrent : ∀ {c p}, c ∈ targets → (σ.layer.mem.client c).session = some p →
        σ.Current p c := by
      intro c p hc hp
      rw [← List.mem_toFinset, htargets] at hc
      exact hf p c hp ((Hub.known_of_mem_collectTargets _ _ hc).imp_right Or.inl)
    intro c hc p hp
    refine ⟨List.not_mem_nil, fun d hd hdp => ?_⟩
    -- of two current clients of one session, at most one is the member
    rcases hcurrent hc hp with hmc | hto
    · rcases hcurrent hd hdp with hmd | hto
      · exact Option.some.inj (hmd.symm.trans hmc)
      · exact (honce d hd hto c hc (hp.trans hdp.symm)).symm
    · exact honce c hc hto d hd (hdp.trans hp.symm)
  allocated _ hp := absurd hp List.not_mem_nil

/-- The loop goes on to the next target. -/
theorem Spread.next {job : EmitJob} {c : ClientRef} {rest : List ClientRef}
    {served : List SessionRef} (hs : σ.Spread ⟨job, c :: rest, served⟩) (h : σ.Wired)
    (hsame : ∀ d, (σ'.layer.mem.client d).session = (σ.layer.mem.client d).session)
    (hcount : σ.layer.mem.sessionCount ≤ σ'.layer.mem.sessionCount) :
    σ'.Spread ⟨job, rest, served ++ (σ.layer.mem.client c).session.toList⟩ where
  served := by
    refine List.nodup_append.2 ⟨hs.served, ?_, ?_⟩
    · cases (σ.layer.mem.client c).session <;> simp
    · rintro p hp q hq rfl
      exact (hs.apart c List.mem_cons_self p (Option.mem_toList.1 hq)).1 hp
  rest := (List.nodup_cons.1 hs.rest).2
  apart := by
    intro d hd p hp
    rw [hsame] at hp
    obtain ⟨hno, honly⟩ := hs.apart d (List.mem_cons_of_mem c hd) p hp
    refine ⟨fun hmem => ?_, fun e he hep => ?_⟩
    · rcases List.mem_append.1 hmem with hmem | hmem
      · exact hno hmem
      · -- the target just served is another one
        obtain rfl := honly c List.mem_cons_self (Option.mem_toList.1 hmem)
        exact (List.nodup_cons.1 hs.rest).1 hd
    · rw [hsame] at hep
      exact honly e (List.mem_cons_of_mem c he) hep
  allocated p hp := by
    rcases List.mem_append.1 hp with hp | hp
    · exact (hs.allocated p hp).trans_le hcount
    · exact (h.inv.bound.allocated (Option.mem_toList.1 hp)).trans_le hcount

/-- Nobody is bound in the middle of the loop. -/
theorem Spread.congr {fan : Fanout} (hs : σ.Spread fan)
    (hsame : ∀ d, (σ'.layer.mem.client d).session = (σ.layer.mem.client d).session)
    (hcount : σ.layer.mem.sessionCount ≤ σ'.layer.mem.sessionCount) : σ'.Spread fan where
  served := hs.served
  rest := hs.rest
  apart c hc p hp := by
    rw [hsame] at hp
    refine ⟨(hs.apart c hc p hp).1, fun d hd hdp => ?_⟩
    rw [hsame] at hdp
    exact (hs.apart c hc p hp).2 d hd hdp
  allocated p hp := (hs.allocated p hp).trans_le hcount

/-- A client is bound in the middle of the loop. -/
theorem Spread.open {fan : Fanout} {c : ClientRef} {req : ResumeRequest} {now : ℤ}
    {newID : Option String} (hs : σ.Spread fan) (h : σ.Wired)
    (hstep : σ.Step (.layer (.openSession c req now newID)) σ') (hphase : σ.phase = .emitting fan)
    (honce : σ.Once (.layer (.openSession c req now newID))) : σ'.Spread fan := by
  obtain ⟨hmem, hc, -⟩ := hstep.openSession
  -- the session of the new client is neither served nor to be served
  have hnew : ∀ p, c ∈ fan.rest → (σ'.layer.mem.client c).session = some p →
      p ∉ fan.served ∧ ∀ d ∈ fan.rest, (σ.layer.mem.client d).session ≠ some p := by
    intro p hrest hp
    rw [hmem] at hp
    rcases Mem.open_session hc hp with ⟨hreq, hinv, hfind, hv⟩ | rfl
    · exact honce fan (by rw [hphase]; rfl) hrest hreq hinv p hfind hv
    · exact ⟨fun hserved => (hs.allocated _ hserved).false,
        fun d _ hd => (h.inv.bound.allocated hd).false⟩
  refine ⟨hs.served, hs.rest, fun d hd p hp => ?_, fun p hp =>
    (hs.allocated p hp).trans_le (hstep.sessionCount_le h.inv)⟩
  by_cases hdc : d = c
  · subst hdc
    refine ⟨(hnew p hd hp).1, fun e he hep => ?_⟩
    by_contra hed
    rw [hstep.session_of_ne h.inv hed] at hep
    exact (hnew p hd hp).2 e he hep
  · have hp₀ := (hstep.session_of_ne h.inv hdc).symm.trans hp
    refine ⟨(hs.apart d hd p hp₀).1, fun e he hep => ?_⟩
    by_cases hec : e = c
    · subst hec
      exact absurd hp₀ ((hnew p he hep).2 d hd)
    · exact (hs.apart d hd p hp₀).2 e he ((hstep.session_of_ne h.inv hec).symm.trans hep)

/-- What is known between two steps of a schedule of `Once`. -/
structure Single (σ : Sys) : Prop where
  wired : σ.Wired
  follows : σ.Running → ∀ p, σ.Follows p
  spread : ∀ fan, σ.phase = .emitting fan → σ.Spread fan

/-- No client is registered and no loop runs at first. -/
theorem single_init (opt : SessionOptions) (digest : String → String)
    (sendBuffer : ClientRef → ℤ) : (init opt digest sendBuffer).Single where
  wired := wired_init opt digest sendBuffer
  follows _ _ _ hc := by cases hc
  spread _ hphase := by cases hphase

/-- The loop after a step. -/
theorem Single.step_spread (h : σ.Single) (hstep : σ.Step a σ') (honce : σ.Once a) {fan : Fanout}
    (hphase : σ'.phase = .emitting fan) : σ'.Spread fan := by
  by_cases hop : ∃ c req now newID, a = .layer (.openSession c req now newID)
  · obtain ⟨c, req, now, newID, rfl⟩ := hop
    have hphase₀ : σ.phase = .emitting fan := by
      cases hstep.took with
      | layer => exact (follow_phase ..).symm.trans hphase
    exact (h.spread fan hphase₀).open h.wired hstep hphase₀ honce
  have hsame : ∀ d, (σ'.layer.mem.client d).session = (σ.layer.mem.client d).session := fun d =>
    hstep.session_eq h.wired.inv fun req now newID ha => hop ⟨d, req, now, newID, ha⟩
  have hcount := hstep.sessionCount_le h.wired.inv
  have hkeep : σ.phase = .emitting fan → σ'.Spread fan := fun hphase₀ =>
    (h.spread fan hphase₀).congr hsame hcount
  cases hstep.took with
  | layer => exact hkeep ((follow_phase ..).symm.trans hphase)
  | transfer => exact hkeep ((transfer_phase ..).symm.trans hphase)
  | emitStart hidle hnodup htargets =>
      cases hphase
      exact (spread_emitStart (h.follows (by simp [Running, hidle])) hnodup htargets honce).congr
        (fun _ => rfl) le_rfl
  | emitNext hp =>
      cases hphase
      exact (h.spread _ hp).next h.wired hsame hcount
  | emitDone => cases hphase
  | drain => cases hphase
  | drainNext => cases hphase
  | drainDone => cases hphase
  | _ => exact hkeep hphase

/-- A step of `Once` keeps what is known of the members and the loop. -/
theorem Single.step (h : σ.Single) (hstep : Guarded Once Step σ a σ') : σ'.Single where
  wired := h.wired.step hstep.2
  follows hrun p :=
    (h.follows (hstep.2.running hrun) p).step h.wired hstep.2 hrun (hstep.1.orderly p)
  spread _ := h.step_spread hstep.2 hstep.1

/-- **A broadcast reaches a session at most once** on such a schedule: in every state
reached, the sessions that the job in the loop was delivered to are different. -/
theorem delivered_once (opt : SessionOptions) (digest : String → String)
    (sendBuffer : ClientRef → ℤ) (σ : Sys)
    (h : Reachable (Guarded Once Step) (init opt digest sendBuffer) σ) (fan : Fanout)
    (hphase : σ.phase = .emitting fan) : fan.served.Nodup :=
  ((h.invariant (single_init opt digest sendBuffer) fun _ _ _ hs hstep => hs.step hstep).spread
    fan hphase).served

/-- A resume whose `Transfer` is taken before a broadcast to all clients. -/
theorem delivered_once_after_transfer :
    ∃ σ fan, Reachable (Guarded Once Step) (init ⟨0, 0, 0, 0, 0⟩ id fun _ => 0) σ ∧
      σ.phase = .emitting fan ∧ fan.served = [0, 1] ∧ fan.served.Nodup := by
  obtain ⟨σ, hσ, hp⟩ := Reachable.of_exec_guarded (G := Once) step
    (s := init ⟨0, 0, 0, 0, 0⟩ id fun _ => 0)
    [.accept 0, .register 0, .layer (.openSession 0 ⟨false, false, "", 0, ""⟩ 0 (some "a")),
      .accept 1, .register 1, .layer (.openSession 1 ⟨true, false, "a", 0, ""⟩ 1 (some "b")),
      .transfer 0 1, .accept 2, .register 2,
      .layer (.openSession 2 ⟨false, false, "", 0, ""⟩ 2 (some "c")),
      .emitStart ⟨"", none, none, true, [123, 125], .disconnect⟩ [1, 2], .emitNext, .emitNext]
    (p := fun σ => σ.phase =
      .emitting ⟨⟨"", none, none, true, [123, 125], .disconnect⟩, [], [0, 1]⟩)
    (by decide +kernel)
  have hphase := of_decide_eq_true hp
  exact ⟨σ, _, hσ, hphase, rfl, delivered_once _ _ _ σ hσ _ hphase⟩

/-- **Counterexample.**  A connection resumes a session, and before its `Transfer` is
taken the hub sends a job to all clients: the session commits it twice. -/
theorem delivered_twice :
    ∃ σ fan, Reachable Step (init ⟨0, 0, 0, 0, 0⟩ id fun _ => 0) σ ∧
      σ.phase = .emitting fan ∧ fan.served = [0, 0] ∧ ¬ fan.served.Nodup ∧
      (σ.layer.mem.session 0).committed = [[123, 125], [123, 125]] := by
  obtain ⟨σ, hσ, hp⟩ := Reachable.of_exec step (s := init ⟨0, 0, 0, 0, 0⟩ id fun _ => 0)
    [.accept 0, .register 0, .layer (.openSession 0 ⟨false, false, "", 0, ""⟩ 0 (some "a")),
      .accept 1, .register 1, .layer (.openSession 1 ⟨true, false, "a", 0, ""⟩ 1 (some "b")),
      .emitStart ⟨"", none, none, true, [123, 125], .disconnect⟩ [0, 1], .emitNext, .emitNext]
    (p := fun σ => σ.phase =
      .emitting ⟨⟨"", none, none, true, [123, 125], .disconnect⟩, [], [0, 0]⟩ ∧
      (σ.layer.mem.session 0).committed = [[123, 125], [123, 125]])
    (by decide +kernel)
  obtain ⟨hphase, hcommitted⟩ := of_decide_eq_true hp
  exact ⟨σ, _, hσ, hphase, rfl, by simp, hcommitted⟩

end Sys
end GoSocket
