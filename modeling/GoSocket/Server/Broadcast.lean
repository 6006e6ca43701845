/-
# No broadcast is lost

Rooms are kept by client and sequences by session.  While a session is parked,
its last client stays in the hub and `deliver` commits to the replay buffer;
when it is resumed, `Open` binds the new client and a later `Transfer` moves the
rooms over.  In between the rooms are still the old client's, which is bound to
the same session, so a broadcast reaches the session through it.

So a session that has a client in a room has one in every later state
(`Joined.step`), until it is closed, one of its clients leaves the room, or the
hub shuts down; and a job for the room that must not be dropped is committed
(`Owed.step`).
-/

import GoSocket.Server.Connections

namespace GoSocket

open Lib

namespace Mem

/-- A session forgets nothing that was committed to it. -/
theorem Touched.committed {m : Mem} {op : Op} {q : SessionRef} {s : Session}
    (h : Touched m op q s) (hq : q < m.sessionCount) : (m.session q).committed <+: s.committed := by
  cases h with
  | allocated _ hqn => exact absurd hqn hq.ne
  | @delivered data pol _ =>
      rcases (m.session q).deliver_cases (m.liveClient q) data pol with
        ⟨n, live', hd, -⟩ | ⟨st, live', ok, hd, -⟩
      · rw [hd]
      · rw [hd]
        exact List.prefix_append _ _
  | acked =>
      unfold Session.ack
      split_ifs <;> exact List.prefix_rfl
  | _ => exact List.prefix_rfl

/-- A delivery that must not be dropped commits to an open session. -/
theorem deliver_committed {m : Mem} {p : SessionRef} (hopen : (m.session p).state ≠ .closed)
    (data : Bytes) :
    ((m.deliver p data .disconnect).1.session p).committed = (m.session p).committed ++ [data] := by
  rw [deliver_session, if_pos rfl]
  rcases (m.session p).deliver_cases (m.liveClient p) data .disconnect with
    ⟨n, live', -, hsk⟩ | ⟨st, live', ok, hd, -⟩
  · cases hsk with
    | nothing h =>
        rcases h with h | h
        · exact absurd h hopen
        · cases h
    | raw h => cases h
    | lost h => exact absurd rfl h
  · rw [hd]
    rfl

end Mem

namespace Sys

variable {σ σ' : Sys} {a : SysOp} {p : SessionRef} {room : String}

/-- The step is not a `Leave` of the room by a client of the session, and not the
shutdown of the hub. -/
def Stays (p : SessionRef) (room : String) (σ : Sys) : SysOp → Prop
  | .leaveRoom c r => r = room → (σ.layer.mem.client c).session ≠ some p
  | .drain _ => False
  | _ => True

instance (p : SessionRef) (room : String) (σ : Sys) (a : SysOp) : Decidable (Stays p room σ a) := by
  unfold Stays
  split <;> infer_instance

/-- Without a shutdown the hub keeps running. -/
theorem Step.still_running (hstep : σ.Step a σ') (hrun : σ.Running)
    (hdrain : ∀ clients, a ≠ .drain clients) : σ'.Running := by
  cases hstep.took with
  | layer => simpa [Running] using hrun
  | transfer => simpa [Running] using hrun
  | emitStart => simp [Running]
  | emitNext => simp [Running]
  | emitDone => simp [Running]
  | drain => exact absurd rfl (hdrain _)
  | drainNext hp => exact absurd hp (hrun.2 _)
  | drainDone hp => exact absurd hp (hrun.2 _)
  | _ => exact hrun

/-- **A session stays in its rooms.** -/
theorem Joined.step (hj : σ.Joined p room) (h : σ.Wired) (hrun : σ.Running)
    (hstep : Guarded (Stays p room) Step σ a σ')
    (hopen : (σ'.layer.mem.session p).state ≠ .closed) : σ'.Joined p room := by
  obtain ⟨hstay, hstep⟩ := hstep
  obtain ⟨c, hc, hmem⟩ := hj
  have hc' := hstep.bound h.inv hc
  have hrun' := hstep.still_running hrun fun clients ha => by
    subst ha
    exact hstay
  have hhub := hstep.hub hrun'
  unfold Joined
  generalize σ'.hub = hub at hhub
  cases hhub with
  | same => exact ⟨c, hc', hmem⟩
  | registered => exact ⟨c, hc', hmem⟩
  | @transferred prev d ha ht hne =>
      by_cases hcp : c = prev
      · -- the rooms move to a client of the same session
        subst hcp
        obtain ⟨-, q, hq, hd⟩ := h.transfers _ ht
        obtain rfl := Option.some.inj (hq.symm.trans hc)
        exact ⟨d, hstep.bound h.inv hd, by simp [hmem]⟩
      · exact ⟨c, hc', by simp [hmem, hcp]⟩
  | @removed d hd =>
      have hcd : c ≠ d := by
        rintro rfl
        exact hopen (hstep.closed h.inv (h.inv.bound.allocated hc) (h.removed hd hc))
      exact ⟨c, hc', by simp [hmem, hcd]⟩
  | joined => exact ⟨c, hc', by simp [hmem]⟩
  | @left d r ha =>
      subst ha
      refine ⟨c, hc', (Hub.mem_members_leaveRoom ..).2 ⟨hmem, ?_⟩⟩
      rintro ⟨hr, rfl⟩
      exact hstay hr.symm hc

/-- A session forgets nothing that was committed to it. -/
theorem Step.committed (hstep : σ.Step a σ') (h : σ.layer.Inv)
    (hp : p < σ.layer.mem.sessionCount) :
    (σ.layer.mem.session p).committed <+: (σ'.layer.mem.session p).committed := by
  rcases hstep.layer with heq | ⟨b, hb, -⟩
  · rw [heq]
  · rcases hb.session h p with heq | ⟨op, -, ht⟩
    · rw [heq]
    · exact ht.committed hp

/-- The job in the loop will reach the session, or it was committed after the
first `n` payloads. -/
def Owed (p : SessionRef) (job : EmitJob) (n : ℕ) (σ : Sys) : Prop :=
  job.data ∈ (σ.layer.mem.session p).committed.drop n ∨
    ∃ rest served, σ.phase = .emitting ⟨job, rest, served⟩ ∧
      ∃ c ∈ rest, (σ.layer.mem.client c).session = some p

/-- **The loop commits to every open session among its targets.** -/
theorem Owed.step {job : EmitJob} {n : ℕ} (ho : Owed p job n σ) (h : σ.Wired)
    (hp : p < σ.layer.mem.sessionCount) (hn : n ≤ (σ.layer.mem.session p).committed.length)
    (hpol : job.policy = .disconnect) (hstep : σ.Step a σ')
    (hopen : (σ'.layer.mem.session p).state ≠ .closed) : Owed p job n σ' := by
  rcases ho with ho | ⟨rest, served, hphase, c, hc, hcp⟩
  · obtain ⟨l, hl⟩ := hstep.committed h.inv hp
    refine Or.inl ?_
    rw [← hl, List.drop_append_of_le_length hn]
    exact List.mem_append_left _ ho
  have hbound : ∀ {d}, (σ.layer.mem.client d).session = some p →
      (σ'.layer.mem.client d).session = some p := hstep.bound h.inv
  have hopen₀ : (σ.layer.mem.session p).state ≠ .closed :=
    fun hclosed => hopen (hstep.closed h.inv hp hclosed)
  cases hstep.took with
  | layer => exact Or.inr ⟨rest, served, (follow_phase ..).trans hphase, c, hc, hbound hcp⟩
  | transfer => exact Or.inr ⟨rest, served, (transfer_phase ..).trans hphase, c, hc, hbound hcp⟩
  | @emitNext job' d rest' served' f hp' hf =>
      rw [hphase] at hp'
      cases hp'
      by_cases hcd : c = d
      · subst hcd
        refine Or.inl ?_
        obtain ⟨-, -, ⟨hno, -⟩ | ⟨op, hop, hm⟩⟩ := hf.cases
        · cases hno
        obtain rfl := Option.some.inj hop
        rw [hpol] at hm
        rw [← Option.some.inj hm, Mem.trySendPolicy_bound hcp, Mem.deliver_committed hopen₀,
          List.drop_append_of_le_length hn]
        exact List.mem_append_right _ (List.mem_singleton_self _)
      · exact Or.inr ⟨rest', _, rfl, c, List.mem_of_ne_of_mem hcd hc, hbound hcp⟩
  | emitStart hp' =>
      rw [hphase] at hp'
      cases hp'
  | emitDone hp' =>
      rw [hphase] at hp'
      cases hp'
      cases hc
  | drain hp' =>
      rw [hphase] at hp'
      cases hp'
  | drainNext hp' =>
      rw [hphase] at hp'
      cases hp'
  | drainDone hp' =>
      rw [hphase] at hp'
      cases hp'
  | _ => exact Or.inr ⟨rest, served, hphase, c, hc, hbound hcp⟩

/-- The run lemma of `Joined.step`. -/
theorem Joined.of_reachable {τ : Sys} (hj : σ.Joined p room) (h : σ.Wired) (hrun : σ.Running)
    (hστ : Reachable (Guarded (Stays p room) Step) σ τ)
    (hopen : (τ.layer.mem.session p).state ≠ .closed) :
    τ.Joined p room ∧ τ.Wired ∧ p < τ.layer.mem.sessionCount := by
  obtain ⟨c, hc, hmem⟩ := hj
  -- the session is closed for good, or it has a client in the room
  have hτ := hστ.invariant
    (P := fun σ => (σ.Wired ∧ σ.Running ∧ p < σ.layer.mem.sessionCount) ∧
      ((σ.layer.mem.session p).state = .closed ∨ σ.Joined p room))
    ⟨⟨h, hrun, h.inv.bound.allocated hc⟩, Or.inr ⟨c, hc, hmem⟩⟩ ?_
  · exact ⟨hτ.2.resolve_left hopen, hτ.1.1, hτ.1.2.2⟩
  · rintro s b t ⟨⟨hs, hrun, hp⟩, hor⟩ hstep
    refine ⟨⟨hs.step hstep.2, hstep.2.still_running hrun fun clients hb => ?_,
      hp.trans_le (hstep.2.sessionCount_le hs.inv)⟩, ?_⟩
    · have hstay := hstep.1
      rw [hb] at hstay
      exact hstay
    · by_cases hclosed : (t.layer.mem.session p).state = .closed
      · exact Or.inl hclosed
      · rcases hor with hor | hj
        · exact absurd (hstep.2.closed hs.inv hp hor) hclosed
        · exact Or.inr (hj.step hs hrun hstep hclosed)

/-- The run lemma of `Owed.step`. -/
theorem Owed.of_reachable {job : EmitJob} {τ : Sys} (h : σ.Wired)
    (ho : Owed p job (σ.layer.mem.session p).committed.length σ)
    (hp : p < σ.layer.mem.sessionCount) (hpol : job.policy = .disconnect)
    (hστ : Reachable Step σ τ) (hopen : (τ.layer.mem.session p).state ≠ .closed) :
    (σ.layer.mem.session p).committed <+: (τ.layer.mem.session p).committed ∧
      Owed p job (σ.layer.mem.session p).committed.length τ := by
  have hτ := hστ.invariant
    (P := fun s => (s.Wired ∧ p < s.layer.mem.sessionCount ∧
        (σ.layer.mem.session p).committed <+: (s.layer.mem.session p).committed) ∧
      ((s.layer.mem.session p).state = .closed ∨
        Owed p job (σ.layer.mem.session p).committed.length s))
    ⟨⟨h, hp, List.prefix_rfl⟩, Or.inr ho⟩ ?_
  · exact ⟨hτ.1.2.2, hτ.2.resolve_left hopen⟩
  · rintro s b t ⟨⟨hs, hp, hpre⟩, hor⟩ hstep
    refine ⟨⟨hs.step hstep, hp.trans_le (hstep.sessionCount_le hs.inv),
      hpre.trans (hstep.committed hs.inv hp)⟩, ?_⟩
    by_cases hclosed : (t.layer.mem.session p).state = .closed
    · exact Or.inl hclosed
    · rcases hor with hor | ho
      · exact absurd (hstep.closed hs.inv hp hor) hclosed
      · exact Or.inr (ho.step hs hp hpre.length_le hpol hstep hclosed)

/-- **No broadcast is lost across drop and resume.**  Once a client of a session is
in a room, in every later state some client of the session is, until the session
is closed, one of its clients leaves the room or the hub shuts down.  So every
job for the room that excludes nobody and must not be dropped is committed to
the session: when the loop over its targets has ended, its frame is among those
committed since it started. -/
theorem broadcast_committed (opt : SessionOptions) (digest : String → String)
    (sendBuffer : ClientRef → ℤ) (σ τ : Sys) (h : Reachable Step (init opt digest sendBuffer) σ)
    (hrun : σ.Running) (p : SessionRef) (room : String) (hj : σ.Joined p room)
    (hστ : Reachable (Guarded (Stays p room) Step) σ τ)
    (hopen : (τ.layer.mem.session p).state ≠ .closed) :
    τ.Joined p room ∧
      ∀ job targets τ₁ τ₂, job.room = room → job.allClients = false → job.only = none →
        job.exclude = none → job.policy = .disconnect → τ.Step (.emitStart job targets) τ₁ →
        Reachable Step τ₁ τ₂ → (∀ fan, τ₂.phase ≠ .emitting fan) →
        (τ₂.layer.mem.session p).state ≠ .closed →
        ∃ l, (τ₂.layer.mem.session p).committed = (τ.layer.mem.session p).committed ++ l ∧
          job.data ∈ l := by
  obtain ⟨hjoined, hτ, hp⟩ := hj.of_reachable (Wired.of_reachable h) hrun hστ hopen
  refine ⟨hjoined, fun job targets τ₁ τ₂ hroom hall honly hex hpol hstart hrest hdone hopen₂ => ?_⟩
  have hτ₁ := hτ.step hstart
  obtain ⟨c, hc, hmem⟩ := hjoined
  cases hstart.took with
  | emitStart _ _ htargets =>
      have hct : c ∈ targets := by
        rw [← List.mem_toFinset, htargets, Hub.collectTargets_room _ hall honly hex, hroom]
        exact hmem
      obtain ⟨⟨l, hl⟩, howed⟩ := Owed.of_reachable hτ₁
        (Or.inr ⟨targets, [], rfl, c, hct, hc⟩) hp hpol hrest hopen₂
      rcases howed with hdata | ⟨rest, served, hphase, -⟩
      · refine ⟨l, hl.symm, ?_⟩
        rw [← hl, List.drop_left] at hdata
        exact hdata
      · exact absurd hphase (hdone _)

/-- A client joins a room and drops, another connection resumes its session, and a
broadcast to the room comes before the `Transfer`. -/
theorem broadcast_committed_before_transfer :
    ∃ τ τ₂ : Sys, (0, 1) ∈ τ.transfers ∧ τ.Joined 0 "r" ∧
      ∃ l, (τ₂.layer.mem.session 0).committed = (τ.layer.mem.session 0).committed ++ l ∧
        ([123, 125] : Bytes) ∈ l := by
  obtain ⟨σ, hσ, hp⟩ := Reachable.of_exec step (s := init ⟨0, 0, 0, 0, 0⟩ id fun _ => 0)
    [.accept 0, .register 0, .layer (.openSession 0 ⟨false, false, "", 0, ""⟩ 0 (some "a")),
      .join 0 "r" 0]
    (p := fun σ => σ.phase = .idle ∧ (σ.layer.mem.client 0).session = some 0 ∧
      0 ∈ σ.hub.members "r" ∧
      (exec (fun s a => if Stays 0 "r" s a then step s a else none) σ
        [.layer (.readEnd 0), .layer (.leave 0 1), .accept 1, .register 1,
          .layer (.openSession 1 ⟨true, false, "a", 0, ""⟩ 2 (some "b"))]).map
        (fun τ => decide ((0, 1) ∈ τ.transfers ∧ (τ.layer.mem.session 0).state ≠ .closed ∧
          (τ.step (.emitStart ⟨"r", none, none, false, [123, 125], .disconnect⟩ [0])).any fun τ₁ =>
            (exec step τ₁ [.emitNext, .emitDone]).map (fun τ₂ =>
              decide (τ₂.phase = .idle ∧ (τ₂.layer.mem.session 0).state ≠ .closed)) =
            some true)) = some true)
    (by decide +kernel)
  obtain ⟨hidle, hc, hmem, hrest⟩ := of_decide_eq_true hp
  obtain ⟨τ, hτ, hp⟩ := Reachable.of_exec_guarded (G := Stays 0 "r") step _ hrest
  obtain ⟨hbefore, hopen, hemit⟩ := of_decide_eq_true hp
  obtain ⟨τ₁, hstart, hloop⟩ := (Option.any_eq_true _ _).1 hemit
  obtain ⟨τ₂, hτ₂, hp⟩ := Reachable.of_exec step _ (of_decide_eq_true hloop)
  obtain ⟨hdone, hopen₂⟩ := of_decide_eq_true hp
  obtain ⟨hjoined, hjob⟩ := broadcast_committed _ _ _ σ τ hσ (by simp [Running, hidle]) 0 "r"
    ⟨0, hc, hmem⟩ hτ hopen
  exact ⟨τ, τ₂, hbefore, hjoined, hjob _ _ τ₁ τ₂ rfl rfl rfl rfl rfl hstart hτ₂
    (by simp [hdone]) hopen₂⟩

end Sys
end GoSocket
