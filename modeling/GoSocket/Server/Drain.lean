/-
# What `Shutdown` leaves behind

`Shutdown` returns nil when the hub has drained: `drainAndCloseAll` shuts down every
client in the hub's map.  The flag `closed` keeps new calls out, but a call that has
looked at it before goes on, through the upgrade to `Register`, which returns at once
when the hub is gone.  Its client is in no map and nobody closes it (`survivor`).

From the beginning of the drain on, a client that is made is closed, waits in the loop of
`drainAndCloseAll`, or has been promised to be closed by a call in progress: its own, if
a middleware rejected it, or that of the `openSession` that displaced it (`Covered`).
Every step keeps that (`Covered.step`).  So nothing survives on the runs in which, when
the hub begins to drain, no call is between its look at `closed` and `serveTransport`,
and every client that is made is in the map, closed or promised (`none_survives`).
-/

import GoSocket.Server.Front

namespace GoSocket

open Lib

/-- `Shutdown` closes the transport. -/
theorem Layer.Step.shutdown_closes {f f' : Layer} {c : ClientRef}
    (hstep : f.Step (.shutdown c) f') : (f'.mem.client c).closed = true := by
  obtain ⟨-, -, ⟨hno, -⟩ | ⟨op, hop, hm⟩⟩ := hstep.cases
  · cases hno
  · obtain rfl := Option.some.inj hop
    rw [← Option.some.inj hm]
    simp [Client.shutdown, Client.closeRaw]

/-- The clients that the loop of `drainAndCloseAll` has still to shut down. -/
def Phase.rest : Phase → List ClientRef
  | .draining rest => rest
  | .idle | .emitting _ | .closed => []

namespace Sys

variable {σ σ' : Sys} {a : SysOp} {c : ClientRef}

/-- A closed client stays closed. -/
theorem Step.client_closed (hstep : σ.Step a σ') (h : σ.layer.Inv)
    (hc : (σ.layer.mem.client c).closed = true) : (σ'.layer.mem.client c).closed = true := by
  rcases hstep.layer with heq | ⟨b, hb, -⟩
  · rw [heq]
    exact hc
  · exact hb.closed h hc

/-- Whoever waits in the loop of the drain goes on waiting or is shut down. -/
theorem Step.rest (hstep : σ.Step a σ') (hc : c ∈ σ.phase.rest) :
    c ∈ σ'.phase.rest ∨ (σ'.layer.mem.client c).closed = true := by
  cases hstep.took with
  | @layer b f =>
      refine Or.inl ?_
      show c ∈ (σ.follow b).phase.rest
      rwa [follow_phase]
  | @transfer prev d =>
      refine Or.inl ?_
      show c ∈ (σ.transfer prev d).phase.rest
      rwa [transfer_phase]
  | emitStart hp => simp [hp, Phase.rest] at hc
  | emitNext hp => simp [hp, Phase.rest] at hc
  | emitDone hp => simp [hp, Phase.rest] at hc
  | drain hp => simp [hp, Phase.rest] at hc
  | drainNext hp hf =>
      rw [hp] at hc
      rcases List.mem_cons.1 hc with rfl | hc
      · exact Or.inr hf.shutdown_closes
      · exact Or.inl hc
  | drainDone hp => simp [hp, Phase.rest] at hc
  | _ => exact Or.inl hc

/-- A hub that has returned does not come back. -/
theorem Step.phase_closed (hstep : σ.Step a σ') (hp : σ.phase = .closed) : σ'.phase = .closed := by
  cases hstep.took with
  | layer => exact (follow_phase ..).trans hp
  | transfer => exact (transfer_phase ..).trans hp
  | emitStart h => cases h.symm.trans hp
  | emitNext h => cases h.symm.trans hp
  | emitDone h => cases h.symm.trans hp
  | drain h => cases h.symm.trans hp
  | drainNext h => cases h.symm.trans hp
  | drainDone => rfl
  | _ => exact hp

/-- A running hub goes on running, or it begins to drain. -/
theorem Step.drains (hstep : σ.Step a σ') (hrun : σ.Running) :
    σ'.Running ∨ ∃ clients, a = .drain clients := by
  cases hstep.took with
  | layer => exact Or.inl (by simpa [Running] using hrun)
  | transfer => exact Or.inl (by simpa [Running] using hrun)
  | emitStart => exact Or.inl (by simp [Running])
  | emitNext => exact Or.inl (by simp [Running])
  | emitDone => exact Or.inl (by simp [Running])
  | drain => exact Or.inr ⟨_, rfl⟩
  | drainNext hp => exact absurd hp (hrun.2 _)
  | drainDone hp => exact absurd hp (hrun.2 _)
  | _ => exact Or.inl hrun

end Sys

namespace Front

variable {φ φ' : Front} {a : FrontOp} {c : ClientRef}

/-- What a step can do to the call of a client. -/
inductive CallMove (φ : Front) (c : ClientRef) : Option Call → Prop where
  | same : CallMove φ c (φ.calls.lookup c)
  | arrived {x : Call} : φ.calls.lookup c = none → x.made = false →
      (φ.closing ≠ .no → x = .refused) → CallMove φ c (some x)
  | handshake {old x : Call} : φ.calls.lookup c = some old → old.handshaking = true →
      CallMove φ c (some x)
  | rejected : φ.calls.lookup c = some (.serving none) → CallMove φ c (some .rejected)
  | opened {displaced : Option ClientRef} : φ.calls.lookup c = some (.serving none) →
      CallMove φ c (some (.serving displaced))
  | served {displaced : Option ClientRef} : φ.calls.lookup c = some (.serving displaced) →
      (∀ d ∈ displaced, φ.Closed d) → CallMove φ c (some .running)
  | turnedAway : φ.calls.lookup c = some .rejected → φ.Closed c →
      CallMove φ c (some .turnedAway)
  | ended : φ.calls.lookup c = some .running → CallMove φ c (some .ended)

/-- A step that moves one call. -/
theorem CallMove.insert {d : ClientRef} {x : Call} (h : CallMove φ d (some x)) :
    CallMove φ c ((φ.calls.insert d x).lookup c) := by
  by_cases hcd : c = d
  · subst hcd
    rwa [Finmap.lookup_insert]
  · rw [Finmap.lookup_insert_of_ne _ hcd]
    exact .same

/-- **Everything a step can do to the call of a client.** -/
theorem Step.call (hstep : φ.Step a φ') (h : φ.Early) (c : ClientRef) :
    CallMove φ c (φ'.calls.lookup c) := by
  cases hstep.took with
  | check hc =>
      refine CallMove.insert (.arrived hc ?_ fun hclosing => if_neg hclosing)
      split_ifs <;> rfl
  | limit hc => exact CallMove.insert (.handshake hc rfl)
  | upgrade hc => exact CallMove.insert (.handshake hc rfl)
  | @serve d x s hc hx =>
      refine CallMove.insert (.handshake hc ?_)
      cases x with
      | passed => rfl
      | upgraded => rfl
      | _ => cases hx
  | @sys b s hp hb =>
      show CallMove φ c ((φ.follow b).calls.lookup c)
      unfold follow
      split
      · exact CallMove.insert (.rejected (h.reject hb))
      · exact CallMove.insert (.opened (h.openSession hb))
      · exact .same
  | served hc _ hd => exact CallMove.insert (.served hc hd)
  | turnedAway hc hclosed => exact CallMove.insert (.turnedAway hc hclosed)
  | onDone hc => exact CallMove.insert (.ended hc)
  | _ => exact .same

/-- A call in progress is going to close the client before it returns. -/
def Promised (φ : Front) (c : ClientRef) : Prop :=
  φ.calls.lookup c = some .rejected ∨
    ∃ d ∈ φ.calls.keys, φ.calls.lookup d = some (.serving (some c))

instance (φ : Front) (c : ClientRef) : Decidable (φ.Promised c) :=
  inferInstanceAs (Decidable (_ ∨ _))

/-- The client is closed, or somebody is going to close it. -/
def Covered (φ : Front) (c : ClientRef) : Prop :=
  φ.Closed c ∨ c ∈ φ.sys.phase.rest ∨ φ.Promised c

/-- A connection that is closed stays closed. -/
theorem Closed.step (hc : φ.Closed c) (hw : φ.sys.Wired) (hstep : φ.Step a φ') : φ'.Closed c := by
  cases hstep.took with
  | serve _ _ hacc => exact hacc.client_closed hw.inv hc
  | sys _ hb => exact hb.client_closed hw.inv hc
  | _ => exact hc

/-- **A promise is kept**: it stands until the client is closed. -/
theorem Promised.step (hc : φ.Promised c) (he : φ.Early) (hstep : φ.Step a φ') :
    φ'.Promised c ∨ φ.Closed c := by
  rcases hc with hc | ⟨d, -, hd⟩
  · have hcall := hstep.call he c
    generalize hnew : φ'.calls.lookup c = new at hcall
    cases hcall with
    | same => exact Or.inl (Or.inl (hnew.trans hc))
    | turnedAway _ hclosed => exact Or.inr hclosed
    | handshake hold hx =>
        obtain rfl := Option.some.inj (hold.symm.trans hc)
        cases hx
    | arrived hold => cases hold.symm.trans hc
    | rejected hold => cases hold.symm.trans hc
    | opened hold => cases hold.symm.trans hc
    | served hold => cases hold.symm.trans hc
    | ended hold => cases hold.symm.trans hc
  · have hcall := hstep.call he d
    generalize hnew : φ'.calls.lookup d = new at hcall
    cases hcall with
    | same =>
        have hd' := hnew.trans hd
        exact Or.inl (Or.inr ⟨d, Finmap.mem_keys.2 (Finmap.mem_of_lookup_eq_some hd'), hd'⟩)
    | served hold hclosed =>
        obtain rfl := Call.serving.inj (Option.some.inj (hold.symm.trans hd))
        exact Or.inr (hclosed c rfl)
    | handshake hold hx =>
        obtain rfl := Option.some.inj (hold.symm.trans hd)
        cases hx
    | arrived hold => cases hold.symm.trans hd
    | rejected hold => cases hold.symm.trans hd
    | opened hold => cases hold.symm.trans hd
    | turnedAway hold => cases hold.symm.trans hd
    | ended hold => cases hold.symm.trans hd

/-- **Every step keeps a client covered.** -/
theorem Covered.step (hc : φ.Covered c) (hw : φ.sys.Wired) (he : φ.Early)
    (hstep : φ.Step a φ') : φ'.Covered c := by
  rcases hc with hc | hc | hc
  · exact Or.inl (hc.step hw hstep)
  · have hrest : ∀ {b s}, φ.sys.Step b s → s = φ'.sys → φ'.Covered c := by
      rintro b s hb rfl
      rcases hb.rest hc with hc | hc
      · exact Or.inr (Or.inl hc)
      · exact Or.inl hc
    cases hstep.took with
    | serve _ _ hacc => exact hrest hacc rfl
    | sys _ hb => exact hrest hb rfl
    | _ => exact Or.inr (Or.inl hc)
  · rcases hc.step he hstep with hc | hc
    · exact Or.inr (Or.inr hc)
    · exact Or.inl (hc.step hw hstep)

/-- What holds from the beginning of the drain on. -/
structure Drained (φ : Front) : Prop where
  closing : φ.closing ≠ .no
  handshakes : ∀ c x, φ.calls.lookup c = some x → x.handshaking = false
  covered : ∀ c x, φ.calls.lookup c = some x → x.made = true → φ.Covered c

namespace Drained

/-- After the drain no call is in its handshake, and none starts one. -/
theorem step_handshakes (h : φ.Drained) (he : φ.Early) (hstep : φ.Step a φ') {x : Call}
    (hx : φ'.calls.lookup c = some x) : x.handshaking = false := by
  have hcall := hstep.call he c
  generalize φ'.calls.lookup c = new at hcall hx
  cases hcall with
  | same => exact h.handshakes c x hx
  | arrived _ _ hrefused =>
      obtain rfl := Option.some.inj hx
      rw [hrefused h.closing]
      rfl
  | handshake hold hh => simp [h.handshakes c _ hold] at hh
  | _ =>
      obtain rfl := Option.some.inj hx
      rfl

/-- No client is made any more. -/
theorem made_of_step (h : φ.Drained) (he : φ.Early) (hstep : φ.Step a φ') {x : Call}
    (hx : φ'.calls.lookup c = some x) (hmade : x.made = true) :
    ∃ old, φ.calls.lookup c = some old ∧ old.made = true := by
  have hcall := hstep.call he c
  generalize φ'.calls.lookup c = new at hcall hx
  cases hcall with
  | same => exact ⟨x, hx, hmade⟩
  | arrived _ hnot =>
      obtain rfl := Option.some.inj hx
      simp [hnot] at hmade
  | handshake hold hh => simp [h.handshakes c _ hold] at hh
  | rejected hold => exact ⟨_, hold, rfl⟩
  | opened hold => exact ⟨_, hold, rfl⟩
  | served hold => exact ⟨_, hold, rfl⟩
  | turnedAway hold => exact ⟨_, hold, rfl⟩
  | ended hold => exact ⟨_, hold, rfl⟩

/-- A shutdown that has begun is not taken back. -/
theorem step_closing (h : φ.Drained) (hstep : φ.Step a φ') : φ'.closing ≠ .no := by
  cases hstep.took with
  | @sys b s =>
      show (φ.follow b).closing ≠ .no
      unfold follow
      split <;> exact h.closing
  | storeClosed => simp
  | hubCancel => simp
  | returnNil => simp
  | returnErr => simp
  | _ => exact h.closing

/-- A step after the drain keeps it. -/
theorem step (h : φ.Drained) (hw : φ.sys.Wired) (he : φ.Early) (hstep : φ.Step a φ') :
    φ'.Drained where
  closing := h.step_closing hstep
  handshakes _ _ hx := h.step_handshakes he hstep hx
  covered c x hx hmade := by
    obtain ⟨old, hold, hmade⟩ := h.made_of_step he hstep hx hmade
    exact (h.covered c old hold hmade).step hw he hstep

end Drained

/-- When the hub begins to drain, no call is between its look at `closed` and
`serveTransport`, and every client that is made is in the map of the hub, closed, or
promised to be closed by a call in progress. -/
def DrainsAfterHandshakes (φ : Front) : FrontOp → Prop
  | .sys (.drain _) => holders φ.calls Call.handshaking = ∅ ∧
      ∀ c ∈ holders φ.calls Call.made, c ∈ φ.sys.hub.clients ∨ φ.Closed c ∨ φ.Promised c
  | _ => True

instance (φ : Front) (a : FrontOp) : Decidable (φ.DrainsAfterHandshakes a) := by
  unfold DrainsAfterHandshakes
  split <;> infer_instance

/-- **The drain begins.** -/
theorem DrainsAfterHandshakes.drained {clients : List ClientRef}
    (hset : φ.DrainsAfterHandshakes (.sys (.drain clients)))
    (hstep : φ.Step (.sys (.drain clients)) φ') : φ'.Drained := by
  obtain ⟨hnone, hmade⟩ := hset
  cases hstep.took with
  | @sys b s hp hb =>
      cases hb.took with
      | drain =>
          obtain ⟨hs, -⟩ := Option.ite_none_right_eq_some.1 hb
          refine ⟨fun hno => ?_, fun c x hx => of_holders_eq_empty hnone hx, fun c x hx hx' => ?_⟩
          · change φ.closing = .no at hno
            rcases hp with hp | hp <;> cases hno.symm.trans hp
          · rcases hmade c (mem_holders.2 ⟨x, hx, hx'⟩) with hc | hc | hc
            · rw [← hs.2.2, List.mem_toFinset] at hc
              exact Or.inr (Or.inl hc)
            · exact Or.inl hc
            · exact Or.inr (Or.inr hc)

/-- The hub runs, or what holds from the beginning of the drain on holds; and if
`Shutdown` has returned nil then the hub has returned. -/
structure Kept (φ : Front) : Prop where
  wired : φ.sys.Wired
  early : φ.Early
  drained : φ.sys.Running ∨ φ.Drained
  returned : φ.closing = .returned → φ.sys.phase = .closed

/-- Nothing is closing at first. -/
theorem kept_init (opt : SessionOptions) (digest : String → String) (sendBuffer : ClientRef → ℤ)
    (n : ℤ) : (init opt digest sendBuffer n).Kept where
  wired := Sys.wired_init opt digest sendBuffer
  early := Early.init opt digest sendBuffer n
  drained := Or.inl (by simp [init, Sys.init, Sys.Running])
  returned h := by cases h

namespace Kept

/-- A step keeps what is known of the connections. -/
theorem step_wired (h : φ.Kept) (hstep : φ.Step a φ') : φ'.sys.Wired := by
  cases hstep.took with
  | serve _ _ hacc => exact h.wired.step hacc
  | sys _ hb => exact h.wired.step hb
  | _ => exact h.wired

/-- After a step of `DrainsAfterHandshakes` the hub runs, or what holds from the beginning of the
drain on holds. -/
theorem step_drained (h : φ.Kept) (hset : φ.DrainsAfterHandshakes a) (hstep : φ.Step a φ') :
    φ'.sys.Running ∨ φ'.Drained := by
  rcases h.drained with hrun | hd
  · cases hstep.took with
    | serve _ _ hacc =>
        rcases hacc.drains hrun with hrun | ⟨_, h⟩
        · exact Or.inl hrun
        · cases h
    | sys _ hb =>
        rcases hb.drains hrun with hrun | ⟨clients, rfl⟩
        · exact Or.inl hrun
        · exact Or.inr (hset.drained hstep)
    | _ => exact Or.inl hrun
  · exact Or.inr (hd.step h.wired h.early hstep)

/-- `Shutdown` returns nil only when the hub has returned. -/
theorem step_returned (h : φ.Kept) (hstep : φ.Step a φ') (hret : φ'.closing = .returned) :
    φ'.sys.phase = .closed := by
  cases hstep.took with
  | serve _ _ hacc => exact hacc.phase_closed (h.returned hret)
  | @sys b s _ hb =>
      refine hb.phase_closed (h.returned ?_)
      rw [← hret]
      show φ.closing = (φ.follow b).closing
      unfold follow
      split <;> rfl
  | storeClosed => cases hret
  | hubCancel => cases hret
  | returnNil _ hclosed => exact hclosed
  | returnErr => cases hret
  | _ => exact h.returned hret

/-- A step of `DrainsAfterHandshakes` keeps what is known of the shutdown. -/
theorem step (h : φ.Kept) (hset : φ.DrainsAfterHandshakes a) (hstep : φ.Step a φ') : φ'.Kept where
  wired := h.step_wired hstep
  early := h.early.step hstep
  drained := h.step_drained hset hstep
  returned := h.step_returned hstep

end Kept

/-- **No connection survives `Shutdown`** if the handshakes are over and every client that is made
is accounted for when the hub begins to drain: once `Shutdown` has returned nil and every call
has returned, every client whose transport was accepted is closed. -/
theorem none_survives (opt : SessionOptions) (digest : String → String)
    (sendBuffer : ClientRef → ℤ) (n : ℤ) (φ : Front)
    (h : Reachable (Guarded DrainsAfterHandshakes Step) (init opt digest sendBuffer n) φ)
    (hnil : φ.closing = .returned) (hcalls : holders φ.calls Call.inProgress = ∅) :
    ∀ c ∈ holders φ.calls Call.accepted, φ.Closed c := by
  have hkept := h.invariant (kept_init opt digest sendBuffer n)
    fun φ a φ' hφ hstep => hφ.step hstep.1 hstep.2
  have hphase := hkept.returned hnil
  have hreturned : ∀ {c x}, φ.calls.lookup c = some x → x.inProgress = false :=
    fun hx => of_holders_eq_empty hcalls hx
  intro c hc
  obtain ⟨x, hx, hacc⟩ := mem_holders.1 hc
  rcases hkept.drained with hrun | hd
  · exact absurd hphase hrun.1
  rcases hd.covered c x hx (Call.made_of_accepted hacc (hreturned hx)) with hc | hc | hc
  · exact hc
  · rw [hphase] at hc
    cases hc
  · rcases hc with hc | ⟨d, -, hd⟩
    · cases hreturned hc
    · cases hreturned hd

/-- A client is connected, a second one is turned away by a middleware, a third comes
after `Shutdown` has begun. -/
theorem none_survives_one :
    ∃ φ, Reachable (Guarded DrainsAfterHandshakes Step)
        (init ⟨0, 0, 0, 0, 0⟩ id (fun _ => 0) 10) φ ∧
      φ.closing = .returned ∧ holders φ.calls Call.accepted = {0, 1} ∧ φ.Closed 0 ∧
      φ.Closed 1 := by
  obtain ⟨φ, hφ, hp⟩ := Reachable.of_exec_guarded (G := DrainsAfterHandshakes) step
    (s := init ⟨0, 0, 0, 0, 0⟩ id (fun _ => 0) 10)
    [.check 0 .webSocket, .limit 0, .upgrade 0 true, .serve 0, .sys (.register 0),
      .sys (.layer (.openSession 0 ⟨false, false, "", 0, ""⟩ 0 none)), .finish 0,
      .check 1 .polling, .limit 1, .serve 1, .sys (.register 1), .sys (.reject 1),
      .storeClosed, .hubCancel, .check 2 .webSocket, .sys (.drain [0, 1]), .sys .drainNext,
      .sys .drainNext, .sys .drainDone, .returnNil, .sys (.unregister 1),
      .sys (.layer (.shutdown 1)), .finish 1]
    (p := fun φ => φ.closing = .returned ∧ holders φ.calls Call.inProgress = ∅ ∧
      holders φ.calls Call.accepted = {0, 1}) (by decide +kernel)
  obtain ⟨hnil, hcalls, hacc⟩ := of_decide_eq_true hp
  have hclosed := none_survives _ _ _ _ φ hφ hnil hcalls
  rw [hacc] at hclosed
  exact ⟨φ, hφ, hnil, hacc, hclosed 0 (by decide), hclosed 1 (by decide)⟩

/-- **Counterexample.**  A call looks at `closed` before `Shutdown` sets it and registers
its client after the hub has returned. -/
theorem survivor :
    ∃ φ, Reachable Step (init ⟨0, 0, 0, 0, 0⟩ id (fun _ => 0) 10) φ ∧
      φ.closing = .returned ∧ holders φ.calls Call.inProgress = ∅ ∧
      0 ∈ holders φ.calls Call.accepted ∧ φ.sys.stage 0 = .running ∧ ¬ φ.Closed 0 := by
  obtain ⟨φ, hφ, hp⟩ := Reachable.of_exec step (s := init ⟨0, 0, 0, 0, 0⟩ id (fun _ => 0) 10)
    [.check 0 .webSocket, .limit 0, .storeClosed, .hubCancel, .sys (.drain []),
      .sys .drainDone, .returnNil, .upgrade 0 true, .serve 0, .sys (.register 0),
      .sys (.layer (.openSession 0 ⟨false, false, "", 0, ""⟩ 0 none)), .finish 0]
    (p := fun φ => φ.closing = .returned ∧ holders φ.calls Call.inProgress = ∅ ∧
      0 ∈ holders φ.calls Call.accepted ∧ φ.sys.stage 0 = .running ∧ ¬ φ.Closed 0)
    (by decide +kernel)
  exact ⟨φ, hφ, of_decide_eq_true hp⟩

end Front
end GoSocket
