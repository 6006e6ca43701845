/-
# The limit on connections

`conns` is added to at the beginning of `serveTransport` and taken from in two places,
when a middleware fails and in `OnDone`.  Whatever happens, it is the number of
connections that are admitted and neither rejected nor done (`Counted`).

It is no cap: `serveWS` and `attachPollTransport` look at `conns` before the handshake
and `serveTransport` adds to it afterwards, so any number of handshakes in flight pass
while there is room for one (`limit_exceeded`).  `MaxConnections` holds on the runs in
which a call passes only if there is room for it beside those that have passed and are
not counted yet (`conns_capped`).
-/

import GoSocket.Server.Front

namespace GoSocket

open Lib

namespace Front

variable {φ φ' : Front} {a : FrontOp}

/-- What the step `a` can do to the calls and to `conns`. -/
inductive CallStep (φ : Front) (a : FrontOp) : (Finmap fun _ : ClientRef => Call) → ℤ → Prop where
  | same : CallStep φ a φ.calls φ.conns
  | arrived {c : ClientRef} {x : Call} : φ.calls.lookup c = none → x.admitted = false →
      x.pending = false → CallStep φ a (φ.calls.insert c x) φ.conns
  | passed {c : ClientRef} {old x : Call} : a = .limit c → φ.conns < φ.maxConnections →
      φ.calls.lookup c = some old → old.admitted = false → old.pending = false →
      x.admitted = false → x.pending = true → CallStep φ a (φ.calls.insert c x) φ.conns
  /-- The call goes on, or ends, and is counted as before. -/
  | moved {c : ClientRef} {old x : Call} : φ.calls.lookup c = some old →
      x.admitted = old.admitted → (x.pending = true → old.pending = true) →
      CallStep φ a (φ.calls.insert c x) φ.conns
  | counted {c : ClientRef} {old x : Call} : φ.calls.lookup c = some old → old.pending = true →
      old.admitted = false → x.admitted = true → x.pending = false →
      CallStep φ a (φ.calls.insert c x) (φ.conns + 1)
  | discounted {c : ClientRef} {old x : Call} : φ.calls.lookup c = some old →
      old.admitted = true → old.pending = false → x.admitted = false → x.pending = false →
      CallStep φ a (φ.calls.insert c x) (φ.conns - 1)

/-- **Everything a step can do to the calls and to `conns`.** -/
theorem Step.calls (hstep : φ.Step a φ') (h : φ.Early) : CallStep φ a φ'.calls φ'.conns := by
  cases hstep.took with
  | check hc =>
      refine .arrived hc ?_ ?_
      · split_ifs <;> rfl
      · split_ifs <;> rfl
  | limit hc =>
      show CallStep φ _ (φ.calls.insert _ _) φ.conns
      split_ifs with hfull
      · exact .moved hc rfl fun h => by cases h
      · exact .passed rfl (not_le.1 hfull) hc rfl rfl rfl rfl
  | @upgrade c ok hc =>
      refine .moved hc ?_ fun _ => rfl
      split_ifs <;> rfl
  | @serve c x s hc hx hacc =>
      refine .counted hc hx ?_ rfl rfl
      cases x with
      | serving => cases hx
      | running => cases hx
      | _ => rfl
  | @sys b s hp hb =>
      show CallStep φ _ (φ.follow b).calls (φ.follow b).conns
      unfold follow
      split
      · exact .discounted (h.reject hb) rfl rfl rfl rfl
      · exact .moved (h.openSession hb) rfl fun h => by cases h
      · exact .same
  | served hc => exact .moved hc rfl fun h => by cases h
  | turnedAway hc => exact .moved hc rfl fun h => by cases h
  | onDone hc => exact .discounted hc rfl rfl rfl rfl
  | _ => exact .same

/-- The limit is never changed. -/
theorem Step.maxConnections (hstep : φ.Step a φ') : φ'.maxConnections = φ.maxConnections := by
  cases hstep.took with
  | @sys b s =>
      show (φ.follow b).maxConnections = φ.maxConnections
      unfold follow
      split <;> rfl
  | _ => rfl

/-- The counter is right. -/
def Counted (φ : Front) : Prop := φ.conns = tally φ.calls Call.admitted

/-- There is room for every call that has passed. -/
def Capped (φ : Front) : Prop := φ.conns + tally φ.calls Call.pending ≤ φ.maxConnections

/-- A call that passes finds room beside those that have passed and are not counted yet. -/
def Reserves (φ : Front) : FrontOp → Prop
  | .limit _ => φ.conns < φ.maxConnections →
      φ.conns + tally φ.calls Call.pending < φ.maxConnections
  | _ => True

instance (φ : Front) (a : FrontOp) : Decidable (φ.Reserves a) := by
  unfold Reserves
  split <;> infer_instance

/-- No connection is counted at first. -/
theorem capped_init (opt : SessionOptions) (digest : String → String)
    (sendBuffer : ClientRef → ℤ) (n : ℤ) : (init opt digest sendBuffer n).Capped := by
  show (0 : ℤ) + (0 : ℕ) ≤ normalizeMaxConnections n
  unfold normalizeMaxConnections
  split_ifs <;> omega

/-- **Every step keeps the counter right.** -/
theorem Counted.step (h : φ.Counted) (he : φ.Early) (hstep : φ.Step a φ') : φ'.Counted := by
  unfold Counted at h ⊢
  have hcalls := hstep.calls he
  generalize φ'.calls = calls, φ'.conns = conns at hcalls
  cases hcalls with
  | same => exact h
  | @arrived c x hc hx =>
      have ht := tally_insert_new (p := Call.admitted) (b := x) hc
      simp only [hx, Bool.false_eq_true, if_false] at ht
      omega
  | @passed c old x _ _ hc hold _ hx =>
      have ht := tally_insert (p := Call.admitted) (b := x) hc
      simp only [hold, hx] at ht
      omega
  | @moved c old x hc hx =>
      have ht := tally_insert (p := Call.admitted) (b := x) hc
      simp only [hx] at ht
      omega
  | @counted c old x hc _ hold hx =>
      have ht := tally_insert (p := Call.admitted) (b := x) hc
      simp only [hold, hx, Bool.false_eq_true, if_false, if_true] at ht
      omega
  | @discounted c old x hc hold _ hx =>
      have ht := tally_insert (p := Call.admitted) (b := x) hc
      simp only [hold, hx, Bool.false_eq_true, if_false, if_true] at ht
      omega

/-- **A step that reserves its place keeps within the limit.** -/
theorem Capped.step (h : φ.Capped) (he : φ.Early) (hr : φ.Reserves a) (hstep : φ.Step a φ') :
    φ'.Capped := by
  unfold Capped at h ⊢
  rw [hstep.maxConnections]
  have hcalls := hstep.calls he
  generalize φ'.calls = calls, φ'.conns = conns at hcalls
  cases hcalls with
  | same => exact h
  | @arrived c x hc _ hx =>
      have ht := tally_insert_new (p := Call.pending) (b := x) hc
      simp only [hx, Bool.false_eq_true, if_false] at ht
      omega
  | @passed c old x ha hroom hc _ hold _ hx =>
      subst ha
      have ht := tally_insert (p := Call.pending) (b := x) hc
      have hroom' := hr hroom
      simp only [hold, hx, Bool.false_eq_true, if_false, if_true] at ht
      omega
  | @moved c old x hc _ hx =>
      have ht := tally_insert (p := Call.pending) (b := x) hc
      by_cases hpending : x.pending = true
      · simp only [hpending, hx hpending] at ht
        omega
      · rw [if_neg hpending] at ht
        omega
  | @counted c old x hc hold _ _ hx =>
      have ht := tally_insert (p := Call.pending) (b := x) hc
      simp only [hold, hx, Bool.false_eq_true, if_false, if_true] at ht
      omega
  | @discounted c old x hc _ hold _ hx =>
      have ht := tally_insert (p := Call.pending) (b := x) hc
      simp only [hold, hx, Bool.false_eq_true, if_false] at ht
      omega

/-- **The connections are counted, and capped if the calls reserve their places.** -/
theorem conns_capped (opt : SessionOptions) (digest : String → String)
    (sendBuffer : ClientRef → ℤ) (n : ℤ) (φ : Front) :
    (Reachable Step (init opt digest sendBuffer n) φ →
      φ.conns = tally φ.calls Call.admitted ∧ 0 ≤ φ.conns) ∧
      (Reachable (Guarded Reserves Step) (init opt digest sendBuffer n) φ →
        φ.conns ≤ normalizeMaxConnections n) := by
  constructor
  · intro h
    have hcounted : φ.Counted ∧ φ.Early := by
      refine h.invariant (P := fun φ => φ.Counted ∧ φ.Early)
        ⟨rfl, Early.init opt digest sendBuffer n⟩ fun φ a φ' hφ hstep => ?_
      exact ⟨hφ.1.step hφ.2 hstep, hφ.2.step hstep⟩
    exact ⟨hcounted.1, hcounted.1 ▸ Int.natCast_nonneg _⟩
  · intro h
    have hcapped : φ.Capped ∧ φ.Early ∧ φ.maxConnections = normalizeMaxConnections n := by
      refine h.invariant
        (P := fun φ => φ.Capped ∧ φ.Early ∧ φ.maxConnections = normalizeMaxConnections n)
        ⟨capped_init opt digest sendBuffer n, Early.init opt digest sendBuffer n, rfl⟩
        fun φ a φ' hφ hstep => ?_
      exact ⟨hφ.1.step hφ.2.1 hstep.1 hstep.2, hφ.2.1.step hstep.2,
        hstep.2.maxConnections.trans hφ.2.2⟩
    obtain ⟨hroom, -, hmax⟩ := hcapped
    unfold Capped at hroom
    omega

/-- One place: a call that comes while the place is taken is refused. -/
theorem conns_capped_one :
    ∃ φ, Reachable (Guarded Reserves Step) (init ⟨0, 0, 0, 0, 0⟩ id (fun _ => 0) 1) φ ∧
      φ.calls.lookup 1 = some .refused ∧ φ.conns = 1 ∧ φ.conns ≤ normalizeMaxConnections 1 := by
  obtain ⟨φ, hφ, hp⟩ := Reachable.of_exec_guarded (G := Reserves) step
    (s := init ⟨0, 0, 0, 0, 0⟩ id (fun _ => 0) 1)
    [.check 0 .webSocket, .limit 0, .upgrade 0 true, .serve 0, .check 1 .polling, .limit 1]
    (p := fun φ => φ.calls.lookup 1 = some .refused ∧ φ.conns = 1) (by decide +kernel)
  obtain ⟨hcall, hconns⟩ := of_decide_eq_true hp
  exact ⟨φ, hφ, hcall, hconns, (conns_capped _ _ _ _ φ).2 hφ⟩

/-- **Counterexample.**  `MaxConnections` is 1, and two handshakes look at `conns` before
either is counted. -/
theorem limit_exceeded :
    ∃ φ, Reachable Step (init ⟨0, 0, 0, 0, 0⟩ id (fun _ => 0) 1) φ ∧
      normalizeMaxConnections 1 = 1 ∧ φ.conns = 2 := by
  obtain ⟨φ, hφ, hp⟩ := Reachable.of_exec step (s := init ⟨0, 0, 0, 0, 0⟩ id (fun _ => 0) 1)
    [.check 0 .webSocket, .limit 0, .check 1 .webSocket, .limit 1, .upgrade 0 true,
      .upgrade 1 true, .serve 0, .serve 1]
    (p := fun φ => φ.conns = 2) (by decide +kernel)
  exact ⟨φ, hφ, by decide, of_decide_eq_true hp⟩

end Front
end GoSocket
