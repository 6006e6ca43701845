/-
# Runs of a transition relation

A system is given by a relation `R s a t`: the action `a` may take the state
`s` to the state `t`.  `Steps R s as t` says that the actions `as`, taken in
this order, lead from `s` to `t`; nothing is assumed about who takes them, so
a run is one interleaving of everything the actions stand for.

The rules are the usual ones.  A property that one step keeps is kept by every
run (`Steps.invariant`); a property that one step keeps as long as some side
condition holds on the way is kept by the runs on which the condition holds
(`Steps.invariantWhile`, with `Guarded` for conditions on the state before a step);
where the condition is exact, it holds on a run exactly when the property does
(`Steps.guarded_iff_keeping`);
a run of a larger system is seen by a part of it as a run of the part
(`Steps.project`).  An executable step function is run by `exec`, whose
results are runs (`Steps.of_exec`).
-/

import Mathlib.Logic.Relation

namespace GoSocket
namespace Lib

universe u v w x

variable {σ : Type u} {α : Type v} {τ : Type w} {β : Type x}

/-- The actions `as` lead from `s` to `t`. -/
inductive Steps (R : σ → α → σ → Prop) : σ → List α → σ → Prop where
  | nil (s : σ) : Steps R s [] s
  | cons {s t r : σ} {a : α} {as : List α} :
      R s a t → Steps R t as r → Steps R s (a :: as) r

/-- The states some list of actions leads to from `s`. -/
def Reachable (R : σ → α → σ → Prop) (s t : σ) : Prop := ∃ as, Steps R s as t

/-- The steps of `R` whose state before and whose action satisfy `G`. -/
def Guarded (G : σ → α → Prop) (R : σ → α → σ → Prop) (s : σ) (a : α) (t : σ) : Prop :=
  G s a ∧ R s a t

/-- The steps of `R` that lead to a state with `P`. -/
def Keeping (P : σ → Prop) (R : σ → α → σ → Prop) (s : σ) (a : α) (t : σ) : Prop :=
  R s a t ∧ P t

variable {R R' : σ → α → σ → Prop} {s t r : σ} {a : α} {as bs : List α}

/-- A run of one relation is a run of a larger one. -/
theorem Steps.mono (hRR : ∀ s a t, R s a t → R' s a t) (h : Steps R s as t) : Steps R' s as t := by
  induction h with
  | nil s => exact .nil s
  | cons hR _ ih => exact .cons (hRR _ _ _ hR) ih

theorem Reachable.refl (s : σ) : Reachable R s s := ⟨[], .nil s⟩

/-- A run that starts with a given step. -/
theorem Reachable.head (hR : R s a t) (h : Reachable R t r) : Reachable R s r := by
  obtain ⟨as, has⟩ := h
  exact ⟨a :: as, .cons hR has⟩

/-- What is reachable from a reachable state is reachable. -/
theorem Reachable.trans (h : Reachable R s t) (h' : Reachable R t r) : Reachable R s r := by
  obtain ⟨as, has⟩ := h
  induction has with
  | nil s => exact h'
  | cons hR _ ih => exact (ih h').head hR

/-- What is reachable by one relation is reachable by a larger one. -/
theorem Reachable.mono (hRR : ∀ s a t, R s a t → R' s a t) (h : Reachable R s t) :
    Reachable R' s t := by
  obtain ⟨as, has⟩ := h
  exact ⟨as, has.mono hRR⟩

/-- Forgetting the guard of a guarded run. -/
theorem Reachable.of_guarded {G : σ → α → Prop} (h : Reachable (Guarded G R) s t) :
    Reachable R s t :=
  h.mono fun _ _ _ hR => hR.2

/-- **The invariant rule.**  What every step keeps, every run keeps. -/
theorem Steps.invariant {P : σ → Prop} (hstep : ∀ s a t, P s → R s a t → P t)
    (h : Steps R s as t) (hs : P s) : P t := by
  induction h with
  | nil s => exact hs
  | cons hR _ ih => exact ih (hstep _ _ _ hs hR)

/-- What holds at the start and is kept by every step holds in every reachable state. -/
theorem Reachable.invariant {P : σ → Prop} (h : Reachable R s t) (hs : P s)
    (hstep : ∀ s a t, P s → R s a t → P t) : P t := by
  obtain ⟨as, has⟩ := h
  exact has.invariant hstep hs

/-- **The exact guard.**  If a step from a state with `P` keeps it exactly when the guard
holds before the step, then a run keeps `P` throughout exactly when every step meets the
guard.  The step may use an invariant `I`. -/
theorem Steps.guarded_iff_keeping_of_invariant {P I : σ → Prop} {G : σ → α → Prop}
    (hI : ∀ s a t, I s → R s a t → I t)
    (hstep : ∀ s a t, I s → P s → R s a t → (P t ↔ G s a)) (hs : I s) (hP : P s) :
    Steps (Guarded G R) s as t ↔ Steps (Keeping P R) s as t := by
  constructor
  · intro h
    induction h with
    | nil s => exact .nil s
    | cons hR _ ih =>
        have ht := (hstep _ _ _ hs hP hR.2).2 hR.1
        exact .cons ⟨hR.2, ht⟩ (ih (hI _ _ _ hs hR.2) ht)
  · intro h
    induction h with
    | nil s => exact .nil s
    | cons hR _ ih =>
        have hguard := (hstep _ _ _ hs hP hR.1).1 hR.2
        exact .cons ⟨hguard, hR.1⟩ (ih (hI _ _ _ hs hR.1) hR.2)

/-- The same without an invariant. -/
theorem Steps.guarded_iff_keeping {P : σ → Prop} {G : σ → α → Prop}
    (hstep : ∀ s a t, P s → R s a t → (P t ↔ G s a)) (hs : P s) :
    Steps (Guarded G R) s as t ↔ Steps (Keeping P R) s as t :=
  guarded_iff_keeping_of_invariant (I := fun _ => True) (fun _ _ _ _ _ => trivial)
    (fun s a t _ => hstep s a t) trivial hs

/-- A run taken inside the reachable states: the step may use an invariant `I`
that is known of them. -/
theorem Steps.invariantWhile {P I : σ → Prop} (hI : ∀ s a t, I s → R s a t → I t)
    (hstep : ∀ s a t, I s → P s → R s a t → P t) (h : Steps R s as t) (hs : I s) (hP : P s) :
    P t :=
  (h.invariant (P := fun s => I s ∧ P s)
    (fun s a t hs hR => ⟨hI s a t hs.1 hR, hstep s a t hs.1 hs.2 hR⟩) ⟨hs, hP⟩).2

/-- **Projection.**  If every step of a large system is, seen through `f`, at
most one step of a part, then so is every run. -/
theorem Steps.project {Q : τ → β → τ → Prop} {f : σ → τ}
    (hstep : ∀ s a t, R s a t → f t = f s ∨ ∃ b, Q (f s) b (f t))
    (h : Steps R s as t) : Reachable Q (f s) (f t) := by
  induction h with
  | nil s => exact .refl _
  | cons hR _ ih =>
      obtain ⟨bs, hbs⟩ := ih
      rcases hstep _ _ _ hR with heq | ⟨b, hb⟩
      · exact ⟨bs, heq ▸ hbs⟩
      · exact ⟨b :: bs, .cons hb hbs⟩

/-- A run is a run of any part of the state that steps by itself or not at all. -/
theorem Reachable.project {Q : τ → β → τ → Prop} {f : σ → τ}
    (hstep : ∀ s a t, R s a t → f t = f s ∨ ∃ b, Q (f s) b (f t))
    (h : Reachable R s t) : Reachable Q (f s) (f t) := by
  obtain ⟨as, has⟩ := h
  exact has.project hstep

/-- Run an executable step function; `none` when some action is not enabled. -/
def exec (step : σ → α → Option σ) : σ → List α → Option σ
  | s, [] => some s
  | s, a :: as => (step s a).bind fun t => exec step t as

/-- What `exec` computes is a run. -/
theorem Steps.of_exec {step : σ → α → Option σ} (h : exec step s as = some t) :
    Steps (fun s a t => step s a = some t) s as t := by
  induction as generalizing s with
  | nil =>
      obtain rfl := Option.some.inj h
      exact .nil s
  | cons a as ih =>
      obtain ⟨r, hr, h⟩ := Option.bind_eq_some_iff.1 h
      exact .cons hr (ih h)

/-- A list of actions that ends in a state where `p` holds. -/
theorem Reachable.of_exec (step : σ → α → Option σ) (as : List α) {p : σ → Bool}
    (h : (exec step s as).map p = some true) :
    ∃ t, Reachable (fun s a t => step s a = some t) s t ∧ p t = true := by
  obtain ⟨t, ht, hp⟩ := Option.map_eq_some_iff.1 h
  exact ⟨t, ⟨as, .of_exec ht⟩, hp⟩

/-- The same with a decidable guard on every step. -/
theorem Reachable.of_exec_guarded {G : σ → α → Prop} [∀ s a, Decidable (G s a)]
    (step : σ → α → Option σ) (as : List α) {p : σ → Bool}
    (h : (exec (fun s a => if G s a then step s a else none) s as).map p = some true) :
    ∃ t, Reachable (Guarded G fun s a t => step s a = some t) s t ∧ p t = true := by
  obtain ⟨t, ht, hp⟩ := Reachable.of_exec _ as h
  exact ⟨t, ht.mono fun s a t hst => Option.ite_none_right_eq_some.1 hst, hp⟩

end Lib
end GoSocket
