/-
# Reordering a run

A run may be put in another order as long as actions that depend on each other keep
theirs.  Which do is given by the locks an action takes: `SameOrder` says that two lists
have the same actions, and that those with a common lock come in the same order.

An action that is put in late goes before a tail it has no lock in common with
(`SameOrder.insert`); that the run can take it there is seen by moving the tail along a map
of the states (`Steps.map`).
-/

import GoSocket.Lib.Steps
import Mathlib.Data.List.Perm.Basic

namespace GoSocket
namespace Lib

variable {σ α L : Type}

/-- Two runs make one. -/
theorem Steps.append {R : σ → α → σ → Prop} {s t r : σ} {as bs : List α} (h : Steps R s as t)
    (h' : Steps R t bs r) : Steps R s (as ++ bs) r := by
  induction h with
  | nil s => exact h'
  | cons hR _ ih => exact .cons hR (ih h')

/-- A run and a step make a run. -/
theorem Steps.snoc {R : σ → α → σ → Prop} {s t r : σ} {a : α} {as : List α} (h : Steps R s as t)
    (hR : R t a r) : Steps R s (as ++ [a]) r :=
  h.append (.cons hR (.nil r))

/-- A map of the states that the actions of a run do not mind. -/
theorem Steps.map {R : σ → α → σ → Prop} {φ : σ → σ} {s t : σ} {as : List α} (h : Steps R s as t)
    (hφ : ∀ a ∈ as, ∀ s t, R s a t → R (φ s) a (φ t)) : Steps R (φ s) as (φ t) := by
  induction h with
  | nil s => exact .nil _
  | cons hR _ ih =>
      exact .cons (hφ _ (List.mem_cons_self ..) _ _ hR)
        (ih fun a ha => hφ a (List.mem_cons_of_mem _ ha))

variable [DecidableEq L]

/-- The same actions, those with a common lock in the same order. -/
structure SameOrder (locks : α → List L) (xs ys : List α) : Prop where
  perm : xs.Perm ys
  order : ∀ ℓ, (xs.filter fun x => ℓ ∈ locks x) = ys.filter fun x => ℓ ∈ locks x

namespace SameOrder

variable {locks : α → List L} {xs ys zs : List α} {x : α}

theorem refl (xs : List α) : SameOrder locks xs xs := ⟨.refl _, fun _ => rfl⟩

/-- An action that has no lock in common with the tail goes before it. -/
theorem insert (h : SameOrder locks (xs ++ zs) ys)
    (hx : ∀ z ∈ zs, ∀ ℓ ∈ locks x, ℓ ∉ locks z) :
    SameOrder locks (xs ++ [x] ++ zs) (ys ++ [x]) where
  perm := by
    have hmove : (xs ++ [x] ++ zs).Perm (xs ++ zs ++ [x]) := by
      rw [List.append_assoc, List.append_assoc]
      exact List.perm_append_comm.append_left xs
    exact hmove.trans (h.perm.append_right [x])
  order ℓ := by
    have horder := h.order ℓ
    simp only [List.filter_append] at horder ⊢
    by_cases hℓ : ℓ ∈ locks x
    · have hnil : (zs.filter fun z => ℓ ∈ locks z) = [] := by
        rw [List.filter_eq_nil_iff]
        exact fun z hz => by simpa using hx z hz ℓ hℓ
      rw [hnil, List.append_nil] at horder ⊢
      rw [horder]
    · simpa [hℓ] using horder

end SameOrder
end Lib
end GoSocket
