/-
# Queues that are in order

A loop that takes elements off the front of a queue while a test holds finds all
the elements that pass the test only if they stand at the front.  They do when
the test gets no easier along the queue (`takeWhile_eq_filter`,
`dropWhile_eq_filter`); and a queue whose elements carry a key is in the order of
the keys exactly when such a loop is right for every bound on the key
(`pairwise_le_iff_takeWhile`).
-/

import Mathlib.Data.List.TakeWhile
import Mathlib.Order.Lattice

namespace GoSocket
namespace Lib

universe u v

variable {α : Type u} {β : Type v}

/-- What is behind the first run of elements with the property. -/
theorem drop_length_takeWhile (p : α → Bool) (l : List α) :
    l.drop (l.takeWhile p).length = l.dropWhile p := by
  have h : (l.takeWhile p ++ l.dropWhile p).drop (l.takeWhile p).length = l.dropWhile p :=
    List.drop_left
  rwa [List.takeWhile_append_dropWhile] at h

/-- If an element passes the test only behind elements that pass it, they all stand at the
front. -/
theorem takeWhile_eq_filter {p : α → Bool} {l : List α}
    (h : l.Pairwise fun a b => p b = true → p a = true) : l.takeWhile p = l.filter p := by
  induction l with
  | nil => rfl
  | cons a l ih =>
      obtain ⟨ha, hl⟩ := List.pairwise_cons.1 h
      cases hp : p a with
      | true => rw [List.takeWhile_cons_of_pos hp, List.filter_cons_of_pos hp, ih hl]
      | false =>
          have hnone : l.filter p = [] :=
            List.filter_eq_nil_iff.2 fun b hb hpb => by simp [ha b hb hpb] at hp
          rw [List.takeWhile_cons_of_neg (by simp [hp]), List.filter_cons_of_neg (by simp [hp]),
            hnone]

/-- The loop finds all of them exactly when it leaves none of them behind. -/
theorem takeWhile_eq_filter_iff {p : α → Bool} {l : List α} :
    l.takeWhile p = l.filter p ↔ l.dropWhile p = l.filter fun a => !p a := by
  have hpass : l.filter p = l.takeWhile p ++ (l.dropWhile p).filter p :=
    calc
      l.filter p = (l.takeWhile p ++ l.dropWhile p).filter p := by
        rw [List.takeWhile_append_dropWhile]
      _ = l.takeWhile p ++ (l.dropWhile p).filter p := by
        rw [List.filter_append, List.filter_eq_self.2 fun a ha => List.mem_takeWhile_imp ha]
  have hfail : l.filter (fun a => !p a) = (l.dropWhile p).filter fun a => !p a :=
    calc
      l.filter (fun a => !p a) = (l.takeWhile p ++ l.dropWhile p).filter fun a => !p a := by
        rw [List.takeWhile_append_dropWhile]
      _ = (l.dropWhile p).filter fun a => !p a := by
        rw [List.filter_append, List.append_left_eq_self, List.filter_eq_nil_iff]
        intro a ha
        simp [List.mem_takeWhile_imp ha]
  rw [hpass, hfail, List.self_eq_append_right, List.filter_eq_nil_iff, eq_comm (a := l.dropWhile p),
    List.filter_eq_self]
  simp

/-- What is left of the queue, if they stand at the front. -/
theorem dropWhile_eq_filter {p : α → Bool} {l : List α}
    (h : l.Pairwise fun a b => p b = true → p a = true) :
    l.dropWhile p = l.filter fun a => !p a :=
  takeWhile_eq_filter_iff.1 (takeWhile_eq_filter h)

/-- **A queue is in order exactly when the loop is right for every bound.** -/
theorem pairwise_le_iff_takeWhile [LinearOrder β] (f : α → β) (l : List α) :
    l.Pairwise (fun a b => f a ≤ f b) ↔
      ∀ t, l.takeWhile (fun a => decide (f a < t)) = l.filter fun a => decide (f a < t) := by
  constructor
  · intro h t
    refine takeWhile_eq_filter (h.imp fun {a b} hab hb => ?_)
    exact decide_eq_true (lt_of_le_of_lt hab (of_decide_eq_true hb))
  · intro h
    induction l with
    | nil => exact .nil
    | cons a l ih =>
        -- with the key of the front as the bound, the loop takes nothing
        have hle : ∀ b ∈ l, f a ≤ f b := by
          intro b hb
          have hnone := h (f a)
          rw [List.takeWhile_cons_of_neg (by simp), List.filter_cons_of_neg (by simp)] at hnone
          have hnot := List.filter_eq_nil_iff.1 hnone.symm b hb
          exact not_lt.1 fun hlt => hnot (decide_eq_true hlt)
        refine List.pairwise_cons.2 ⟨hle, ih fun t => ?_⟩
        by_cases hat : f a < t
        · have hcons := h t
          rw [List.takeWhile_cons_of_pos (by simpa using hat),
            List.filter_cons_of_pos (by simpa using hat)] at hcons
          exact (List.cons_inj_right a).1 hcons
        · have hnot : ∀ b ∈ l, ¬ decide (f b < t) = true := fun b hb hbt =>
            hat (lt_of_le_of_lt (hle b hb) (of_decide_eq_true hbt))
          rw [List.filter_eq_nil_iff.2 hnot]
          cases l with
          | nil => rfl
          | cons b l => exact List.takeWhile_cons_of_neg (hnot b List.mem_cons_self)

end Lib
end GoSocket
