/-
# A queue kept in a slice with a moving head

A Go queue that is popped at the front often keeps its elements in one slice
and an index `head` of the first live one: a pop clears the slot at `head` and
moves the index, and once the dead part is long enough the live part is copied
to the front (`compact`).  What the queue holds is `entries.drop head`; the
lemmas here say that the bookkeeping is invisible there (`drop_compact`,
`drop_pop`), and how long the dead part can get (`compact_bound`).

`longestSuffix p l` is what a bounded queue keeps of `l` when it drops the
oldest elements until `p` holds: the longest suffix of `l` that satisfies `p`.
-/

import Mathlib.Data.List.Infix

namespace GoSocket
namespace Lib

universe u

variable {α : Type u}

/-- Copy the live part to the front when at least `k` slots, and at least half
of the slice, are dead. -/
def compact (k : ℕ) (entries : List α) (head : ℕ) : List α × ℕ :=
  if k ≤ head ∧ entries.length ≤ head * 2 then (entries.drop head, 0) else (entries, head)

/-- Compacting keeps the live part. -/
@[simp] theorem drop_compact (k : ℕ) (entries : List α) (head : ℕ) :
    (compact k entries head).1.drop (compact k entries head).2 = entries.drop head := by
  unfold compact
  split_ifs <;> simp

/-- Compacting keeps the head within the slice. -/
theorem compact_le (k : ℕ) {entries : List α} {head : ℕ} (h : head ≤ entries.length) :
    (compact k entries head).2 ≤ (compact k entries head).1.length := by
  unfold compact
  split_ifs
  · exact Nat.zero_le _
  · exact h

/-- After compaction fewer than `k` slots are dead, or fewer than half. -/
theorem compact_bound {k : ℕ} (hk : 0 < k) (entries : List α) (head : ℕ) :
    (compact k entries head).2 < k ∨
      2 * (compact k entries head).2 < (compact k entries head).1.length := by
  unfold compact
  split_ifs with h
  · exact Or.inl hk
  · simp only
    omega

/-- With at most `n` live elements and a dead part under `k` slots or under half of the slice,
the slice is at most `max (k - 1) n` slots longer than it has to be. -/
theorem length_le_of_compacted {entries : List α} {head k n : ℕ}
    (hlive : (entries.drop head).length ≤ n) (h : head < k ∨ 2 * head < entries.length) :
    entries.length ≤ n + max (k - 1) n := by
  rw [List.length_drop] at hlive
  omega

/-- Clearing the slot at `head` and moving the index pops the front. -/
theorem drop_pop (entries : List α) (head : ℕ) (x : α) :
    (entries.set head x).drop (head + 1) = (entries.drop head).tail := by
  rw [List.drop_set_of_lt (by omega), List.tail_drop]

/-- The slot at `head` holds the front of the queue. -/
theorem getElem?_head {entries l : List α} {head : ℕ} {x : α} (h : entries.drop head = x :: l) :
    entries[head]? = some x := by
  rw [← List.head?_drop, h, List.head?_cons]

/-- The longest suffix of a list that satisfies `p`, `[]` if none does. -/
def longestSuffix (p : List α → Prop) [DecidablePred p] : List α → List α
  | [] => []
  | a :: l => if p (a :: l) then a :: l else longestSuffix p l

variable {p : List α → Prop} [DecidablePred p]

/-- A list with the property is its own longest suffix with it. -/
theorem longestSuffix_of_pos {l : List α} (h : p l) : longestSuffix p l = l := by
  cases l with
  | nil => rfl
  | cons a l => exact if_pos h

/-- The longest suffix is one. -/
theorem longestSuffix_suffix (p : List α → Prop) [DecidablePred p] (l : List α) :
    longestSuffix p l <:+ l := by
  induction l with
  | nil => exact List.suffix_rfl
  | cons a l ih =>
      unfold longestSuffix
      split_ifs
      · exact List.suffix_rfl
      · exact ih.trans (List.suffix_cons a l)

/-- The longest suffix has the property, if the empty list does. -/
theorem longestSuffix_pos (hnil : p []) (l : List α) : p (longestSuffix p l) := by
  induction l with
  | nil => exact hnil
  | cons a l ih =>
      unfold longestSuffix
      split_ifs with h
      · exact h
      · exact ih

/-- It depends on what `p` is of the suffixes only. -/
theorem longestSuffix_congr {q : List α → Prop} [DecidablePred q] {l : List α}
    (h : ∀ s, s <:+ l → (p s ↔ q s)) : longestSuffix p l = longestSuffix q l := by
  induction l with
  | nil => rfl
  | cons a l ih =>
      have hrest := ih fun s hs => h s (hs.trans (List.suffix_cons a l))
      have hhead := h (a :: l) List.suffix_rfl
      unfold longestSuffix
      split_ifs with hp hq hq
      · rfl
      · exact absurd (hhead.1 hp) hq
      · exact absurd (hhead.2 hq) hp
      · exact hrest

/-- `s` is the longest suffix of `l` that satisfies `p`. -/
structure IsLongestSuffix (p : List α → Prop) (l s : List α) : Prop where
  suffix : s <:+ l
  holds : p s
  longest : ∀ t, t <:+ l → p t → t.length ≤ s.length

/-- What `longestSuffix` computes is the longest suffix. -/
theorem isLongestSuffix_longestSuffix (hnil : p []) (l : List α) :
    IsLongestSuffix p l (longestSuffix p l) := by
  refine ⟨longestSuffix_suffix p l, longestSuffix_pos hnil l, ?_⟩
  induction l with
  | nil => exact fun t ht _ => ht.length_le
  | cons a l ih =>
      intro t ht hp
      unfold longestSuffix
      split_ifs with h
      · exact ht.length_le
      · rcases List.suffix_cons_iff.1 ht with rfl | ht
        · exact absurd hp h
        · exact ih t ht hp

omit [DecidablePred p] in
/-- The last element stays if it satisfies `p` alone. -/
theorem IsLongestSuffix.mem_last {l s : List α} {x : α} (h : IsLongestSuffix p (l ++ [x]) s)
    (hx : p [x]) : x ∈ s := by
  have hlen := h.longest [x] (List.suffix_append l [x]) hx
  rcases List.suffix_concat_iff.1 h.suffix with rfl | ⟨t, rfl, -⟩
  · exact absurd hlen (by simp)
  · simp

end Lib
end GoSocket
