/-
# Counting the entries of a map

The keys of a finite map whose value has a property (`holders`), and how many there are
(`tally`).  An insertion changes the count by what it does to its own key
(`tally_insert_new` for a new key, `tally_insert` for one that is in the map), so a counter
that is kept beside a map is checked one step at a time.
-/

import Mathlib.Data.Finmap
import Mathlib.Data.Finset.Card

namespace GoSocket
namespace Lib

universe u v

variable {α : Type u} {β : Type v} [DecidableEq α]

/-- The keys whose value has the property. -/
def holders (m : Finmap fun _ : α => β) (p : β → Bool) : Finset α :=
  m.keys.filter fun a => (m.lookup a).any p

/-- How many keys have a value with the property. -/
def tally (m : Finmap fun _ : α => β) (p : β → Bool) : ℕ := (holders m p).card

variable {m : Finmap fun _ : α => β} {p : β → Bool} {a c : α} {b old : β}

/-- The holders are the keys whose value counts. -/
theorem mem_holders : a ∈ holders m p ↔ ∃ b, m.lookup a = some b ∧ p b = true := by
  rw [holders, Finset.mem_filter, Finmap.mem_keys, Finmap.mem_iff]
  cases m.lookup a <;> simp

/-- No value in the map has the property. -/
theorem of_holders_eq_empty (h : holders m p = ∅) (ha : m.lookup a = some b) : p b = false := by
  by_contra hp
  have hmem := mem_holders.2 ⟨b, ha, Bool.eq_true_of_not_eq_false hp⟩
  rw [h] at hmem
  exact absurd hmem (Finset.notMem_empty a)

/-- A key with a value holds when the value counts. -/
theorem mem_holders_of_lookup (h : m.lookup a = some b) : a ∈ holders m p ↔ p b = true := by
  rw [mem_holders, h]
  exact ⟨fun ⟨_, hb, hp⟩ => Option.some.inj hb ▸ hp, fun hp => ⟨b, rfl, hp⟩⟩

/-- A key that is set holds when its new value counts. -/
theorem mem_holders_insert_self : a ∈ holders (m.insert a b) p ↔ p b = true :=
  mem_holders_of_lookup (Finmap.lookup_insert m)

/-- Setting a key leaves the other holders. -/
theorem mem_holders_insert_of_ne (h : c ≠ a) :
    c ∈ holders (m.insert a b) p ↔ c ∈ holders m p := by
  rw [mem_holders, mem_holders, Finmap.lookup_insert_of_ne m h]

/-- A key without a value holds nothing. -/
theorem notMem_holders_of_lookup (h : m.lookup a = none) : a ∉ holders m p := by
  rw [mem_holders, h]
  rintro ⟨_, hb, -⟩
  cases hb

/-- The other keys count as before. -/
theorem erase_holders_insert :
    (holders (m.insert a b) p).erase a = (holders m p).erase a := by
  ext c
  rw [Finset.mem_erase, Finset.mem_erase]
  exact and_congr_right fun hc => mem_holders_insert_of_ne hc

/-- The size of a set is that without an element, and one more if the element is there. -/
theorem card_eq_erase (s : Finset α) (a : α) :
    s.card = (s.erase a).card + if a ∈ s then 1 else 0 := by
  split_ifs with h
  · exact (Finset.card_erase_add_one h).symm
  · rw [Finset.erase_eq_of_notMem h, Nat.add_zero]

/-- **A new key** adds itself. -/
theorem tally_insert_new (h : m.lookup a = none) :
    tally (m.insert a b) p = tally m p + if p b = true then 1 else 0 := by
  have hnew := card_eq_erase (holders (m.insert a b) p) a
  rw [erase_holders_insert, Finset.erase_eq_of_notMem (notMem_holders_of_lookup h)] at hnew
  rw [tally, hnew, tally]
  simp only [mem_holders_insert_self]

/-- **A key that was there** stops counting for its old value and counts for its new one. -/
theorem tally_insert (h : m.lookup a = some old) :
    tally (m.insert a b) p + (if p old = true then 1 else 0) =
      tally m p + if p b = true then 1 else 0 := by
  have hnew := card_eq_erase (holders (m.insert a b) p) a
  have hold := card_eq_erase (holders m p) a
  rw [erase_holders_insert] at hnew
  simp only [mem_holders_insert_self, mem_holders_of_lookup h] at hnew hold
  rw [tally, tally, hnew, hold]
  omega

end Lib
end GoSocket
