/-
# Readers of a feed that may be interrupted

A feed is a list of items with interruptions between them: `some a` is the next
item, `none` is a point where whoever waits for an item gives up.  A reader takes
what it needs from a feed and returns a result, or an error, and what is left.
Items that a reader took before it failed are gone.

A reader is `Regular` when it notices an interruption only by failing with it: if it does
not fail so, it does the same on the feed without interruptions.  Readers are built by
`bind`, and being regular is kept by it, so it is shown of a reader by following how it is
built.  So is that a result costs at least an item (`Takes`), and that an error does not
occur (`Avoids`).
-/

import Mathlib.Data.List.Basic

namespace GoSocket
namespace Lib

/-- Items, and the interruptions between them. -/
abbrev Feed (α : Type) := List (Option α)

/-- A feed without its interruptions. -/
def Feed.items {α : Type} (s : Feed α) : Feed α := s.filter Option.isSome

/-- What takes items from a feed. -/
def Reader (α ε β : Type) := Feed α → Except ε β × Feed α

namespace Reader

variable {α ε β γ : Type}

def ret (b : β) : Reader α ε β := fun s => (.ok b, s)

def fail (e : ε) : Reader α ε β := fun s => (.error e, s)

def bind (m : Reader α ε β) (f : β → Reader α ε γ) : Reader α ε γ := fun s =>
  match m s with
  | (.ok b, s) => f b s
  | (.error e, s) => (.error e, s)

instance : Monad (Reader α ε) where
  pure := ret
  bind := bind

/-- One item. -/
def item (eof interrupted : ε) : Reader α ε α
  | [] => (.error eof, [])
  | none :: s => (.error interrupted, s)
  | some a :: s => (.ok a, s)

/-- As many items as asked for; `short` is the error of a feed that ends among them. -/
def exactly (eof short interrupted : ε) : (n : ℕ) → Reader α ε {l : List α // l.length = n}
  | 0 => ret ⟨[], rfl⟩
  | n + 1 =>
      bind (item eof interrupted) fun a =>
        bind (exactly short short interrupted n) fun l =>
          ret ⟨a :: l.1, by rw [List.length_cons, l.2]⟩

section run

variable {m : Reader α ε β} {f : β → Reader α ε γ} {s s' : Feed α}

/-- A reader that succeeds is followed by the next. -/
theorem bind_of_ok {b : β} (h : m s = (.ok b, s')) : bind m f s = f b s' := by
  rw [bind, h]

/-- A reader that fails is the last. -/
theorem bind_of_error {e : ε} (h : m s = (.error e, s')) : bind m f s = (.error e, s') := by
  rw [bind, h]

/-- What a reader made of two parts can have done. -/
theorem bind_cases (m : Reader α ε β) (f : β → Reader α ε γ) (s : Feed α) :
    (∃ b s', m s = (.ok b, s') ∧ bind m f s = f b s') ∨
      ∃ e s', m s = (.error e, s') ∧ bind m f s = (.error e, s') := by
  rcases hm : m s with ⟨e | b, s'⟩
  · exact Or.inr ⟨e, s', rfl, bind_of_error hm⟩
  · exact Or.inl ⟨b, s', rfl, bind_of_ok hm⟩

/-- Items that are there are taken. -/
theorem exactly_append {eof short interrupted : ε} {l : List α} {n : ℕ} (h : l.length = n)
    (s : Feed α) : exactly eof short interrupted n (l.map some ++ s) = (.ok ⟨l, h⟩, s) := by
  subst h
  induction l generalizing eof with
  | nil => rfl
  | cons a l ih =>
      show bind (item eof interrupted) _ (some a :: (l.map some ++ s)) = _
      rw [bind_of_ok (m := item eof interrupted) rfl, bind_of_ok ih]
      rfl

end run

/-- How a reader treats a feed. -/
structure Regular (interrupted : ε) (m : Reader α ε β) : Prop where
  /-- What is left is the end of the feed. -/
  trims : ∀ s, (m s).2 <:+ s
  /-- An interruption is gone when it was noticed. -/
  spends : ∀ s s', m s = (.error interrupted, s') → s'.length < s.length
  /-- An interruption that was not noticed makes no difference. -/
  steady : ∀ s, (m s).1 ≠ .error interrupted → m s.items = ((m s).1, (m s).2.items)

section regular

variable {interrupted : ε}

/-- Returning a value reads nothing. -/
theorem regular_ret (b : β) : Regular interrupted (ret b : Reader α ε β) where
  trims _ := List.suffix_rfl
  spends := by rintro s s' ⟨⟩
  steady _ _ := rfl

/-- Failing reads nothing, and is no interruption. -/
theorem regular_fail {e : ε} (h : e ≠ interrupted) :
    Regular interrupted (fail e : Reader α ε β) where
  trims _ := List.suffix_rfl
  spends := by
    rintro s s' ⟨⟩
    exact absurd rfl h
  steady _ _ := rfl

/-- Waiting for one item notices an interruption only by failing with it. -/
theorem regular_item {eof : ε} (heof : eof ≠ interrupted) :
    Regular interrupted (item eof interrupted : Reader α ε α) where
  trims s := by
    match s with
    | [] => exact List.suffix_rfl
    | none :: s => exact List.suffix_cons _ _
    | some a :: s => exact List.suffix_cons _ _
  spends s s' h := by
    match s with
    | [] => exact absurd (Except.error.inj (Prod.mk.inj h).1) heof
    | none :: s =>
        obtain ⟨-, rfl⟩ := Prod.mk.inj h
        exact Nat.lt_succ_self _
    | some a :: s => cases h
  steady s h := by
    match s with
    | [] => rfl
    | none :: s => exact absurd rfl h
    | some a :: s => rfl

/-- Regular readers compose. -/
theorem Regular.bind {m : Reader α ε β} {f : β → Reader α ε γ} (hm : Regular interrupted m)
    (hf : ∀ b, Regular interrupted (f b)) : Regular interrupted (bind m f) where
  trims s := by
    have hs := hm.trims s
    rcases bind_cases m f s with ⟨b, s', hok, h⟩ | ⟨e, s', herr, h⟩
    · rw [h]
      rw [hok] at hs
      exact ((hf b).trims s').trans hs
    · rw [h]
      rwa [herr] at hs
  spends s s' h := by
    rcases bind_cases m f s with ⟨b, t, hok, hbind⟩ | ⟨e, t, herr, hbind⟩
    · have hle := (hm.trims s).length_le
      rw [hok] at hle
      exact Nat.lt_of_lt_of_le ((hf b).spends t s' (hbind.symm.trans h)) hle
    · cases hbind.symm.trans h
      exact hm.spends s _ herr
  steady s hs := by
    have hitems := hm.steady s
    rcases bind_cases m f s with ⟨b, s', hok, h⟩ | ⟨e, s', herr, h⟩
    · rw [hok] at hitems
      rw [h] at hs ⊢
      rw [bind_of_ok (hitems (by simp))]
      exact (hf b).steady s' hs
    · rw [herr] at hitems
      rw [h] at hs ⊢
      refine bind_of_error (hitems ?_)
      rintro ⟨⟩
      exact hs rfl

/-- Reading `n` items is regular. -/
theorem regular_exactly {eof short : ε} (heof : eof ≠ interrupted) (hshort : short ≠ interrupted)
    (n : ℕ) : Regular interrupted (exactly eof short interrupted n : Reader α ε _) := by
  induction n generalizing eof with
  | zero => exact regular_ret _
  | succ n ih =>
      exact (regular_item heof).bind fun a => (ih hshort).bind fun l => regular_ret _

end regular

/-- A result is not for free: less is left than there was. -/
def Takes (m : Reader α ε β) : Prop := ∀ s b s', m s = (.ok b, s') → s'.length < s.length

/-- One item is taken. -/
theorem takes_item (eof interrupted : ε) : Takes (item eof interrupted : Reader α ε α) := by
  intro s b s' h
  match s with
  | [] => cases h
  | none :: s => cases h
  | some a :: s =>
      obtain ⟨-, rfl⟩ := Prod.mk.inj h
      exact Nat.lt_succ_self _

/-- A reader that takes something takes something before whatever follows. -/
theorem Takes.bind {interrupted : ε} {m : Reader α ε β} {f : β → Reader α ε γ} (hm : Takes m)
    (hf : ∀ b, Regular interrupted (f b)) : Takes (bind m f) := by
  intro s c s' h
  rcases bind_cases m f s with ⟨b, t, hok, hbind⟩ | ⟨e, t, -, hbind⟩
  · have hle := ((hf b).trims t).length_le
    rw [← hbind, h] at hle
    exact Nat.lt_of_le_of_lt hle (hm s b t hok)
  · cases hbind.symm.trans h

/-- The reader never fails with this error. -/
def Avoids (e : ε) (m : Reader α ε β) : Prop := ∀ s, (m s).1 ≠ .error e

section avoids

variable {e : ε}

/-- Returning a value fails with nothing. -/
theorem avoids_ret (b : β) : Avoids e (ret b : Reader α ε β) := by
  rintro s ⟨⟩

/-- A failure is with its own error alone. -/
theorem avoids_fail {e' : ε} (h : e' ≠ e) : Avoids e (fail e' : Reader α ε β) := by
  rintro s ⟨⟩
  exact h rfl

/-- One item fails with the end or an interruption alone. -/
theorem avoids_item {eof interrupted : ε} (heof : eof ≠ e) (hint : interrupted ≠ e) :
    Avoids e (item eof interrupted : Reader α ε α) := by
  intro s h
  match s with
  | [] => exact heof (Except.error.inj h)
  | none :: s => exact hint (Except.error.inj h)
  | some a :: s => cases h

/-- Readers that avoid an error compose. -/
theorem Avoids.bind {m : Reader α ε β} {f : β → Reader α ε γ} (hm : Avoids e m)
    (hf : ∀ b, Avoids e (f b)) : Avoids e (bind m f) := by
  intro s h
  rcases bind_cases m f s with ⟨b, s', -, hbind⟩ | ⟨e', s', herr, hbind⟩
  · rw [hbind] at h
    exact hf b s' h
  · rw [hbind] at h
    refine hm s ?_
    rw [herr, Except.error.inj h]

/-- Reading `n` items fails with its three errors alone. -/
theorem avoids_exactly {eof short interrupted : ε} (heof : eof ≠ e) (hshort : short ≠ e)
    (hint : interrupted ≠ e) (n : ℕ) :
    Avoids e (exactly eof short interrupted n : Reader α ε _) := by
  induction n generalizing eof with
  | zero => exact avoids_ret _
  | succ n ih => exact (avoids_item heof hint).bind fun a => (ih hshort).bind fun l => avoids_ret _

end avoids

end Reader
end Lib
end GoSocket
