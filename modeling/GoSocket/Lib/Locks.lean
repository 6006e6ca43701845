/-
# Goroutines and locks

A goroutine is at a point of its program, and `code` says what it does next: it
takes a lock, it gives one back, or it works on the shared memory, which is one
step.  What is not its own to decide (a random number, say) is an argument of
`code`.  A lock is taken when nobody has it; until then the goroutine waits.

`Discipline` is what a set of programs has to keep to: at each point it is known
which locks are held, latest first, and locks are taken in the order of their
ranks.  Then the locks are held by those who hold them in their programs
(`Owned.advance`), and **nobody waits in a circle**: as long as a goroutine is busy,
some goroutine can move (`Owned.exists_advance`).  If every move of a program costs
something, a goroutine moves only as often as it can pay for (`Steps.count_advances`),
so the two together say that everything that was begun comes to its end.
-/

import GoSocket.Lib.Steps
import GoSocket.Lib.Threads
import Mathlib.Data.List.Basic

namespace GoSocket
namespace Lib

/-- What a goroutine does next, and the point it comes to. -/
inductive Move (σ L P : Type) where
  | lock (ℓ : L) (point : P)
  | unlock (ℓ : L) (point : P)
  | work (s : σ) (point : P)

namespace Move

variable {σ L P : Type}

/-- The point the goroutine comes to. -/
def point : Move σ L P → P
  | .lock _ y | .unlock _ y | .work _ y => y

/-- The memory after the move. -/
def after (s : σ) : Move σ L P → σ
  | .lock .. | .unlock .. => s
  | .work s' _ => s'

end Move

/-- A memory and the goroutines that have its locks. -/
structure Locked (σ L ι : Type) where
  mem : σ
  owner : L → Option ι

/-- Which locks are held at each point of the programs. -/
structure Discipline {σ L P δ : Type} (code : δ → σ → P → Option (Move σ L P))
    (holds : P → List L) (rank : L → ℕ) : Prop where
  sorted : ∀ x, (holds x).Pairwise fun a b => rank b < rank a
  lock : ∀ {d s x ℓ y}, code d s x = some (.lock ℓ y) → holds y = ℓ :: holds x
  unlock : ∀ {d s x ℓ y}, code d s x = some (.unlock ℓ y) → holds x = ℓ :: holds y
  work : ∀ {d s x s' y}, code d s x = some (.work s' y) → holds y = holds x

namespace Pool

variable {σ L P δ ι : Type} [DecidableEq L] [DecidableEq ι]
  (code : δ → σ → P → Option (Move σ L P))

/-- The goroutine `t` makes its next move; `none` if it is done or has to wait. -/
def advance (p : Pool (Locked σ L ι) fun _ : ι => P) (d : δ) (t : ι) :
    Option (Pool (Locked σ L ι) fun _ : ι => P) :=
  match code d p.shared.mem (p.thread t) with
  | none => none
  | some (.lock ℓ y) =>
      if p.shared.owner ℓ = none then
        some (p.put t ⟨p.shared.mem, Function.update p.shared.owner ℓ (some t)⟩ y)
      else none
  | some (.unlock ℓ y) => some (p.put t ⟨p.shared.mem, Function.update p.shared.owner ℓ none⟩ y)
  | some (.work s y) => some (p.put t ⟨s, p.shared.owner⟩ y)

variable {code} {p q : Pool (Locked σ L ι) fun _ : ι => P} {d : δ} {t : ι}

/-- The cases of `advance`. -/
inductive Advanced (code : δ → σ → P → Option (Move σ L P))
    (p : Pool (Locked σ L ι) fun _ : ι => P) (d : δ) (t : ι) :
    (Pool (Locked σ L ι) fun _ : ι => P) → Prop where
  | lock {ℓ : L} {y : P} : code d p.shared.mem (p.thread t) = some (.lock ℓ y) →
      p.shared.owner ℓ = none →
      Advanced code p d t (p.put t ⟨p.shared.mem, Function.update p.shared.owner ℓ (some t)⟩ y)
  | unlock {ℓ : L} {y : P} : code d p.shared.mem (p.thread t) = some (.unlock ℓ y) →
      Advanced code p d t (p.put t ⟨p.shared.mem, Function.update p.shared.owner ℓ none⟩ y)
  | work {s : σ} {y : P} : code d p.shared.mem (p.thread t) = some (.work s y) →
      Advanced code p d t (p.put t ⟨s, p.shared.owner⟩ y)

/-- **Everything a move can be.** -/
theorem advanced (h : p.advance code d t = some q) : Advanced code p d t q := by
  unfold advance at h
  split at h
  next => cases h
  next ℓ y hcode =>
    obtain ⟨hfree, h⟩ := Option.ite_none_right_eq_some.1 h
    exact Option.some.inj h ▸ .lock hcode hfree
  next ℓ y hcode => exact Option.some.inj h ▸ .unlock hcode
  next s y hcode => exact Option.some.inj h ▸ .work hcode

/-- Where a move leads. -/
theorem exists_move (h : p.advance code d t = some q) :
    ∃ mv, code d p.shared.mem (p.thread t) = some mv ∧ q.thread t = mv.point ∧
      q.shared.mem = mv.after p.shared.mem := by
  cases advanced h with
  | lock hcode => exact ⟨_, hcode, put_thread_self .., rfl⟩
  | unlock hcode => exact ⟨_, hcode, put_thread_self .., rfl⟩
  | work hcode => exact ⟨_, hcode, put_thread_self .., rfl⟩

/-- The other goroutines stay where they are. -/
theorem thread_of_ne (h : p.advance code d t = some q) {u : ι} (hu : u ≠ t) :
    q.thread u = p.thread u := by
  cases advanced h <;> exact put_thread_of_ne _ _ _ _ hu

/-- The locks are with those who hold them in their programs. -/
def Owned (holds : P → List L) (p : Pool (Locked σ L ι) fun _ : ι => P) : Prop :=
  ∀ ℓ t, p.shared.owner ℓ = some t ↔ ℓ ∈ holds (p.thread t)

variable {holds : P → List L} {rank : L → ℕ}

omit [DecidableEq L] in
/-- A goroutine that comes to another point with the same locks. -/
theorem Owned.put (ho : p.Owned holds) {y : P} (hy : holds y = holds (p.thread t)) (s : σ) :
    (p.put t ⟨s, p.shared.owner⟩ y).Owned holds := by
  intro ℓ u
  by_cases hu : u = t
  · subst hu
    rw [put_thread_self, hy]
    exact ho ℓ u
  · rw [put_thread_of_ne _ _ _ _ hu]
    exact ho ℓ u

/-- **Every move keeps the locks with their holders.** -/
theorem Owned.advance (hd : Discipline code holds rank) (ho : p.Owned holds)
    (h : p.advance code d t = some q) : q.Owned holds := by
  cases advanced h with
  | work hcode => exact ho.put (hd.work hcode) _
  | @lock ℓ y hcode hfree =>
      have hy := hd.lock hcode
      intro k u
      rw [put_shared]
      by_cases hu : u = t
      · subst hu
        rw [put_thread_self, hy, List.mem_cons, ← ho k u]
        by_cases hk : k = ℓ <;> simp [hk]
      · rw [put_thread_of_ne _ _ _ _ hu, ← ho k u]
        by_cases hk : k = ℓ
        · subst hk
          simp [hfree, Ne.symm hu]
        · simp [hk]
  | @unlock ℓ y hcode =>
      have hx := hd.unlock hcode
      have hsorted := hd.sorted (p.thread t)
      rw [hx, List.pairwise_cons] at hsorted
      have hℓ : p.shared.owner ℓ = some t := (ho ℓ t).2 (hx ▸ List.mem_cons_self ..)
      intro k u
      rw [put_shared]
      by_cases hu : u = t
      · subst hu
        rw [put_thread_self]
        by_cases hk : k = ℓ
        · subst hk
          simp only [Function.update_self, reduceCtorEq, false_iff]
          exact fun hmem => Nat.lt_irrefl _ (hsorted.1 k hmem)
        · simp only [Function.update_of_ne hk, ho k u, hx, List.mem_cons, hk, false_or]
      · rw [put_thread_of_ne _ _ _ _ hu, ← ho k u]
        by_cases hk : k = ℓ
        · subst hk
          simp [hℓ, Ne.symm hu]
        · simp [hk]

section progress

variable {Busy : P → Prop} {N : ℕ} (hd : Discipline code holds rank) (ho : p.Owned holds)
  (hN : ∀ ℓ, rank ℓ ≤ N) (hready : ∀ s x, Busy x → ∃ d m, code d s x = some m)
  (hbusy : ∀ x, holds x ≠ [] → Busy x)

include hd ho hready hbusy

/-- A goroutine can move, or it waits for one that holds a higher lock than all of its own. -/
theorem Owned.advance_or_waits (ht : Busy (p.thread t)) :
    (∃ d q, p.advance code d t = some q) ∨
      ∃ ℓ u, p.shared.owner ℓ = some u ∧ Busy (p.thread u) ∧
        ∀ k ∈ holds (p.thread t), rank k < rank ℓ := by
  obtain ⟨d, m, hm⟩ := hready p.shared.mem _ ht
  cases m with
  | unlock ℓ y => exact Or.inl ⟨d, _, by rw [Pool.advance, hm]⟩
  | work s y => exact Or.inl ⟨d, _, by rw [Pool.advance, hm]⟩
  | lock ℓ y =>
      cases hown : p.shared.owner ℓ with
      | none => exact Or.inl ⟨d, _, by rw [Pool.advance, hm]; exact if_pos hown⟩
      | some u =>
          have hu : ℓ ∈ holds (p.thread u) := (ho ℓ u).1 hown
          have hsorted := hd.sorted y
          rw [hd.lock hm, List.pairwise_cons] at hsorted
          exact Or.inr ⟨ℓ, u, hown, hbusy _ (List.ne_nil_of_mem hu), hsorted.1⟩

include hN

/-- The chain of those who wait for each other climbs the ranks, so it ends. -/
theorem Owned.exists_advance_of_holds (n : ℕ) (ht : Busy (p.thread t))
    (hheld : ∃ k ∈ holds (p.thread t), N < rank k + n) : ∃ d u q, p.advance code d u = some q := by
  induction n generalizing t with
  | zero =>
      obtain ⟨k, -, hk⟩ := hheld
      exact absurd (hN k) (by omega)
  | succ n ih =>
      obtain ⟨k, hk, hrank⟩ := hheld
      rcases ho.advance_or_waits hd hready hbusy ht with ⟨d, q, hq⟩ | ⟨ℓ, u, hown, hu, hbelow⟩
      · exact ⟨d, t, q, hq⟩
      · have := hbelow k hk
        exact ih hu ⟨ℓ, (ho ℓ u).1 hown, by omega⟩

/-- **Nobody waits in a circle**: as long as a goroutine is busy, one can move. -/
theorem Owned.exists_advance (ht : Busy (p.thread t)) : ∃ d u q, p.advance code d u = some q := by
  rcases ho.advance_or_waits hd hready hbusy ht with ⟨d, q, hq⟩ | ⟨ℓ, u, hown, hu, -⟩
  · exact ⟨d, t, q, hq⟩
  · exact ho.exists_advance_of_holds hd hN hready hbusy (N + 1) hu
      ⟨ℓ, (ho ℓ u).1 hown, by omega⟩

end progress

end Pool

/-- **A goroutine moves only as often as it can pay for.**  `weight` is what a goroutine has
left at each point of its program, and every move costs some of it. -/
theorem Steps.count_advances {σ L P δ ι : Type} [DecidableEq L] [DecidableEq ι]
    {code : δ → σ → P → Option (Move σ L P)} {p q : Pool (Locked σ L ι) fun _ : ι => P}
    {I : (Pool (Locked σ L ι) fun _ : ι => P) → Prop} {weight : P → ℕ}
    (hI : ∀ p d t q, I p → p.advance code d t = some q → I q)
    (hpay : ∀ p d t q, I p → p.advance code d t = some q →
      weight (q.thread t) < weight (p.thread t))
    {as : List (δ × ι)} (h : Steps (fun p a q => p.advance code a.1 a.2 = some q) p as q)
    (hp : I p) (t : ι) :
    (as.map Prod.snd).count t + weight (q.thread t) ≤ weight (p.thread t) := by
  induction h with
  | nil p => simp
  | @cons p r q a as hstep _ ih =>
      have hrest := ih (hI _ _ _ _ hp hstep)
      rw [List.map_cons, List.count_cons]
      by_cases hat : a.2 = t
      · have hless := hpay _ _ _ _ hp hstep
        rw [hat] at hless
        simp only [hat, beq_self_eq_true, if_true]
        omega
      · rw [← Pool.thread_of_ne hstep (Ne.symm hat)]
        simpa [hat] using hrest

end Lib
end GoSocket
