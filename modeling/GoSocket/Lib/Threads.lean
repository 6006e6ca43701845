/-
# Threads over a shared memory

A pool has one shared memory and a family of threads, each with a local state of
its own type.  A thread takes a step by reading and writing the memory at once and
moving on to another local state (`Pool.put`); every interleaving of such steps is
a run of the pool.

Invariants of a pool are given by annotations: a property of the memory, and for every
thread an assertion about the memory and its local state (`Pool.Annotated`).  A step of
one thread keeps them if it establishes its own assertion and does not invalidate that of
another thread (`Pool.Annotated.put`).
-/

import Mathlib.Logic.Function.Basic

namespace GoSocket
namespace Lib

universe u v w

/-- A shared memory and the local states of the threads. -/
structure Pool (σ : Type u) {ι : Type v} (Λ : ι → Type w) where
  shared : σ
  thread : ∀ i, Λ i

variable {σ : Type u} {ι : Type v} {Λ : ι → Type w} [DecidableEq ι]

namespace Pool

/-- The thread `i` has taken a step, to the memory `s` and the local state `l`. -/
def put (p : Pool σ Λ) (i : ι) (s : σ) (l : Λ i) : Pool σ Λ where
  shared := s
  thread := Function.update p.thread i l

variable (p : Pool σ Λ) (i : ι) (s : σ) (l : Λ i)

@[simp] theorem put_shared : (p.put i s l).shared = s := rfl

@[simp] theorem put_thread_self : (p.put i s l).thread i = l := Function.update_self ..

/-- A step of one thread leaves the others where they are. -/
theorem put_thread_of_ne {j : ι} (h : j ≠ i) : (p.put i s l).thread j = p.thread j :=
  Function.update_of_ne h ..

/-- An assertion about the memory, and one about the memory and each thread. -/
structure Annotated (G : σ → Prop) (L : ∀ i, σ → Λ i → Prop) (p : Pool σ Λ) : Prop where
  shared : G p.shared
  thread : ∀ i, L i p.shared (p.thread i)

variable {p i s l} {G : σ → Prop} {L : ∀ i, σ → Λ i → Prop}

/-- **The rule of interference**: a step keeps the assertions if its thread
establishes its own and does not interfere with the others. -/
theorem Annotated.put (h : p.Annotated G L) (hG : G s) (hown : L i s l)
    (hothers : ∀ j, j ≠ i → L j p.shared (p.thread j) → L j s (p.thread j)) :
    (p.put i s l).Annotated G L where
  shared := hG
  thread j := by
    by_cases hj : j = i
    · subst hj
      rw [put_thread_self]
      exact hown
    · rw [put_thread_of_ne _ _ _ _ hj]
      exact hothers j hj (h.thread j)

end Pool
end Lib
end GoSocket
