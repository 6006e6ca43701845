/-
# Every call returns

What is known of the memory while a goroutine has the store lock depends on where it is
(`Pc.Good`): the store is in order outside of the two loops, and inside of them it is
linked, it is in order but for the session that has just been closed, and it is not longer
than the loop started with.  Whatever the others do meanwhile are edits and pokes, which
keep all that.

From it the loops are bounded: a goroutine makes at most `Pc.budget` moves in a call.
With the lock order nobody waits in a circle, so **every call returns**
(`calls_return`).
-/

import GoSocket.Session.Locking

namespace GoSocket

open Lib

namespace PopLoop

/-- How many sessions the loop can find in the parked list. -/
def cap (m : Mem) : PopLoop → ℕ
  | .evict _ => m.store.opt.maxParked + 1
  | .sweep _ => m.store.opt.maxParked

end PopLoop

namespace Mem

/-- Pending edits keep the store's invariant. -/
theorem StoreInv.pend {m : Mem} (h : m.StoreInv) (E : SessionRef → Edit) : (m.pend E).StoreInv :=
  ⟨h.linked.pend E, h.bounded⟩

/-- A poke keeps the store's invariant. -/
theorem StoreInv.poke {m : Mem} (h : m.StoreInv) (c : ClientRef) (x : Poke) :
    (m.poke c x).StoreInv :=
  ⟨h.linked.poke c x, h.bounded⟩

/-- An open session with a live client is attached. -/
theorem Linked.attached_of_live {m : Mem} (h : m.Linked) {p : SessionRef} {c : ClientRef}
    (hopen : (m.session p).state ≠ .closed) (hlive : (m.session p).live = some c) :
    (m.session p).state = .attached := by
  cases hs : (m.session p).state with
  | attached => rfl
  | closed => exact absurd hs hopen
  | parked => simp [((h.session p).parked hs).1] at hlive

/-- Evicting keeps the options. -/
theorem evictLoop_opt (m : Mem) (fuel : ℕ) :
    (m.evictLoop fuel).1.store.opt = m.store.opt := by
  induction fuel generalizing m with
  | zero => rfl
  | succ fuel ih =>
      rcases hp : m.store.parked with _ | ⟨⟨e, v⟩, rest⟩ <;> simp only [evictLoop, hp] <;> split_ifs
      · rfl
      · rfl
      · rw [ih, discard_opt]
      · rfl

/-- Leaving keeps the options. -/
theorem leave_opt (m : Mem) (p : SessionRef) (c : ClientRef) (resumable : Bool) (now : ℤ) :
    (m.leave p c resumable now).1.store.opt = m.store.opt := by
  unfold leave
  dsimp only
  split_ifs
  · rfl
  · rfl
  · simp [removeLocked_eq]
  · exact evictLoop_opt _ _

/-- The id that was drawn is not in use. -/
def Unused (m : Mem) (newID : Option String) : Prop := ∀ id ∈ newID, m.store.sessions id = none

/-- What a goroutine without the store lock may do to the memory. -/
inductive Beside (m : Mem) : Mem → Prop where
  | same : Beside m m
  | pend (E : SessionRef → Edit) : Beside m (m.pend E)
  | poke (c : ClientRef) (x : Poke) : Beside m (m.poke c x)

/-- An edit leaves the tables as they are. -/
theorem beside_edit (m : Mem) (u : SessionRef × Edit) : m.Beside (m.edit u) :=
  edit_eq_pend m u ▸ .pend _

/-- A poke of a live client leaves the tables as they are. -/
theorem beside_pokeLive (m : Mem) (p : SessionRef) (x : Poke) : m.Beside (m.pokeLive p x) := by
  unfold pokeLive
  split
  · exact .same
  · exact .poke _ _

end Mem

namespace Pc

/-- What is known of the memory when the goroutine with the store lock is here. -/
def Good (m : Mem) : Pc → Prop
  | .opening _ newID => m.StoreInv ∧ m.Unused newID
  | .openNamed a newID p | .judging a newID p => m.StoreInv ∧ m.Unused newID ∧ Names m a.req p
  | .refused _ newID _ _ _ | .making _ newID _ _ => m.StoreInv ∧ m.Unused newID
  | .parked _ => m.Linked ∧ m.store.parked.length ≤ m.store.opt.maxParked + 1
  | .popLoop k acc => m.Linked ∧ acc.length + m.store.parked.length ≤ k.cap m
  | .popFront k acc v | .popHeld k acc v =>
      m.Linked ∧ acc.length + m.store.parked.length ≤ k.cap m ∧ k.front m = some v
  | .popClosed k acc v | .popFreed k acc v =>
      (m.removeLocked v).Linked ∧
        acc.length + 1 + (m.removeLocked v).store.parked.length ≤ k.cap m
  | .popYoung _ _ _ | .bound .. | .done .. | .leaving _ | .leftWith _ => m.StoreInv
  | .idle | .deliver .. | .delivering .. | .queued .. | .delivered .. | .touch .. | .touching ..
  | .touched .. | .cast .. | .casting .. | .openCall _ | .leaveCall _ | .sweepCall _
  | .releasing _ | .reading .. | .member .. | .unregister _ | .unregistered _ => m.StoreInv

variable {m m' : Mem} {pc : Pc} {mv : Move Mem Lock Pc} {draw : Option String}

/-- **The others do not disturb the one with the store lock.** -/
theorem Good.beside (h : Good m pc) (hb : m.Beside m') : Good m' pc := by
  cases hb with
  | same => exact h
  | pend E =>
      cases pc with
      | opening | refused | making => exact ⟨h.1.pend E, h.2⟩
      | openNamed | judging =>
          exact ⟨h.1.pend E, h.2.1, h.2.2.valid, h.2.2.requested, h.2.2.stored⟩
      | parked | popLoop | popFront | popHeld => exact ⟨h.1.pend E, h.2⟩
      | popClosed | popFreed =>
          simp only [Good, Mem.removeLocked_pend] at h ⊢
          exact ⟨h.1.pend E, h.2⟩
      | _ => exact Mem.StoreInv.pend h E
  | poke c x =>
      cases pc with
      | opening | refused | making => exact ⟨h.1.poke c x, h.2⟩
      | openNamed | judging =>
          exact ⟨h.1.poke c x, h.2.1, h.2.2.valid, h.2.2.requested, h.2.2.stored⟩
      | parked | popLoop | popFront | popHeld => exact ⟨h.1.poke c x, h.2⟩
      | popClosed | popFreed =>
          simp only [Good, Mem.removeLocked_poke] at h ⊢
          exact ⟨h.1.poke c x, h.2⟩
      | _ => exact Mem.StoreInv.poke h c x

/-- The front of the list is what the loops pop. -/
theorem front_eq {k : PopLoop} {v : SessionRef} (h : k.front m = some v) :
    ∃ e rest, m.store.parked = (e, v) :: rest := by
  have hhead : m.store.parked.head?.map Prod.snd = some v := by
    cases k with
    | sweep now => exact h
    | evict a => exact (Option.ite_none_right_eq_some.1 h).2
  cases hp : m.store.parked with
  | nil => simp [hp] at hhead
  | cons x rest =>
      obtain rfl : x.2 = v := by simpa [hp] using hhead
      exact ⟨x.1, rest, rfl⟩

/-- A loop that ends leaves a store that is within its limit. -/
theorem storeInv_of_front_eq_none {k : PopLoop} {acc : List SessionRef}
    (h : Good m (.popLoop k acc)) (hf : k.front m = none) : m.StoreInv := by
  refine ⟨h.1, ?_⟩
  have hcap : acc.length + m.store.parked.length ≤ k.cap m := h.2
  cases k with
  | sweep now => exact (Nat.le_add_left _ _).trans hcap
  | evict a =>
      by_contra hlong
      rw [not_le] at hlong
      simp only [PopLoop.front, if_pos hlong, Option.map_eq_none_iff, List.head?_eq_none_iff] at hf
      rw [hf] at hlong
      exact absurd hlong (Nat.not_lt_zero _)

/-- Once the front session is closed, the loop is where it removes it. -/
theorem Good.loopFront {k : PopLoop} {acc : List SessionRef} {v : SessionRef}
    (h : Good m (.popHeld k acc v)) : Good (m.close v) (.popClosed k acc v) := by
  obtain ⟨hl, hcap, hf⟩ := h
  obtain ⟨e, rest, hp⟩ := front_eq hf
  have hrest := hl.discard_front hp
  rw [hp, List.length_cons] at hcap
  refine ⟨hl.discard (hl.front_open hp), ?_⟩
  rw [Mem.removeLocked_close, hrest]
  have hsame : k.cap (m.close v) = k.cap m := by cases k <;> rfl
  omega

/-- A sweep that stops has found a list that was short enough. -/
theorem storeInv_of_takes_eq_false {k : PopLoop} {acc : List SessionRef} {v : SessionRef}
    (h : Good m (.popHeld k acc v)) (ht : k.takes m v = false) : m.StoreInv := by
  obtain ⟨hl, hcap, -⟩ := h
  cases k with
  | evict a => cases ht
  | sweep now => exact ⟨hl, (Nat.le_add_left _ _).trans hcap⟩

/-- A goroutine that does not have the store lock leaves the store alone. -/
theorem Moves.beside (h : Moves draw m pc mv) (hpc : Lock.store ∉ pc.holds) :
    m.Beside (mv.after m) := by
  cases h with
  | look => exact m.beside_pokeLive _ _
  | commit | touching => exact m.beside_edit _
  | deliver | delivered | touch | touched | cast | castNext | castDone | openCall | leaveCall
  | sweepCall | released | release | read | noMember | member | unregister | unregistered =>
      exact .same
  | _ => simp [holds] at hpc

/-- Taking the store lock. -/
theorem Moves.enters (h : Moves draw m pc mv) (hpc : Lock.store ∉ pc.holds)
    (hnext : Lock.store ∈ mv.point.holds) (hinv : m.StoreInv) : mv.point.Good (mv.after m) := by
  cases h with
  | openCall hid => exact ⟨hinv, hid⟩
  | leaveCall => exact hinv
  | sweepCall => exact ⟨hinv.linked, by simpa [PopLoop.cap, Move.after] using hinv.bounded⟩
  | delivered => exact absurd hnext (store_not_mem_holds_point _)
  | deliver | look | commit | castNext | touch | touching | touched | cast | castDone | released
  | release | read | noMember | member | unregister | unregistered =>
      simp [Move.point, holds] at hnext
  | _ => simp [holds] at hpc

/-- **What is done under the store lock keeps what is known.** -/
theorem Moves.inside (h : Moves draw m pc mv) (hpc : Lock.store ∈ pc.holds)
    (hnext : Lock.store ∈ mv.point.holds) (hgood : pc.Good m) : mv.point.Good (mv.after m) := by
  cases h with
  | unnamed | judge | refused | leaving | popFront | popClosed | popYoung | bound => exact hgood
  | named hn => exact ⟨hgood.1, hgood.2, hn⟩
  | @resume a newID p hv =>
      obtain ⟨hinv, -, -⟩ := hgood
      refine ⟨hinv.linked.attachLocked (Session.verdict_eq_none.1 hv).1 _ _, ?_⟩
      rw [Move.after, Mem.attachLocked_parked, Mem.attachLocked_opt]
      exact (Mem.unpark_sublist _ _).length_le.trans hinv.bounded
  | @kill a newID p reason hv =>
      obtain ⟨hinv, hid, hn⟩ := hgood
      have hr : Mem.Refused m a.req a.now (m.discard p) (some reason) (some p) :=
        .killed hn.valid hn.requested hn.stored hv
      exact ⟨hinv.refused hr, fun id hmem => hr.sessions_eq_none (hid id hmem)⟩
  | refuse => exact ⟨hgood.1, hgood.2.1⟩
  | @make a newID reason victim =>
      obtain ⟨hinv, hid⟩ := hgood
      cases newID with
      | none => exact hinv
      | some id => exact ⟨hinv.linked.fresh _ _ (hid id rfl) _, hinv.bounded⟩
  | @leave a r res hl hres =>
      have hleft := Mem.StoreInv.left hgood a.p a.c a.resumable a.now
      rw [hl] at hleft
      exact hleft
  | @park a hopen hlive _ =>
      have hinv : m.StoreInv := hgood
      refine ⟨hinv.linked.park (hinv.linked.attached_of_live hopen hlive) _ _, ?_⟩
      rw [Move.after, Mem.park_parked, Mem.park_opt, List.length_append, List.length_singleton]
      exact Nat.succ_le_succ hinv.bounded
  | parked => exact ⟨hgood.1, by simpa [PopLoop.cap, Move.after] using hgood.2⟩
  | loopDone hf => exact storeInv_of_front_eq_none hgood hf
  | loopFront hf => exact ⟨hgood.1, hgood.2, hf⟩
  | popClose => exact hgood.loopFront
  | popStop ht => exact storeInv_of_takes_eq_false hgood ht
  | @popRemove k acc v =>
      refine ⟨hgood.1, ?_⟩
      have hcap := hgood.2
      have hsame : k.cap (m.removeLocked v) = k.cap m := by
        cases k <;> simp [PopLoop.cap, Mem.removeLocked_eq]
      rw [Move.after, hsame, List.length_append, List.length_singleton]
      exact hcap
  | _ => first | (simp [holds] at hpc; done) | simp [Move.point, holds] at hnext

/-- The store lock is given back with a store that is in order. -/
theorem Moves.leaves (h : Moves draw m pc mv) (hpc : Lock.store ∈ pc.holds)
    (hnext : Lock.store ∉ mv.point.holds) (hgood : pc.Good m) : (mv.after m).StoreInv := by
  cases h with
  | done => exact hgood
  | _ => first | (simp [holds] at hpc; done) | simp [Move.point, holds] at hnext

end Pc

namespace Calls

/-- Where the goroutine with the store lock is. -/
def holder (f : Calls) : Pc :=
  match f.pool.shared.owner .store with
  | none => .idle
  | some t => f.pc t

/-- What is known of every state. -/
structure Inv (f : Calls) : Prop where
  owned : f.pool.Owned Pc.holds
  good : f.holder.Good f.mem

/-- No call is running in the empty store. -/
theorem inv_init (opt : SessionOptions) (digest : String → String) (sendBuffer : ClientRef → ℤ) :
    (init opt digest sendBuffer).Inv where
  owned ℓ t := by simp [init, Pc.holds]
  good := Mem.storeInv_newSessionStore opt digest sendBuffer

section holder

variable {f g : Calls} (hf : f.pool.Owned Pc.holds) {t : Thread}

include hf

/-- The goroutine that has the store lock is the holder. -/
theorem holder_eq (ht : Lock.store ∈ (f.pc t).holds) : f.holder = f.pc t := by
  rw [holder, (hf .store t).2 ht]

variable (hg : g.pool.Owned Pc.holds) (hothers : ∀ u ≠ t, g.pc u = f.pc u)

include hg hothers

/-- A move of a goroutine without the store lock is no move of the one with it. -/
theorem holder_outside (hft : Lock.store ∉ (f.pc t).holds) (hgt : Lock.store ∉ (g.pc t).holds) :
    g.holder = f.holder := by
  have hsame : g.pool.shared.owner .store = f.pool.shared.owner .store := by
    refine Option.ext fun u => ?_
    rw [hg, hf]
    by_cases hu : u = t
    · subst hu
      exact ⟨fun h => absurd h hgt, fun h => absurd h hft⟩
    · exact iff_of_eq (congrArg (Lock.store ∈ Pc.holds ·) (hothers u hu))
  unfold holder
  rw [hsame]
  cases ho : f.pool.shared.owner .store with
  | none => rfl
  | some u => exact hothers u fun hu => hft ((hf .store t).1 (hu ▸ ho))

/-- After the store lock was given back, nobody has it. -/
theorem holder_leaves (hft : Lock.store ∈ (f.pc t).holds) (hgt : Lock.store ∉ (g.pc t).holds) :
    g.holder = .idle := by
  unfold holder
  cases ho : g.pool.shared.owner .store with
  | none => rfl
  | some u =>
      have hu : u ≠ t := fun hu => hgt ((hg .store t).1 (hu ▸ ho))
      have hmem : Lock.store ∈ (f.pc u).holds := hothers u hu ▸ (hg .store u).1 ho
      have heq := ((hf .store t).2 hft).symm.trans ((hf .store u).2 hmem)
      exact absurd (Option.some.inj heq).symm hu

end holder

variable {f g : Calls} {t : Thread} {draw : Option String}

/-- **Every move keeps what is known.** -/
theorem Inv.advance (h : f.Inv) (hq : f.pool.advance Pc.code draw t = some g.pool) : g.Inv := by
  have hg := h.owned.advance Pc.discipline hq
  have hothers : ∀ u ≠ t, g.pc u = f.pc u := fun u hu => Pool.thread_of_ne hq hu
  obtain ⟨mv, hcode, hpoint, hafter⟩ := Pool.exists_move hq
  have hm := Pc.moves hcode
  have hgood := h.good
  refine ⟨hg, ?_⟩
  rw [show g.mem = mv.after f.mem from hafter]
  have hpc : g.pc t = mv.point := hpoint
  by_cases hft : Lock.store ∈ (f.pc t).holds <;> by_cases hgt : Lock.store ∈ (g.pc t).holds
  · rw [holder_eq h.owned hft] at hgood
    rw [holder_eq hg hgt, hpc]
    exact hm.inside hft (hpc ▸ hgt) hgood
  · rw [holder_eq h.owned hft] at hgood
    rw [holder_leaves h.owned hg hothers hft hgt]
    exact hm.leaves hft (hpc ▸ hgt) hgood
  · rw [holder_leaves hg h.owned (fun u hu => (hothers u hu).symm) hgt hft] at hgood
    rw [holder_eq hg hgt, hpc]
    exact hm.enters hft (hpc ▸ hgt) hgood
  · rw [holder_outside h.owned hg hothers hft hgt]
    exact hgood.beside (hm.beside hft)

/-- A call starts without a lock. -/
theorem holds_of_starts {pc : Pc} (h : f.Starts pc) : pc.holds = [] := by
  cases pc with
  | deliver p data pol k => cases k <;> first | rfl | exact absurd h id
  | _ => first | rfl | exact absurd h id

/-- What a goroutine does outside of its calls leaves the locks alone. -/
theorem Inv.put (h : f.Inv) (hidle : f.pc t = .idle) {pc : Pc} (hpc : pc.holds = []) {s : Mem}
    (hb : f.mem.Beside s) (hg : g.pool = f.pool.put t ⟨s, f.pool.shared.owner⟩ pc) : g.Inv := by
  have howned : g.pool.Owned Pc.holds := by
    rw [hg]
    exact h.owned.put (by rw [hpc]; exact congrArg Pc.holds hidle.symm) s
  have hself : g.pc t = pc := by
    rw [Calls.pc, hg]
    exact Pool.put_thread_self ..
  have hothers : ∀ u ≠ t, g.pc u = f.pc u := by
    intro u hu
    rw [Calls.pc, hg]
    exact Pool.put_thread_of_ne _ _ _ _ hu
  refine ⟨howned, ?_⟩
  rw [holder_outside h.owned howned hothers (by rw [hidle]; simp [Pc.holds])
    (by rw [hself, hpc]; simp), show g.mem = s by rw [Calls.mem, hg]; rfl]
  exact h.good.beside hb

/-- Every step keeps the locks with the calls that hold them, and what is known at the store
lock. -/
theorem Inv.step {a : CallStep} (h : f.Inv) (hstep : f.Step a g) : g.Inv := by
  cases hstep.took with
  | start hidle hs => exact h.put hidle (holds_of_starts hs) .same rfl
  | advance hq => exact h.advance hq
  | poke hop hidle hx => exact h.put hidle rfl (.poke _ _) rfl

/-- **The invariant of every run** of calls from the empty store. -/
theorem Inv.of_reachable {opt : SessionOptions} {digest : String → String}
    {sendBuffer : ClientRef → ℤ} (h : Reachable Step (init opt digest sendBuffer) f) : f.Inv :=
  h.invariant (inv_init opt digest sendBuffer) fun _ _ _ hf hstep => hf.step hstep

end Calls

/-- How many moves are left of a broadcast after a delivery. -/
def After.budget : After → ℕ
  | .ret => 0
  | .cast rest _ _ => 5 * rest.length + 1

/-- The moves that are left of a loop that has popped `acc` of at most `n` sessions: five for
each session it pops, and five for each `Release`. -/
def loopBudget (n : ℕ) (acc : List SessionRef) : ℕ := 5 * acc.length + 10 * (n - acc.length) + 6

/-- How many moves a goroutine can still make in its call; the loops pop at most `n` sessions. -/
def Pc.budget (n : ℕ) : Pc → ℕ
  | .idle => 0
  | .deliver _ _ _ k => k.budget + 4
  | .delivering _ _ _ k => k.budget + 3
  | .queued _ _ _ _ _ k => k.budget + 2
  | .delivered _ _ _ _ k => k.budget + 1
  | .touch .. => 3
  | .touching .. => 2
  | .touched .. => 1
  | .cast targets _ _ => 5 * targets.length + 2
  | .casting rest _ _ => 5 * rest.length + 1
  | .openCall _ => 13
  | .opening .. => 12
  | .openNamed .. => 11
  | .judging .. => 10
  | .refused _ _ _ _ victim => 5 * victim.toList.length + 4
  | .making _ _ _ victim => 5 * victim.toList.length + 3
  | .leaveCall _ => loopBudget n [] + 4
  | .leaving _ => loopBudget n [] + 3
  | .leftWith _ => loopBudget n [] + 2
  | .parked _ => loopBudget n [] + 1
  | .sweepCall _ => loopBudget n [] + 1
  | .popLoop _ acc => loopBudget n acc
  | .popFront _ acc _ => loopBudget n acc - 1
  | .popHeld _ acc _ => loopBudget n acc - 2
  | .popClosed _ acc _ | .popYoung _ acc _ => loopBudget n acc - 3
  | .popFreed _ acc _ => loopBudget n acc - 4
  | .bound _ _ reply => 5 * reply.due.length + 3
  | .done _ reply => 5 * reply.due.length + 2
  | .releasing due => 5 * due.length + 1
  | .reading _ due => 5 * due.length + 5
  | .member _ _ due => 5 * due.length + 4
  | .unregister due => 5 * due.length + 3
  | .unregistered due => 5 * due.length + 2

namespace Pc

variable {m : Mem} {pc : Pc} {mv : Move Mem Lock Pc} {draw : Option String}

/-- A loop's reply releases one session for each one popped. -/
theorem length_due_reply (k : PopLoop) (acc : List SessionRef) :
    (k.reply acc).due.length = acc.length := by
  cases k <;> simp [PopLoop.reply, Reply.due]

/-- An `openFresh` releases its victim and no other. -/
theorem length_due_openFresh (m : Mem) (c : ClientRef) (owner : String) (newID : Option String)
    (reason : Option Reason) (victim : Option SessionRef) :
    (m.openFresh c owner newID reason victim).2.2.length = victim.toList.length := by
  cases newID <;> simp [Mem.openFresh]

/-- The options of the store do not change. -/
theorem Moves.opt (h : Moves draw m pc mv) : (mv.after m).store.opt = m.store.opt := by
  cases h with
  | look =>
      simp only [Move.after, Mem.pokeLive]
      split <;> rfl
  | resume => exact Mem.attachLocked_opt ..
  | kill => exact Mem.discard_opt ..
  | @make a newID reason victim => cases newID <;> rfl
  | popRemove => simp [Move.after, Mem.removeLocked_eq]
  | @leave a r res hl =>
      have hopt := Mem.leave_opt m a.p a.c a.resumable a.now
      rw [hl] at hopt
      exact hopt
  | _ => rfl

/-- **Every move is paid for.**  The loops need what is known of the store: a session that
was taken off the list is one less to find there. -/
theorem Moves.pays (h : Moves draw m pc mv) (hgood : Lock.store ∈ pc.holds → pc.Good m) :
    mv.point.budget (m.store.opt.maxParked + 1) < pc.budget (m.store.opt.maxParked + 1) := by
  cases h with
  | @popRemove k acc v =>
      have hroom : acc.length + 1 + _ ≤ k.cap m := (hgood (by simp [holds])).2
      have hcap : k.cap m ≤ m.store.opt.maxParked + 1 := by cases k <;> simp [PopLoop.cap]
      simp only [Move.point, budget, loopBudget, List.length_append, List.length_singleton]
      omega
  | @delivered p data pol ok k => cases k <;> simp [Move.point, After.point, budget, After.budget]
  | loopDone | popYoung =>
      simp only [Move.point, budget, loopBudget, length_due_reply]
      omega
  | make =>
      simp only [Move.point, budget, Reply.due, length_due_openFresh]
      omega
  | kill | refuse | resume | leave | unnamed => simp [Move.point, budget, Reply.due, loopBudget]
  | loopFront | popFront | popClose | popStop | popClosed =>
      simp only [Move.point, budget, loopBudget]
      omega
  | release | member | noMember | castNext =>
      simp only [Move.point, budget, After.budget, List.length_cons]
      omega
  | _ => simp [Move.point, budget]

end Pc

namespace Calls

variable {f g : Calls} {t : Thread} {draw : Option String}

/-- A run of moves is a run of the goroutines. -/
theorem steps_pool {ts : List (Thread × Option String)}
    (h : Steps Step f (ts.map fun x => .advance x.1 x.2) g) :
    Steps (fun p a q => p.advance Pc.code a.1 a.2 = some q) f.pool
      (ts.map fun x => (x.2, x.1)) g.pool := by
  induction ts generalizing f with
  | nil =>
      cases h
      exact .nil _
  | cons x ts ih =>
      cases h with
      | cons hstep hrest =>
          cases hstep.took with
          | advance hq => exact .cons hq (ih hrest)

/-- **No deadlock**: as long as a goroutine is in a call, one can go on with its call. -/
theorem Inv.exists_advance (h : f.Inv) (ht : f.pc t ≠ .idle) :
    ∃ u draw g, f.Step (.advance u draw) g := by
  obtain ⟨draw, u, q, hq⟩ := h.owned.exists_advance (N := 2) Pc.discipline
    (fun ℓ => by cases ℓ <;> simp [Lock.rank]) (fun s x (hx : x ≠ Pc.idle) => Pc.ready s hx)
    (fun x hx hidle => hx (by rw [hidle]; rfl)) ht
  exact ⟨u, draw, _, by rw [Step, Calls.step, hq]; rfl⟩

/-- **A call makes a bounded number of moves.** -/
theorem Inv.count_le (h : f.Inv) {ts : List (Thread × Option String)}
    (hrun : Steps Step f (ts.map fun x => .advance x.1 x.2) g) (t : Thread) :
    (ts.map Prod.fst).count t ≤ (f.pc t).budget (f.mem.store.opt.maxParked + 1) := by
  have hcount : ((ts.map fun x => (x.2, x.1)).map Prod.snd).count t +
      Pc.budget (f.mem.store.opt.maxParked + 1) (g.pool.thread t) ≤
        Pc.budget (f.mem.store.opt.maxParked + 1) (f.pool.thread t) := by
    refine (steps_pool hrun).count_advances
      (I := fun p => (Calls.mk p f.hist f.opened).Inv ∧
        p.shared.mem.store.opt = f.mem.store.opt) ?_ ?_ ⟨h, rfl⟩ t
    · intro p d u q hp hq
      obtain ⟨mv, hcode, -, hafter⟩ := Pool.exists_move hq
      exact ⟨hp.1.advance hq, by rw [hafter, (Pc.moves hcode).opt]; exact hp.2⟩
    · intro p d u q hp hq
      obtain ⟨mv, hcode, hpoint, -⟩ := Pool.exists_move hq
      have hpays := (Pc.moves hcode).pays fun hstore => by
        have hgood := hp.1.good
        rwa [holder_eq hp.1.owned hstore] at hgood
      rw [hp.2] at hpays
      rw [hpoint]
      exact hpays
  rw [List.map_map] at hcount
  exact (Nat.le_add_right _ _).trans hcount

/-- **Every call returns.**  However the calls under way are scheduled, and if no other step is
taken meanwhile, each goroutine makes at most `Pc.budget` moves in its call, and as long as one is
in a call, some goroutine can go on: nobody waits for a lock, or for the hub, in a circle. -/
theorem calls_return {opt : SessionOptions} {digest : String → String}
    {sendBuffer : ClientRef → ℤ} {f g : Calls}
    (h : Reachable Step (init opt digest sendBuffer) f) {ts : List (Thread × Option String)}
    (hrun : Steps Step f (ts.map fun x => .advance x.1 x.2) g) :
    (∀ t, (ts.map Prod.fst).count t ≤ (f.pc t).budget (f.mem.store.opt.maxParked + 1)) ∧
      ((∀ t, g.pc t = .idle) ∨ ∃ t draw g', g.Step (.advance t draw) g') := by
  have hf := Inv.of_reachable h
  refine ⟨hf.count_le hrun, ?_⟩
  have hg : g.Inv := hrun.invariant (fun _ _ _ hs hstep => hs.step hstep) hf
  by_cases hidle : ∀ t, g.pc t = .idle
  · exact Or.inl hidle
  · obtain ⟨t, ht⟩ := not_forall.1 hidle
    exact Or.inr (hg.exists_advance ht)

/-- A connection has its session; then its read pump leaves, with the store lock, while the
hub delivers to the session, with the session's lock. -/
def leaveMeetsDeliver : List CallStep :=
  [.start 0 (.openCall ⟨0, ⟨false, false, "", 0, ""⟩, 0⟩), .advance 0 (some "a"),
    .advance 0 none, .advance 0 none, .advance 0 none, .advance 0 none,
    .start 1 (.leaveCall ⟨0, 0, true, 5⟩), .start 2 (.cast [0] (ascii "x") .disconnect),
    .advance 1 none, .advance 2 none, .advance 2 none, .advance 2 none]

/-- `Leave` waits for the delivery, which goes on. -/
theorem calls_return_leaveMeetsDeliver :
    ∃ f g : Calls, Reachable Step (init ⟨0, 0, 0, 0, 0⟩ id fun _ => 0) f ∧
      f.pc 1 = .leaving ⟨0, 0, true, 5⟩ ∧ (f.step (.advance 1 none)).isNone ∧
      Steps Step f [.advance 2 none] g ∧
      ((∀ t, ([2] : List Thread).count t ≤ (f.pc t).budget (f.mem.store.opt.maxParked + 1)) ∧
        ((∀ t, g.pc t = .idle) ∨ ∃ t draw g', g.Step (.advance t draw) g')) := by
  have hrun : ((exec step (init ⟨0, 0, 0, 0, 0⟩ id fun _ => 0) leaveMeetsDeliver).map fun f =>
      decide (f.pc 1 = .leaving ⟨0, 0, true, 5⟩) && (f.step (.advance 1 none)).isNone &&
        (f.step (.advance 2 none)).isSome) = some true := by decide
  obtain ⟨f, hf, hp⟩ := Reachable.of_exec step leaveMeetsDeliver hrun
  simp only [Bool.and_eq_true, decide_eq_true_eq] at hp
  obtain ⟨g, hg⟩ := Option.isSome_iff_exists.1 hp.2
  have hsteps : Steps Step f [.advance 2 none] g := .cons hg (.nil g)
  exact ⟨f, g, hf, hp.1.1, hp.1.2, hsteps, @calls_return _ _ _ f g hf [(2, none)] hsteps⟩

end Calls
end GoSocket
