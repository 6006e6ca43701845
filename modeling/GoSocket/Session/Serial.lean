/-
# The calls into the session layer are serializable

The runs of the session layer are lists of calls, each one step (`Mem.step`).  Here that
is justified: **whatever the goroutines do to each other between their locks, when no
call is under way the memory is one that the same calls, with the same results, reach
one after the other** (`serializable`).

Each call has its place where it first touches the memory, so the serial run is compared
with the memory in which the rest of it is done (`Calls.virtual`).  The one thing that does
not fit is a delivery to a parked session that an eviction or a sweep has not come to yet:
in the serial order it comes before that call, though the call has begun, and other
goroutines may have seen the session that left parked.  Such a delivery is an edit of a
session the call will only close and take off the store, so it is put before the calls
since then, which do not mind it (`Call.edit`).

The order in which a goroutine made its calls is kept where they take a common lock, and
only there: a hub that delivers first to the session that left and then to its victim is
served in the other order.
-/

import GoSocket.Lib.Reorder
import GoSocket.Session.Places

namespace GoSocket

open Lib

namespace Calls

/-- What a goroutine has returned or is going to return, once it has its place. -/
def account (f : Calls) (t : Thread) : List (Op × Reply) := f.hist t ++ (f.promised t).toList

/-- The calls of one goroutine in a serial run. -/
def served (t : Thread) (calls : List (Thread × Op × Reply)) : List (Op × Reply) :=
  (calls.filter fun y => y.1 = t).map Prod.snd

/-- The calls of a serial run are those the goroutines have made, with the same results. -/
def Replies (f : Calls) (calls : List (Thread × Op × Reply)) : Prop :=
  ∀ t, SameOrder (fun x => x.1.locks) (served t calls) (f.account t)

/-- The serial run: the calls up to the last one of the store, and the calls since then, from
the memory `m`, which do not mind an edit of the sessions that are going to be discarded. -/
structure Serial (m₀ : Mem) (f : Calls) (m : Mem) (pre post : List (Thread × Op × Reply)) :
    Prop where
  before : Steps Mem.Call m₀ pre m
  after : Steps Mem.Call m post f.virtual
  opt : m.store.opt = f.mem.store.opt
  base : ∀ v ∈ f.victims, v < m.sessionCount ∧ m.session v = f.settled.session v
  apart : ∀ v ∈ f.victims, ∀ y ∈ post, y.2.1.Apart v
  replies : f.Replies (pre ++ post)

variable {f g : Calls} {t : Thread} {y : Op × Reply} {m₀ m : Mem}
  {pre post : List (Thread × Op × Reply)} {p : SessionRef} {e : Edit}

/-- The calls of one goroutine in two serial runs, one after the other. -/
@[simp] theorem served_append (t : Thread) (xs ys : List (Thread × Op × Reply)) :
    served t (xs ++ ys) = served t xs ++ served t ys := by
  simp [served]

/-- A call can be placed before calls that share no lock with it: the order that counts stays. -/
theorem Replies.insert (h : f.Replies (pre ++ post))
    (hpost : ∀ z ∈ post, ∀ ℓ ∈ y.1.locks, ℓ ∉ z.2.1.locks) (ht : g.account t = f.account t ++ [y])
    (hothers : ∀ u ≠ t, g.account u = f.account u) : g.Replies (pre ++ [(t, y)] ++ post) := by
  intro u
  have hu := h u
  rw [served_append] at hu
  rw [served_append, served_append]
  by_cases hut : u = t
  · subst hut
    have hself : served u [(u, y)] = [y] := by simp [served]
    rw [ht, hself]
    refine hu.insert fun z hz => ?_
    obtain ⟨z', hz', rfl⟩ := List.mem_map.1 hz
    exact hpost z' (List.mem_of_mem_filter hz')
  · have hnone : served u [(t, y)] = [] := by simp [served, Ne.symm hut]
    rw [hothers u hut, hnone, List.append_nil]
    exact hu

/-- A call can be placed last. -/
theorem Replies.snoc {calls : List (Thread × Op × Reply)} (h : f.Replies calls)
    (ht : g.account t = f.account t ++ [y]) (hothers : ∀ u ≠ t, g.account u = f.account u) :
    g.Replies (calls ++ [(t, y)]) := by
  rw [← List.append_nil calls] at h
  simpa using h.insert (y := y) (by simp) ht hothers

/-- A move that places no call. -/
theorem Serial.quiet (h : Serial m₀ f m pre post) (hvirtual : g.virtual = f.virtual)
    (hvictims : ∀ v ∈ g.victims, v ∈ f.victims ∧ g.settled.session v = f.settled.session v)
    (hopt : g.mem.store.opt = f.mem.store.opt) (haccount : ∀ u, g.account u = f.account u) :
    Serial m₀ g m pre post where
  before := h.before
  after := hvirtual ▸ h.after
  opt := hopt ▸ h.opt
  base v hv := by
    obtain ⟨hv', hs⟩ := hvictims v hv
    rw [hs]
    exact h.base v hv'
  apart v hv := h.apart v (hvictims v hv).1
  replies u := haccount u ▸ h.replies u

/-- A call that does not mind the victims goes to the end. -/
theorem Serial.late (h : Serial m₀ f m pre post) (hcall : f.virtual.Call (t, y) g.virtual)
    (hvictims : g.victims = f.victims)
    (hsettled : ∀ v ∈ f.victims, g.settled.session v = f.settled.session v)
    (hopt : g.mem.store.opt = f.mem.store.opt) (hapart : ∀ v ∈ f.victims, y.1.Apart v)
    (ht : g.account t = f.account t ++ [y]) (hothers : ∀ u ≠ t, g.account u = f.account u) :
    Serial m₀ g m pre (post ++ [(t, y)]) where
  before := h.before
  after := h.after.snoc hcall
  opt := hopt ▸ h.opt
  base v hv := by
    rw [hvictims] at hv
    rw [hsettled v hv]
    exact h.base v hv
  apart v hv z hz := by
    rw [hvictims] at hv
    rcases List.mem_append.1 hz with hz | hz
    · exact h.apart v hv z hz
    · exact List.mem_singleton.1 hz ▸ hapart v hv
  replies := by
    rw [← List.append_assoc]
    exact h.replies.snoc ht hothers

/-- A call that edits a victim goes before the calls since the last one of the store. -/
theorem Serial.early (h : Serial m₀ f m pre post) (hp : p ∈ f.victims)
    (hcall : m.Call (t, y) (m.edit (p, e))) (hlocks : y.1.locks = [.session p])
    (hvirtual : g.virtual = f.virtual.edit (p, e)) (hvictims : g.victims = f.victims)
    (hsettled : g.settled = f.settled.edit (p, e)) (hopt : g.mem.store.opt = f.mem.store.opt)
    (ht : g.account t = f.account t ++ [y]) (hothers : ∀ u ≠ t, g.account u = f.account u) :
    Serial m₀ g (m.edit (p, e)) (pre ++ [(t, y)]) post where
  before := h.before.snoc hcall
  after := by
    rw [hvirtual]
    exact h.after.map fun z hz s s' hs => hs.edit (h.apart p hp z hz)
  opt := hopt ▸ h.opt
  base v hv := by
    rw [hvictims] at hv
    obtain ⟨hlt, hs⟩ := h.base v hv
    refine ⟨hlt, ?_⟩
    rw [hsettled, Mem.edit_session, Mem.edit_session, hs]
  apart v hv := h.apart v (hvictims ▸ hv)
  replies := by
    refine h.replies.insert (fun z hz ℓ hℓ => ?_) ht hothers
    rw [hlocks, List.mem_singleton] at hℓ
    exact hℓ ▸ (h.apart p hp z hz).locks

/-- A call of the store gets its place when the one before it is done. -/
theorem Serial.commit (h : Serial m₀ f m pre post) (hvirtual : f.virtual = f.settled)
    (hcall : f.settled.Call (t, y) g.virtual)
    (hvictims : ∀ v ∈ g.victims, y.1.Apart v ∧ v < f.mem.sessionCount ∧
      g.settled.session v = f.settled.session v)
    (hopt : g.mem.store.opt = f.mem.store.opt)
    (ht : g.account t = f.account t ++ [y]) (hothers : ∀ u ≠ t, g.account u = f.account u) :
    Serial m₀ g f.settled (pre ++ post) [(t, y)] where
  before := hvirtual ▸ h.before.append h.after
  after := .cons hcall (.nil _)
  opt := hopt.symm
  base v hv := ⟨(hvictims v hv).2.1, (hvictims v hv).2.2.symm⟩
  apart v hv _ hz := List.mem_singleton.1 hz ▸ (hvictims v hv).1
  replies := h.replies.snoc ht hothers

/-- A session that is not a victim is the same once everything is done. -/
theorem Apt.alike_virtual (hf : f.Apt) (hp : p < f.mem.sessionCount) (hv : p ∉ f.victims) :
    f.virtual.Alike f.settled p := by
  have hgood : f.holder.Good f.settled := hf.inv.good.beside (.pend _)
  have hvirtual : (f.holder.rest f.settled).1 = f.virtual := by rw [hf.rest_settled]
  have hvictims : (f.holder.rest f.settled).2 = f.victims := by rw [hf.rest_settled]
  rw [← hvirtual]
  exact ⟨hgood.rest_session hp (by rwa [hvictims]), fun c _ => (hgood.rest_client c).1,
    hgood.rest_opt, lt_of_lt_of_le hp hgood.rest_sessionCount⟩

/-- A victim is the same in the memory before the calls since the last one of the store. -/
theorem Serial.alike_base (h : Serial m₀ f m pre post) (hf : f.Apt) (hv : p ∈ f.victims) :
    (f.settled.session p).live = none ∧ m.Alike f.settled p := by
  have hgood : f.holder.Good f.settled := hf.inv.good.beside (.pend _)
  have hvictims : (f.holder.rest f.settled).2 = f.victims := by rw [hf.rest_settled]
  have hlive := (hgood.state_of_mem_rest (hvictims ▸ hv)).2
  obtain ⟨hlt, hs⟩ := h.base p hv
  refine ⟨hlive, ⟨⟨_, hs⟩, fun c hc => ?_, h.opt, hlt⟩⟩
  rw [hlive] at hc
  cases hc

/-- **A call on one session gets its place**, as an edit `e` of it and a poke `x` of its
client. -/
theorem Serial.placed_on (h : Serial m₀ f m pre post) (hf : f.Apt) (hg : g.Apt)
    (hp : p < f.mem.sessionCount) (e : Edit) {x : Poke} (hx : x ≠ .write)
    (hholder : g.holder = f.holder)
    (hsettled : g.settled = (f.settled.edit (p, e)).pokeLive p x)
    (hcall : ∀ b : Mem, b.Alike f.settled p → b.Call (t, y) ((b.edit (p, e)).pokeLive p x))
    (hlocks : y.1.locks = [.session p]) (hapart : ∀ v, v ≠ p → y.1.Apart v)
    (hopt : g.mem.store.opt = f.mem.store.opt) (ht : g.account t = f.account t ++ [y])
    (hothers : ∀ u ≠ t, g.account u = f.account u) : ∃ m pre post, Serial m₀ g m pre post := by
  have hrest := hg.rest_settled
  have hedit : f.holder.rest (f.settled.edit (p, e)) = (f.virtual.edit (p, e), f.victims) := by
    have hthere : p < f.settled.sessionCount := hp
    rw [Pc.rest_edit _ hthere, hf.rest_settled]
  have hlives : ∀ b : Mem, ((b.edit (p, e)).session p).live = (b.session p).live :=
    fun b => (b.edit_links _ p).2.2.2.2
  rw [hholder, hsettled] at hrest
  by_cases hv : p ∈ f.victims
  · obtain ⟨hlive, hbase⟩ := h.alike_base hf hv
    have hcall' := hcall m hbase
    rw [Mem.pokeLive_of_live_eq_none ((hlives _).trans (hbase.live.trans hlive))] at hcall'
    rw [Mem.pokeLive_of_live_eq_none ((hlives _).trans hlive)] at hrest hsettled
    rw [hedit, Prod.mk.injEq] at hrest
    exact ⟨_, _, _, h.early hv hcall' hlocks hrest.1.symm hrest.2.symm hsettled hopt ht hothers⟩
  · have halike := hf.alike_virtual hp hv
    have hvirtual : f.holder.rest ((f.settled.edit (p, e)).pokeLive p x) =
        ((f.virtual.edit (p, e)).pokeLive p x, f.victims) := by
      unfold Mem.pokeLive
      rw [hlives, hlives, halike.live]
      cases (f.settled.session p).live with
      | none => exact hedit
      | some c => rw [Pc.rest_poke fun _ => hx, hedit]
    rw [hvirtual, Prod.mk.injEq] at hrest
    have hne : ∀ v ∈ f.victims, v ≠ p := fun v hmem heq => hv (heq ▸ hmem)
    refine ⟨_, _, _, h.late (t := t) (y := y) (hrest.1 ▸ hcall _ halike) hrest.2.symm
      (fun v hmem => ?_) hopt (fun v hmem => hapart v (hne v hmem)) ht hothers⟩
    rw [hsettled, Mem.pokeLive_session, Mem.edit_session, if_neg (hne v hmem)]

section moved

variable {draw : Option String} {mv : Move Mem Lock Pc} (hf : f.Apt) (hg : g.Apt)
  (hmv : f.Moved t draw mv g)

include hf

/-- What is known where a goroutine with the store lock is. -/
theorem Apt.good (ht : Lock.store ∈ (f.pc t).holds) : (f.pc t).Good f.mem := by
  have hgood := hf.inv.good
  rwa [holder_eq hf.inv.owned ht] at hgood

include hg hmv

/-- Only one goroutine has the store lock. -/
theorem store_not_mem_of_ne (ht : Lock.store ∈ (f.pc t).holds ∨ Lock.store ∈ (g.pc t).holds)
    {u : Thread} (hu : u ≠ t) : Lock.store ∉ (f.pc u).holds := by
  intro hmem
  rcases ht with ht | ht
  · have heq := ((hf.inv.owned .store t).2 ht).symm.trans ((hf.inv.owned .store u).2 hmem)
    exact hu (Option.some.inj heq).symm
  · have hmem' : Lock.store ∈ (g.pc u).holds := by rwa [hmv.others u hu]
    have heq := ((hg.inv.owned .store t).2 ht).symm.trans ((hg.inv.owned .store u).2 hmem')
    exact hu (Option.some.inj heq).symm

/-- A move leaves the accounts of the other goroutines alone. -/
theorem account_of_ne {u : Thread} (hu : u ≠ t) : g.account u = f.account u := by
  have hpromised : g.promised u = f.promised u := by
    rw [promised, promised, hmv.others u hu, hmv.mem]
    by_cases ht : Lock.store ∈ (f.pc t).holds ∨ Lock.store ∈ (g.pc t).holds
    · exact Pc.promise_congr (store_not_mem_of_ne hf hg hmv ht hu) _ _
    · exact hmv.moves.promise_beside (fun h => ht (Or.inl h)) (hf.named t) _
  rw [account, account, hpromised, hmv.hist, Function.update_of_ne hu]

omit hg in
/-- A move that gives its call no place leaves the goroutine's account alone. -/
theorem account_quiet
    (hq : (f.pc t).promise f.mem ≠ none ∨ mv.point.promise (mv.after f.mem) = none) :
    g.account t = f.account t := by
  have haccount := hmv.moves.account hf.good hq
  rw [account, account, promised, promised, hmv.hist, Function.update_self, hmv.point, hmv.mem,
    List.append_assoc, haccount]

omit hf hg in
/-- A move that gives its call a place adds it to the goroutine's account. -/
theorem account_placed (hnone : (f.pc t).promise f.mem = none)
    (hy : mv.point.promise (mv.after f.mem) = some y) : g.account t = f.account t ++ [y] := by
  have hanswers : (f.pc t).answers = none := by
    by_contra hne
    exact hne ((Pc.answers_eq_promise f.mem hne).trans hnone)
  rw [account, account, promised, promised, hmv.hist, Function.update_self, hmv.point, hmv.mem, hy,
    hnone, hanswers]
  simp

variable (ht : Lock.store ∈ (f.pc t).holds ∨ Lock.store ∈ (g.pc t).holds)

include ht

/-- The goroutine that moves is the one with the store lock, or nobody had it. -/
theorem holder_or_idle : f.holder = f.pc t ∨ f.holder = .idle ∧ Lock.store ∉ (f.pc t).holds := by
  by_cases hft : Lock.store ∈ (f.pc t).holds
  · exact Or.inl (holder_eq hf.inv.owned hft)
  · refine Or.inr ⟨?_, hft⟩
    exact holder_leaves hg.inv.owned hf.inv.owned (fun u hu => (hmv.others u hu).symm)
      (ht.resolve_left hft) hft

/-- The holder's call is at a point that fits the store. -/
theorem good_of_store : (f.pc t).Good f.mem := by
  have hgood := hf.inv.good
  rcases holder_or_idle hf hg hmv ht with hh | ⟨hh, hft⟩
  · rwa [hh] at hgood
  · rw [hh] at hgood
    exact Pc.good_of_not_mem hft hgood

/-- What is left of the holder's call is what is left of the moving goroutine's. -/
theorem rest_holder (m : Mem) : f.holder.rest m = (f.pc t).rest m := by
  rcases holder_or_idle hf hg hmv ht with hh | ⟨hh, hft⟩
  · rw [hh]
  · rw [hh, Pc.rest_of_not_mem hft]
    rfl

/-- After the move the holder's rest is that of the point it moved to. -/
theorem rest_holder_after (m : Mem) : g.holder.rest m = mv.point.rest m := by
  rw [← hmv.point]
  by_cases hgt : Lock.store ∈ (g.pc t).holds
  · rw [holder_eq hg.inv.owned hgt]
  · rw [holder_leaves hf.inv.owned hg.inv.owned hmv.others (ht.resolve_right hgt) hgt,
      Pc.rest_of_not_mem hgt]
    rfl

/-- A move under the store's lock leaves the pending edits alone. -/
theorem pending_of_store : g.pending = f.pending := by
  funext q
  refine pending_congr hf.inv.owned hg.inv.owned hmv.others ?_
  have hkeep := hmv.moves.pendingAt (hmv.point ▸ ht) q
  rw [hmv.point, hkeep.1, hkeep.2]

/-- A quiet move under the store lock. -/
theorem Serial.quiet_inside (h : Serial m₀ f m pre post)
    (hq : (f.pc t).promise f.mem ≠ none ∨ mv.point.promise (mv.after f.mem) = none) :
    Serial m₀ g m pre post := by
  obtain ⟨hrest, ⟨vs, hvs⟩, hsame⟩ :=
    hmv.moves.quiet (good_of_store hf hg hmv ht) (hmv.point ▸ ht) hq
  have hpending := pending_of_store hf hg hmv ht
  refine h.quiet ?_ (fun v hv => ?_) (by rw [hmv.mem, hmv.moves.opt]) fun u => ?_
  · rw [virtual, virtual, rest_holder_after hf hg hmv ht, rest_holder hf hg hmv ht, hmv.mem, hrest,
      hpending]
  · rw [victims, rest_holder_after hf hg hmv ht, hmv.mem] at hv
    refine ⟨?_, ?_⟩
    · rw [victims, rest_holder hf hg hmv ht, hvs]
      exact List.mem_append_right _ hv
    · rw [settled, settled, Mem.pend_session, Mem.pend_session, hpending, hmv.mem, hsame v hv]
  · by_cases hu : u = t
    · rw [hu]
      exact account_quiet hf hmv hq
    · exact account_of_ne hf hg hmv hu

/-- A move that gives a call of the store its place. -/
theorem Serial.placed_inside (h : Serial m₀ f m pre post) (hnone : (f.pc t).promise f.mem = none)
    (hy : mv.point.promise (mv.after f.mem) = some y) :
    Serial m₀ g f.settled (pre ++ post) [(t, y)] := by
  have hpending := pending_of_store hf hg hmv ht
  have hstore := hmv.point ▸ ht
  have hheld : ∀ q, Lock.session q ∈ (f.pc t).holds → f.pending q = .keep := fun q hq => by
    rw [pending_eq hf.inv.owned hq]
    exact (hmv.moves.pendingAt hstore q).1
  obtain ⟨hcall, hvictims⟩ := hmv.moves.places (good_of_store hf hg hmv ht) hstore (hf.named t)
    hf.pending_sessionCount hheld (hf.unbound t) hnone hy t
  refine h.commit ?_ ?_ (fun v hv => ?_) (by rw [hmv.mem, hmv.moves.opt])
    (account_placed hmv hnone hy) fun u hu => account_of_ne hf hg hmv hu
  · rw [virtual, rest_holder hf hg hmv ht, Pc.rest_of_promise_eq_none hnone, settled]
  · rw [virtual, rest_holder_after hf hg hmv ht, hmv.mem, hpending]
    exact hcall
  · rw [victims, rest_holder_after hf hg hmv ht, hmv.mem] at hv
    obtain ⟨hapart, hlt, hs⟩ := hvictims v hv
    refine ⟨hapart, hlt, ?_⟩
    rw [settled, settled, Mem.pend_session, Mem.pend_session, hpending, hmv.mem, hs]

omit ht in
/-- A quiet move outside of the store lock. -/
theorem Serial.quiet_outside (h : Serial m₀ f m pre post) (hft : Lock.store ∉ (f.pc t).holds)
    (hgt : Lock.store ∉ (g.pc t).holds)
    (hq : (f.pc t).promise f.mem ≠ none ∨ mv.point.promise (mv.after f.mem) = none) :
    Serial m₀ g m pre post := by
  obtain ⟨hmem, hsession⟩ := hmv.moves.settles hft hq
  rw [← hmv.mem] at hmem hsession
  have hsettled : g.settled = f.settled := by
    rw [settled, settled, hmem]
    apply Mem.ext
    · rfl
    · funext q
      simp only [Mem.pend_session]
      rcases hsession q with ⟨hat, hs⟩ | ⟨hfq, hgq, hs⟩
      · rw [hs, pending_congr hf.inv.owned hg.inv.owned hmv.others (by rw [hmv.point, hat])]
      · rw [← hmv.point] at hgq hs
        rw [pending_eq hf.inv.owned hfq, pending_eq hg.inv.owned hgq, hs]
    all_goals rfl
  have hrest : (g.virtual, g.victims) = (f.virtual, f.victims) := by
    rw [← hf.rest_settled, ← hg.rest_settled, hsettled,
      holder_outside hf.inv.owned hg.inv.owned hmv.others hft hgt]
  rw [Prod.mk.injEq] at hrest
  refine h.quiet hrest.1 (fun v hv => ⟨hrest.2 ▸ hv, by rw [hsettled]⟩)
    (by rw [hmv.mem, hmv.moves.opt]) fun u => ?_
  by_cases hu : u = t
  · rw [hu]
    exact account_quiet hf hmv hq
  · exact account_of_ne hf hg hmv hu

omit ht in
/-- A move that gives a call on one session its place. -/
theorem Serial.placed_outside (h : Serial m₀ f m pre post) (hft : Lock.store ∉ (f.pc t).holds)
    (hgt : Lock.store ∉ (g.pc t).holds) (hnone : (f.pc t).promise f.mem = none)
    (hy : mv.point.promise (mv.after f.mem) = some y) : ∃ m pre post, Serial m₀ g m pre post := by
  have hholder := holder_outside hf.inv.owned hg.inv.owned hmv.others hft hgt
  have hopt : g.mem.store.opt = f.mem.store.opt := by rw [hmv.mem, hmv.moves.opt]
  have ht := account_placed hmv hnone hy
  have hothers : ∀ u ≠ t, g.account u = f.account u := fun u hu => account_of_ne hf hg hmv hu
  have hnamed := hf.named t
  have hmem := hmv.mem
  have hpoint := hmv.point
  have hmoves := hmv.moves
  rw [hpoint] at hgt
  generalize hpc : f.pc t = pc at hft hnone hnamed hmoves
  cases hmoves with
  | @look p data pol k =>
      obtain rfl := Option.some.inj hy
      have hkeep : f.pending p = .keep := by
        rw [pending_eq hf.inv.owned (by rw [hpc]; simp [Pc.holds]), hpc]
        rfl
      have hs : f.settled.session p = f.mem.session p := by
        rw [settled, Mem.pend_session, hkeep, Edit.apply_keep]
      have hl : f.settled.liveClient p = f.mem.liveClient p := by
        rw [Mem.liveClient, hs]
        rfl
      have hgkeep : g.pending = Function.update f.pending p
          ((f.mem.session p).look (f.mem.liveClient p) data pol).1 := by
        funext q
        by_cases hq : q = p
        · subst hq
          rw [pending_eq hg.inv.owned (by rw [hpoint]; simp [Move.point, Pc.holds]), hpoint,
            Function.update_self]
          exact if_pos rfl
        · rw [Function.update_of_ne hq]
          refine pending_congr hf.inv.owned hg.inv.owned hmv.others ?_
          rw [hpoint, hpc]
          exact if_neg hq
      refine h.placed_on hf hg (hnamed p (List.mem_cons_self ..))
        ((f.mem.session p).look (f.mem.liveClient p) data pol).1
        (Session.look_ne_write (f.mem.session p) (f.mem.liveClient p) data pol) hholder ?_
        (fun b hb => ?_) rfl (fun v hv => ?_) hopt ht hothers
      · rw [settled, hgkeep, hmem, Mem.pend_update _ hkeep, Move.after, ← Mem.pokeLive_pend,
          Mem.pokeLive_edit]
        rfl
      · have hdeliver := hb.deliver t data pol
        rw [hs, hl] at hdeliver
        exact hdeliver
      · exact Ne.symm hv
  | @touching p x =>
      obtain rfl := Option.some.inj hy
      have hkeep : f.pending p = .keep := by
        rw [pending_eq hf.inv.owned (by rw [hpc]; simp [Pc.holds]), hpc]
        rfl
      have hgkeep : g.pending = f.pending := by
        funext q
        refine pending_congr hf.inv.owned hg.inv.owned hmv.others ?_
        rw [hpoint, hpc]
        rfl
      have hs : f.settled.session p = f.mem.session p := by
        rw [settled, Mem.pend_session, hkeep, Edit.apply_keep]
      have hreply : x.reply f.settled p = x.reply f.mem p := by
        cases x with
        | ack seq => rfl
        | claimKey key =>
            rw [Touch.reply, Touch.reply, Mem.claimKey_eq_edit, Mem.claimKey_eq_edit, hs]
            rfl
      refine h.placed_on hf hg (hnamed p (List.mem_cons_self ..))
        (x.edit f.mem.store.opt.digest) (x := .nothing) (by decide) hholder ?_ (fun b hb => ?_) ?_
        (fun v hv => ?_) hopt ht hothers
      · rw [settled, hgkeep, hmem, Mem.pokeLive_nothing, Move.after]
        exact f.mem.edit_pend hkeep
      · have htouch := hb.touch t x
        rw [hreply] at htouch
        rw [Mem.pokeLive_nothing]
        exact htouch
      · cases x <;> rfl
      · cases x <;> exact Ne.symm hv
  | _ =>
      first
        | (simp [Pc.holds] at hft; done)
        | (simp [Pc.promise, Move.point] at hy; done)
        | (simp [Pc.promise] at hnone; done)
        | simp [Pc.holds, Move.point] at hgt

end moved

/-- **A move of one goroutine.** -/
theorem Serial.move {draw : Option String} {mv : Move Mem Lock Pc} (h : Serial m₀ f m pre post)
    (hf : f.Apt) (hg : g.Apt) (hmv : f.Moved t draw mv g) :
    ∃ m pre post, Serial m₀ g m pre post := by
  by_cases hq : (f.pc t).promise f.mem ≠ none ∨ mv.point.promise (mv.after f.mem) = none
  · by_cases ht : Lock.store ∈ (f.pc t).holds ∨ Lock.store ∈ (g.pc t).holds
    · exact ⟨m, pre, post, h.quiet_inside hf hg hmv ht hq⟩
    · rw [not_or] at ht
      exact ⟨m, pre, post, h.quiet_outside hf hg hmv ht.1 ht.2 hq⟩
  · rw [not_or, not_not] at hq
    obtain ⟨hnone, hsome⟩ := hq
    obtain ⟨y, hy⟩ := Option.ne_none_iff_exists'.1 hsome
    by_cases ht : Lock.store ∈ (f.pc t).holds ∨ Lock.store ∈ (g.pc t).holds
    · exact ⟨_, _, _, h.placed_inside hf hg hmv ht hnone hy⟩
    · rw [not_or] at ht
      exact h.placed_outside hf hg hmv ht.1 ht.2 hnone hy

/-- A call that starts has nothing to commit and promises nothing. -/
theorem Starts.quiet {pc : Pc} (h : f.Starts pc) :
    (∀ q, pc.pendingAt q = .keep) ∧ ∀ m, pc.promise m = none := by
  cases pc <;> first | exact ⟨fun _ => rfl, fun _ => rfl⟩ | exact absurd h id

section put

variable (hf : f.Apt) (hg : g.Apt) (hidle : f.pc t = .idle) (hothers : ∀ u ≠ t, g.pc u = f.pc u)

include hf hg hidle hothers

/-- A call starts. -/
theorem Serial.start (h : Serial m₀ f m pre post) {pc : Pc} (hs : f.Starts pc)
    (hpc : g.pc t = pc) (hmem : g.mem = f.mem) (hhist : g.hist = f.hist) :
    Serial m₀ g m pre post := by
  have hholder : g.holder = f.holder :=
    holder_outside hf.inv.owned hg.inv.owned hothers (by rw [hidle]; simp [Pc.holds])
      (by rw [hpc, holds_of_starts hs]; simp)
  have hpending : g.pending = f.pending := by
    funext q
    refine pending_congr hf.inv.owned hg.inv.owned hothers ?_
    rw [hpc, hs.quiet.1, hidle]
    rfl
  refine h.quiet ?_ (fun v hv => ⟨?_, ?_⟩) (by rw [hmem]) fun u => ?_
  · rw [virtual, virtual, hholder, hmem, hpending]
  · rwa [victims, hholder, hmem] at hv
  · rw [settled, settled, hmem, hpending]
  · have hpromised : g.promised u = f.promised u := by
      rw [promised, promised, hmem]
      by_cases hu : u = t
      · subst hu
        rw [hpc, hs.quiet.2, hidle]
        rfl
      · rw [hothers u hu]
    rw [account, account, hpromised, hhist]

/-- A pump writes, or a transport is closed. -/
theorem Serial.poke (h : Serial m₀ f m pre post) {c : ClientRef} {x : Poke} {op : Op}
    (hop : x.op c = some op) (hx : f.Allowed c x) (hpc : g.pc t = .idle)
    (hmem : g.mem = f.mem.poke c x)
    (hhist : g.hist = Function.update f.hist t (f.hist t ++ [(op, .done)])) :
    Serial m₀ g m pre (post ++ [(t, op, .done)]) := by
  have hholder : g.holder = f.holder :=
    holder_outside hf.inv.owned hg.inv.owned hothers (by rw [hidle]; simp [Pc.holds])
      (by rw [hpc]; simp [Pc.holds])
  have hpending : g.pending = f.pending := by
    funext q
    refine pending_congr hf.inv.owned hg.inv.owned hothers ?_
    rw [hpc, hidle]
  have hbinds : ∀ {u}, (f.pc u).binds = some c → x ≠ .write := fun hu hw =>
    (hx hw).1 (hf.unbound _ c (Pc.opens_of_binds hu))
  have hholds : f.holder.binds = some c → x ≠ .write := fun hb => by
    unfold holder at hb
    split at hb
    · cases hb
    · exact hbinds hb
  have hrest : g.holder.rest g.mem = ((f.holder.rest f.mem).1.poke c x, f.victims) := by
    rw [hholder, hmem, Pc.rest_poke hholds]
    rfl
  have hvirtual : g.virtual = f.virtual.poke c x := by
    rw [virtual, hrest, hpending]
    rfl
  refine h.late ?_ (by rw [victims, hrest]) (fun v _ => ?_) (by rw [hmem]; rfl) (fun v _ => ?_) ?_
    fun u hu => ?_
  · rw [hvirtual]
    cases x with
    | close | shutdown =>
        obtain rfl := Option.some.inj hop
        exact ⟨rfl, rfl, trivial⟩
    | write =>
        obtain rfl := Option.some.inj hop
        have hclient : f.virtual.client c = f.mem.client c :=
          (hf.inv.good.rest_client c).2 fun hb => hholds hb rfl
        obtain ⟨cl, hcl⟩ := Option.ne_none_iff_exists'.1 (hx rfl).2
        refine ⟨?_, rfl, ?_⟩
        · rw [Mem.Step, Mem.step, hclient, hcl, Mem.poke, Poke.apply, hclient, hcl]
          rfl
        · rw [Mem.Admits, hclient]
          exact (hx rfl).1
    | nothing | send | drop => cases hop
  · rw [settled, settled, hmem, hpending]
    rfl
  · cases x <;> first | (cases hop; done) | (obtain rfl := Option.some.inj hop; exact trivial)
  · rw [account, account, promised, promised, hpc, hidle, hhist, Function.update_self]
    simp [Pc.promise]
  · have hpromised : g.promised u = f.promised u := by
      rw [promised, promised, hothers u hu, hmem, Pc.promise_poke hbinds]
    rw [account, account, hpromised, hhist, Function.update_of_ne hu]

end put

/-- **Every step keeps the serial run.** -/
theorem Serial.step {a : CallStep} (h : Serial m₀ f m pre post) (hf : f.Apt) (hstep : f.Step a g) :
    ∃ m pre post, Serial m₀ g m pre post := by
  have hg := hf.step hstep
  cases hstep.took with
  | start hidle hs =>
      exact ⟨m, pre, post, h.start hf hg hidle (fun u hu => Pool.put_thread_of_ne _ _ _ _ hu) hs
        (Pool.put_thread_self ..) rfl rfl⟩
  | @advance t draw q hq =>
      obtain ⟨mv, hmv⟩ := moved hq
      exact h.move hf hg hmv
  | poke hop hidle hx =>
      exact ⟨_, _, _, h.poke hf hg hidle (fun u hu => Pool.put_thread_of_ne _ _ _ _ hu) hop hx
        (Pool.put_thread_self ..) rfl rfl⟩

/-- The empty run serialises to no calls. -/
theorem serial_init (opt : SessionOptions) (digest : String → String)
    (sendBuffer : ClientRef → ℤ) :
    Serial (newSessionStore opt digest sendBuffer) (init opt digest sendBuffer)
      (newSessionStore opt digest sendBuffer) [] [] where
  before := .nil _
  after := .nil _
  opt := rfl
  base _ hv := nomatch hv
  apart _ hv := nomatch hv
  replies _ := .refl _

/-- When no call is under way, nothing is left to do. -/
theorem virtual_of_idle (h : ∀ t, f.pc t = .idle) : f.virtual = f.mem := by
  have hholder : f.holder = .idle := by
    unfold holder
    split
    · rfl
    · exact h _
  have hpending : f.pending = fun _ => .keep := by
    funext q
    unfold pending
    split
    · rfl
    · rw [h]
      rfl
  rw [virtual, hholder, hpending]
  rfl

/-- Every reachable state has a serial run. -/
theorem Serial.of_reachable {opt : SessionOptions} {digest : String → String}
    {sendBuffer : ClientRef → ℤ} (h : Reachable Step (init opt digest sendBuffer) f) :
    f.Apt ∧ ∃ m pre post, Serial (newSessionStore opt digest sendBuffer) f m pre post :=
  h.invariant (P := fun f => f.Apt ∧ ∃ m pre post, Serial _ f m pre post)
    ⟨apt_init opt digest sendBuffer, _, _, _, serial_init opt digest sendBuffer⟩
    fun f _ g hf hstep => by
      obtain ⟨hf, m, pre, post, hs⟩ := hf
      exact ⟨hf.step hstep, hs.step hf hstep⟩

/-- **The calls are serializable.**  When no call is under way, there is an order of all the
calls that were made in which, one after the other and each as one step, they lead to the same
memory and return the same results; calls of one goroutine that take a common lock are in the
order in which they were made. -/
theorem serializable {opt : SessionOptions} {digest : String → String}
    {sendBuffer : ClientRef → ℤ} {f : Calls} (h : Reachable Step (init opt digest sendBuffer) f)
    (hidle : ∀ t, f.pc t = .idle) :
    ∃ calls : List (Thread × Op × Reply),
      Steps Mem.Call (newSessionStore opt digest sendBuffer) calls f.mem ∧
      ∀ t, SameOrder (fun x => x.1.locks) (served t calls) (f.hist t) := by
  obtain ⟨-, m, pre, post, hs⟩ := Serial.of_reachable h
  refine ⟨pre ++ post, ?_, fun t => ?_⟩
  · rw [← virtual_of_idle hidle]
    exact hs.before.append hs.after
  · have haccount : f.account t = f.hist t := by
      rw [account, promised, hidle t]
      exact List.append_nil _
    exact haccount ▸ hs.replies t

/-- The goroutine that takes a step. -/
def thread : CallStep → Thread
  | .start t _ | .advance t _ | .poke t _ _ => t

/-- The others stay where they are. -/
theorem Step.pc_of_ne {a : CallStep} (h : f.Step a g) {u : Thread} (hu : u ≠ thread a) :
    g.pc u = f.pc u := by
  cases h.took with
  | start => exact Pool.put_thread_of_ne _ _ _ _ hu
  | advance hq => exact Pool.thread_of_ne hq hu
  | poke => exact Pool.put_thread_of_ne _ _ _ _ hu

/-- A goroutine that takes no step stays where it is. -/
theorem pc_of_steps {as : List CallStep} (h : Steps Step f as g) {u : Thread}
    (hu : ∀ a ∈ as, u ≠ thread a) : g.pc u = f.pc u := by
  induction h with
  | nil f => rfl
  | cons hstep _ ih =>
      rw [ih fun a ha => hu a (List.mem_cons_of_mem _ ha),
        hstep.pc_of_ne (hu _ (List.mem_cons_self ..))]

/-- Session 0 is parked, and session 1 leaves a store with room for one.  Before its `Leave`
has come to the eviction of session 0, the hub sends a job to both. -/
def evictionMeetsCast : List CallStep :=
  [.start 0 (.openCall ⟨0, ⟨false, false, "", 0, ""⟩, 0⟩), .advance 0 (some "a")] ++
    List.replicate 4 (.advance 0 none) ++
    [.start 0 (.openCall ⟨1, ⟨false, false, "", 0, ""⟩, 0⟩), .advance 0 (some "b")] ++
    List.replicate 4 (.advance 0 none) ++ [.start 0 (.leaveCall ⟨0, 0, true, 5⟩)] ++
    List.replicate 7 (.advance 0 none) ++ [.start 1 (.leaveCall ⟨1, 1, true, 6⟩)] ++
    List.replicate 4 (.advance 1 none) ++ [.start 2 (.cast [1, 0] (ascii "x") .disconnect)] ++
    List.replicate 12 (.advance 2 none) ++ List.replicate 13 (.advance 1 none)

/-- The hub has both frames committed, the second one to a session that is then evicted. -/
theorem serializable_evictionMeetsCast :
    ∃ f : Calls, Reachable Step (init ⟨0, 0, 0, 1, 0⟩ id fun _ => 0) f ∧
      (∀ t, f.pc t = .idle) ∧ (f.mem.session 0).state = .closed ∧
      f.hist 2 = [(.deliver 1 (ascii "x") .disconnect, .delivered true),
        (.deliver 0 (ascii "x") .disconnect, .delivered true)] ∧
      ∃ calls : List (Thread × Op × Reply),
        Steps Mem.Call (newSessionStore ⟨0, 0, 0, 1, 0⟩ id fun _ => 0) calls f.mem ∧
        ∀ t, SameOrder (fun x => x.1.locks) (served t calls) (f.hist t) := by
  have hrun : ((exec step (init ⟨0, 0, 0, 1, 0⟩ id fun _ => 0) evictionMeetsCast).map fun f =>
      decide (f.pc 0 = .idle ∧ f.pc 1 = .idle ∧ f.pc 2 = .idle) &&
        decide ((f.mem.session 0).state = .closed) &&
        decide (f.hist 2 = [(.deliver 1 (ascii "x") .disconnect, .delivered true),
          (.deliver 0 (ascii "x") .disconnect, .delivered true)])) = some true := by decide
  obtain ⟨f, hf, hp⟩ := Option.map_eq_some_iff.1 hrun
  simp only [Bool.and_eq_true, decide_eq_true_eq] at hp
  obtain ⟨⟨⟨h0, h1, h2⟩, hclosed⟩, hhist⟩ := hp
  have hsteps : Steps Step (init ⟨0, 0, 0, 1, 0⟩ id fun _ => 0) evictionMeetsCast f := .of_exec hf
  have hidle : ∀ t, f.pc t = .idle := by
    intro t
    by_cases ht : t = 0 ∨ t = 1 ∨ t = 2
    · rcases ht with rfl | rfl | rfl
      · exact h0
      · exact h1
      · exact h2
    · have hthreads : ∀ a ∈ evictionMeetsCast, thread a = 0 ∨ thread a = 1 ∨ thread a = 2 := by
        simp [evictionMeetsCast, thread]
      exact pc_of_steps hsteps fun a ha hta => ht (hta ▸ hthreads a ha)
  exact ⟨f, ⟨_, hsteps⟩, hidle, hclosed, hhist, serializable ⟨_, hsteps⟩ hidle⟩

end Calls
end GoSocket
