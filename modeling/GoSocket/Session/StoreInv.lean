/-
# What the store operations keep

The representation invariant of the session store, `StoreInv`: the id map holds
exactly the sessions that are not closed; the parked list holds exactly the
parked ones, each once and at the element its `elem` names; an attached session
has a live client, which is its hub member; the parked list, the replay buffers
and the key windows are within their limits.

`Linked` is the invariant without the bound on the parked list, which `Leave`
exceeds between parking a session and evicting another.  All that the
operations do to the links is to discard sessions (`Linked.discard`), to attach
or park one, and to allocate one; everything else leaves them alone
(`Linked.setSession`).
-/

import GoSocket.Session.Store
import Mathlib.Data.List.Nodup

namespace GoSocket

open Lib

namespace Mem

/-- Writing through a session reference changes that session alone. -/
@[simp] theorem setSession_session (m : Mem) (p q : SessionRef) (s : Session) :
    (m.setSession p s).session q = if q = p then s else m.session q :=
  Function.update_apply ..

@[simp] theorem setSession_client (m : Mem) (p : SessionRef) (s : Session) :
    (m.setSession p s).client = m.client := rfl

@[simp] theorem setSession_store (m : Mem) (p : SessionRef) (s : Session) :
    (m.setSession p s).store = m.store := rfl

@[simp] theorem setSession_sessionCount (m : Mem) (p : SessionRef) (s : Session) :
    (m.setSession p s).sessionCount = m.sessionCount := rfl

@[simp] theorem setSession_elemCount (m : Mem) (p : SessionRef) (s : Session) :
    (m.setSession p s).elemCount = m.elemCount := rfl

/-- Writing through a client reference changes that client alone. -/
@[simp] theorem setClient_client (m : Mem) (c d : ClientRef) (cl : Client) :
    (m.setClient c cl).client d = if d = c then cl else m.client d :=
  Function.update_apply ..

@[simp] theorem setClient_session (m : Mem) (c : ClientRef) (cl : Client) :
    (m.setClient c cl).session = m.session := rfl

@[simp] theorem setClient_store (m : Mem) (c : ClientRef) (cl : Client) :
    (m.setClient c cl).store = m.store := rfl

@[simp] theorem setClient_sessionCount (m : Mem) (c : ClientRef) (cl : Client) :
    (m.setClient c cl).sessionCount = m.sessionCount := rfl

@[simp] theorem setClient_elemCount (m : Mem) (c : ClientRef) (cl : Client) :
    (m.setClient c cl).elemCount = m.elemCount := rfl

/-- The parked list without the element a session points to. -/
def unpark (l : List (ElemRef × SessionRef)) (elem : Option ElemRef) :
    List (ElemRef × SessionRef) :=
  match elem with
  | none => l
  | some e => l.filter fun x => x.1 ≠ e

/-- What `discard` does, field by field. -/
theorem discard_eq (m : Mem) (p : SessionRef) :
    m.discard p =
      { m with
        session := Function.update m.session p { m.session p with state := .closed, elem := none }
        store := { m.store with
          sessions := Function.update m.store.sessions (m.session p).id none
          parked := unpark m.store.parked (m.session p).elem } } := by
  unfold discard removeLocked
  cases he : (m.session p).elem with
  | none => simp [he, setSession, setSessions, unpark]
  | some e => simp [he, setSession, setSessions, setParked, unpark]

/-- A discarded session is closed and off the parked list; the others stay as they are. -/
@[simp] theorem discard_session (m : Mem) (p q : SessionRef) :
    (m.discard p).session q =
      if q = p then { m.session p with state := .closed, elem := none } else m.session q := by
  rw [discard_eq]
  exact Function.update_apply ..

/-- Discarding a session touches no client. -/
@[simp] theorem discard_client (m : Mem) (p : SessionRef) : (m.discard p).client = m.client := by
  rw [discard_eq]

/-- Discarding a session allocates none. -/
@[simp] theorem discard_sessionCount (m : Mem) (p : SessionRef) :
    (m.discard p).sessionCount = m.sessionCount := by
  rw [discard_eq]

/-- Discarding a session allocates no list element. -/
@[simp] theorem discard_elemCount (m : Mem) (p : SessionRef) :
    (m.discard p).elemCount = m.elemCount := by
  rw [discard_eq]

/-- Discarding a session keeps the options. -/
@[simp] theorem discard_opt (m : Mem) (p : SessionRef) :
    (m.discard p).store.opt = m.store.opt := by
  rw [discard_eq]

/-- A discarded session's id is out of the table; every other id keeps its entry. -/
@[simp] theorem discard_sessions (m : Mem) (p : SessionRef) (id : String) :
    (m.discard p).store.sessions id =
      if id = (m.session p).id then none else m.store.sessions id := by
  rw [discard_eq]
  exact Function.update_apply ..

/-- A discarded session leaves the parked list if it was on it. -/
@[simp] theorem discard_parked (m : Mem) (p : SessionRef) :
    (m.discard p).store.parked = unpark m.store.parked (m.session p).elem := by
  rw [discard_eq]

/-- Discarding a session does not touch any park time. -/
theorem discard_parkTime (m : Mem) (p q : SessionRef) :
    ((m.discard p).session q).parked = (m.session q).parked := by
  rw [discard_session]
  split_ifs with hqp
  · rw [hqp]
  · rfl

/-- What `unpark` keeps: every entry but the one whose element it was given. -/
theorem mem_unpark {l : List (ElemRef × SessionRef)} {elem : Option ElemRef}
    {x : ElemRef × SessionRef} : x ∈ unpark l elem ↔ x ∈ l ∧ elem ≠ some x.1 := by
  cases elem with
  | none => simp [unpark]
  | some e =>
      simp only [unpark, List.mem_filter, decide_eq_true_eq, ne_eq, Option.some.injEq]
      rw [@eq_comm _ e x.1]

/-- `unpark` keeps the order of what stays. -/
theorem unpark_sublist (l : List (ElemRef × SessionRef)) (elem : Option ElemRef) :
    (unpark l elem).Sublist l := by
  cases elem with
  | none => exact List.Sublist.refl _
  | some e => exact List.filter_sublist

/-- The buffer and key window of a session have the limits of the store. -/
def Limits (opt : StoreOptions) (s : Session) : Prop :=
  s.buf.raw.maxMsgs = opt.replayMessages ∧ s.buf.raw.maxBytes = opt.replayBytes ∧
    s.keys.raw.max = opt.keyWindow

/-- The id map and the parked list agree with the fields of the session at `p`. -/
structure LinkedAt (m : Mem) (p : SessionRef) : Prop where
  stored : ∀ {id}, m.store.sessions id = some p ↔
    (m.session p).id = id ∧ (m.session p).state ≠ .closed
  listed : ∀ {e}, (e, p) ∈ m.store.parked ↔ (m.session p).elem = some e
  elem : ∀ {e}, (m.session p).elem = some e → (m.session p).state = .parked ∧ e < m.elemCount
  allocated : (m.session p).state ≠ .closed → p < m.sessionCount
  parked : (m.session p).state = .parked →
    (m.session p).live = none ∧ ∃ e, (m.session p).elem = some e
  attached : (m.session p).state = .attached →
    ∃ c, (m.session p).live = some c ∧ (m.session p).member = some c
  limits : Limits m.store.opt (m.session p)

/-- The id map, the parked list and the sessions' own fields agree. -/
structure Linked (m : Mem) : Prop where
  session : ∀ p, m.LinkedAt p
  nodup : (m.store.parked.map Prod.fst).Nodup

namespace Linked

variable {m : Mem}

/-- A stored session is found under its id. -/
theorem find (h : m.Linked) {p : SessionRef} (hp : (m.session p).state ≠ .closed) :
    m.store.sessions (m.session p).id = some p := (h.session p).stored.2 ⟨rfl, hp⟩

/-- An element of the parked list belongs to one session. -/
theorem elem_inj (h : m.Linked) {e : ElemRef} {p q : SessionRef}
    (hp : (m.session p).elem = some e) (hq : (m.session q).elem = some e) : p = q := by
  have := List.inj_on_of_nodup_map h.nodup ((h.session p).listed.2 hp)
    ((h.session q).listed.2 hq) rfl
  exact congrArg Prod.snd this

/-- Only a parked session holds a list element. -/
theorem elem_eq_none (h : m.Linked) {p : SessionRef} (hs : (m.session p).state ≠ .parked) :
    (m.session p).elem = none := by
  cases he : (m.session p).elem with
  | none => rfl
  | some e => exact absurd ((h.session p).elem he).1 hs

/-- Taking a session off the parked list keeps the entries of the others. -/
theorem mem_unpark_of_ne (h : m.Linked) {e : ElemRef} {p q : SessionRef} (hqp : q ≠ p) :
    (e, q) ∈ unpark m.store.parked (m.session p).elem ↔ (e, q) ∈ m.store.parked := by
  rw [mem_unpark, and_iff_left_iff_imp]
  exact fun hq he => hqp (h.elem_inj ((h.session q).listed.1 hq) he)

/-- The entry of the session itself is gone. -/
theorem not_mem_unpark (h : m.Linked) (e : ElemRef) (p : SessionRef) :
    (e, p) ∉ unpark m.store.parked (m.session p).elem := by
  rw [mem_unpark]
  exact fun hp => hp.2 ((h.session p).listed.1 hp.1)

/-- Unlisting keeps the elements distinct. -/
theorem nodup_unpark (h : m.Linked) (elem : Option ElemRef) :
    ((unpark m.store.parked elem).map Prod.fst).Nodup :=
  h.nodup.sublist ((unpark_sublist _ _).map _)

/-- **Relinking one session.**  An operation that rewrites the session at `p`,
its entry in the map and its entry in the parked list, and nothing that belongs
to another session, has to be checked at `p` only. -/
theorem relink (h : m.Linked) {m' : Mem} {p : SessionRef}
    (hother : ∀ q ≠ p, m'.session q = m.session q) (hopt : m'.store.opt = m.store.opt)
    (hcount : m.sessionCount ≤ m'.sessionCount) (helems : m.elemCount ≤ m'.elemCount)
    (hmap : ∀ id, ∀ q ≠ p, m'.store.sessions id = some q ↔ m.store.sessions id = some q)
    (hlist : ∀ e, ∀ q ≠ p, (e, q) ∈ m'.store.parked ↔ (e, q) ∈ m.store.parked)
    (hnodup : (m'.store.parked.map Prod.fst).Nodup) (hp : m'.LinkedAt p) : m'.Linked where
  nodup := hnodup
  session := by
    intro q
    by_cases hqp : q = p
    · exact hqp ▸ hp
    obtain ⟨hstored, hlisted, helem, halloc, hparked, hattached, hlimits⟩ := h.session q
    rw [← hother q hqp] at hstored hlisted helem halloc hparked hattached hlimits
    refine ⟨(hmap _ q hqp).trans hstored, (hlist _ q hqp).trans hlisted, fun he => ?_,
      fun hs => (halloc hs).trans_le hcount, hparked, hattached, hopt ▸ hlimits⟩
    exact ⟨(helem he).1, (helem he).2.trans_le helems⟩

/-- Closing a stored session and removing it from the map and the list. -/
theorem discard (h : m.Linked) {p : SessionRef} (hp : (m.session p).state ≠ .closed) :
    (m.discard p).Linked := by
  have hfind := h.find hp
  refine h.relink (p := p) (fun q hqp => by simp [hqp]) (discard_opt ..)
    (discard_sessionCount ..).ge (discard_elemCount ..).ge ?_ ?_ ?_ ?_
  · intro id q hqp
    rw [discard_sessions]
    split_ifs with hid
    · rw [hid, hfind]
      simp [Ne.symm hqp]
    · rfl
  · intro e q hqp
    rw [discard_parked]
    exact h.mem_unpark_of_ne hqp
  · rw [discard_parked]
    exact h.nodup_unpark _
  · constructor
    case stored =>
      intro id
      rw [discard_sessions]
      split_ifs with hid
      · simp
      · simp [(h.session p).stored, Ne.symm hid]
    case listed =>
      intro e
      simpa using h.not_mem_unpark e p
    all_goals simp
    exact (h.session p).limits

/-- An update that leaves the links of a session alone. -/
theorem setSession (h : m.Linked) {p : SessionRef} {s : Session} (hid : s.id = (m.session p).id)
    (hstate : s.state = (m.session p).state) (helem : s.elem = (m.session p).elem)
    (hlive : s.state ≠ .closed → s.live = (m.session p).live ∧ s.member = (m.session p).member)
    (hlim : Limits m.store.opt s) : (m.setSession p s).Linked := by
  refine h.relink (p := p) (fun q hqp => by simp [hqp]) rfl le_rfl le_rfl (fun _ _ _ => Iff.rfl)
    (fun _ _ _ => Iff.rfl) h.nodup ?_
  obtain ⟨hstored, hlisted, helem', halloc, hparked, hattached, -⟩ := h.session p
  rw [← hstate] at hstored helem' halloc hparked hattached
  rw [← helem] at hlisted helem' hparked
  rw [← hid] at hstored
  constructor <;> simp only [setSession_session, if_true, setSession_store, setSession_elemCount,
    setSession_sessionCount]
  case stored => exact hstored
  case listed => exact hlisted
  case elem => exact helem'
  case allocated => exact halloc
  case parked =>
    intro hs
    rw [(hlive (by rw [hs]; decide)).1]
    exact hparked hs
  case attached =>
    intro hs
    rw [(hlive (by rw [hs]; decide)).1, (hlive (by rw [hs]; decide)).2]
    exact hattached hs
  case limits => exact hlim

/-- The links do not mention the clients. -/
theorem setClient (h : m.Linked) (c : ClientRef) (cl : Client) : (m.setClient c cl).Linked :=
  ⟨fun p => ⟨(h.session p).stored, (h.session p).listed, (h.session p).elem,
    (h.session p).allocated, (h.session p).parked, (h.session p).attached, (h.session p).limits⟩,
    h.nodup⟩

/-- Discarding the session at the front of the parked list pops the front. -/
theorem discard_front (h : m.Linked) {e : ElemRef} {v : SessionRef}
    {rest : List (ElemRef × SessionRef)} (hl : m.store.parked = (e, v) :: rest) :
    (m.discard v).store.parked = rest := by
  have hmem : (e, v) ∈ m.store.parked := hl ▸ List.mem_cons_self ..
  have hnodup := h.nodup
  rw [hl, List.map_cons, List.nodup_cons] at hnodup
  rw [discard_parked, (h.session v).listed.1 hmem, unpark, hl, List.filter_cons_of_neg (by simp)]
  refine List.filter_eq_self.2 fun x hx => ?_
  simp only [ne_eq, decide_eq_true_eq]
  exact fun hxe => hnodup.1 (List.mem_map.2 ⟨x, hx, hxe⟩)

end Linked

/-- Discard sessions one after another. -/
def discardAll (m : Mem) (ps : List SessionRef) : Mem := ps.foldl discard m

@[simp] theorem discardAll_nil (m : Mem) : m.discardAll [] = m := rfl

@[simp] theorem discardAll_cons (m : Mem) (p : SessionRef) (ps : List SessionRef) :
    m.discardAll (p :: ps) = (m.discard p).discardAll ps := rfl

/-- Discarding several sessions closes exactly those. -/
theorem discardAll_session (m : Mem) (ps : List SessionRef) (q : SessionRef) :
    (m.discardAll ps).session q =
      if q ∈ ps then { m.session q with state := .closed, elem := none } else m.session q := by
  induction ps generalizing m with
  | nil => simp
  | cons p ps ih =>
      rw [discardAll_cons, ih, discard_session]
      by_cases hqp : q = p
      · subst hqp
        simp
      · simp [hqp]

/-- Discarding several sessions touches no client. -/
@[simp] theorem discardAll_client (m : Mem) (ps : List SessionRef) :
    (m.discardAll ps).client = m.client := by
  induction ps generalizing m with
  | nil => rfl
  | cons p ps ih => rw [discardAll_cons, ih, discard_client]

/-- Discarding several sessions allocates none. -/
@[simp] theorem discardAll_sessionCount (m : Mem) (ps : List SessionRef) :
    (m.discardAll ps).sessionCount = m.sessionCount := by
  induction ps generalizing m with
  | nil => rfl
  | cons p ps ih => rw [discardAll_cons, ih, discard_sessionCount]

/-- Discarding several sessions keeps the options. -/
@[simp] theorem discardAll_opt (m : Mem) (ps : List SessionRef) :
    (m.discardAll ps).store.opt = m.store.opt := by
  induction ps generalizing m with
  | nil => rfl
  | cons p ps ih => rw [discardAll_cons, ih, discard_opt]

/-- What a loop that pops the parked list leaves behind: the first `k` sessions
are discarded, in order, and the rest of the list stays. -/
structure Popped (m : Mem) (k : ℕ) (r : Mem × List SessionRef) : Prop where
  sessions : r.2 = (m.store.parked.take k).map Prod.snd
  mem : r.1 = m.discardAll r.2
  linked : r.1.Linked
  parked : r.1.store.parked = m.store.parked.drop k

theorem Popped.zero {m : Mem} (h : m.Linked) : Popped m 0 (m, []) := ⟨rfl, rfl, h, rfl⟩

/-- One round of such a loop. -/
theorem Popped.succ {m : Mem} (h : m.Linked) {e : ElemRef} {v : SessionRef}
    {rest : List (ElemRef × SessionRef)} (hl : m.store.parked = (e, v) :: rest) {k : ℕ}
    {r : Mem × List SessionRef} (hr : Popped (m.discard v) k r) :
    Popped m (k + 1) (r.1, v :: r.2) := by
  obtain ⟨hs, hm, hlinked, hp⟩ := hr
  rw [h.discard_front hl] at hs hp
  exact ⟨by simp [hl, hs], by simpa using hm, hlinked, by simpa [hl] using hp⟩

/-- The front of the parked list is parked, so not closed. -/
theorem Linked.front_open {m : Mem} (h : m.Linked) {e : ElemRef} {v : SessionRef}
    {rest : List (ElemRef × SessionRef)} (hl : m.store.parked = (e, v) :: rest) :
    (m.session v).state ≠ .closed := by
  have hmem : (e, v) ∈ m.store.parked := hl ▸ List.mem_cons_self ..
  rw [((h.session v).elem ((h.session v).listed.1 hmem)).1]
  decide

/-- **The eviction loop ends** with the parked list cut to its limit: it
discards the oldest sessions in excess and no others. -/
theorem evictLoop_popped {m : Mem} (h : m.Linked) {fuel : ℕ} (hf : m.store.parked.length ≤ fuel) :
    Popped m (m.store.parked.length - m.store.opt.maxParked) (m.evictLoop fuel) := by
  induction fuel generalizing m with
  | zero =>
      rw [show m.store.parked.length - m.store.opt.maxParked = 0 by omega]
      exact .zero h
  | succ fuel ih =>
      by_cases hlong : m.store.opt.maxParked < m.store.parked.length
      · cases hl : m.store.parked with
        | nil => simp [hl] at hlong
        | cons x rest =>
            obtain ⟨e, v⟩ := x
            have hrest := h.discard_front hl
            rw [hl, List.length_cons] at hf hlong
            have hpop := ih (h.discard (h.front_open hl)) (by rw [hrest]; omega)
            rw [hrest, discard_opt] at hpop
            rw [evictLoop, hl, List.length_cons, if_pos hlong,
              show rest.length + 1 - m.store.opt.maxParked =
                rest.length - m.store.opt.maxParked + 1 by omega]
            exact .succ h hl hpop
      · rw [evictLoop, if_neg hlong,
          show m.store.parked.length - m.store.opt.maxParked = 0 by omega]
        exact .zero h

/-- The entries at the front of the parked list that a sweep at `now` finds too old. -/
def expiredPrefix (m : Mem) (now : ℤ) : List (ElemRef × SessionRef) :=
  m.store.parked.takeWhile fun x => decide (m.store.opt.ttl < now - (m.session x.2).parked)

/-- **The sweep loop ends** when the front of the list is young enough. -/
theorem sweepLoop_popped {m : Mem} (h : m.Linked) (now : ℤ) {fuel : ℕ}
    (hf : m.store.parked.length ≤ fuel) :
    Popped m (m.expiredPrefix now).length (m.sweepLoop now fuel) := by
  induction fuel generalizing m with
  | zero =>
      have hnil : m.store.parked = [] := List.length_eq_zero_iff.1 (Nat.le_zero.1 hf)
      rw [expiredPrefix, hnil]
      exact .zero h
  | succ fuel ih =>
      cases hl : m.store.parked with
      | nil =>
          rw [expiredPrefix, sweepLoop, hl]
          exact .zero h
      | cons x rest =>
          obtain ⟨e, v⟩ := x
          have hrest := h.discard_front hl
          rw [hl, List.length_cons] at hf
          have hpop := ih (h.discard (h.front_open hl)) (by rw [hrest]; omega)
          rw [sweepLoop, hl]
          dsimp only
          by_cases hold : m.store.opt.ttl < now - (m.session v).parked
          · have hprefix : m.expiredPrefix now = (e, v) :: (m.discard v).expiredPrefix now := by
              rw [expiredPrefix, hl, List.takeWhile_cons_of_pos (by simpa using hold),
                expiredPrefix, hrest]
              simp only [discard_opt, discard_parkTime]
            rw [if_pos hold, hprefix, List.length_cons]
            exact .succ h hl hpop
          · rw [if_neg hold, expiredPrefix, hl,
              List.takeWhile_cons_of_neg (by simpa using hold)]
            exact .zero h

/-- What `attachLocked` does, field by field. -/
theorem attachLocked_eq (m : Mem) (p : SessionRef) (c : ClientRef) (lastSeq : ℕ) :
    (m.attachLocked p c lastSeq).1 =
      { m with
        session := Function.update m.session p ((m.session p).attach c lastSeq)
        client := Function.update m.client c
          { m.client c with session := some p, replay := (m.session p).resumeFrames lastSeq }
        store := { m.store with
          parked := unpark m.store.parked (m.session p).elem
          resumed := m.store.resumed + 1
          replayed := m.store.replayed +
            (((m.session p).buf.ackUpTo lastSeq).after lastSeq).length } } := by
  unfold attachLocked
  cases he : (m.session p).elem with
  | none =>
      simp only [he]
      rfl
  | some e =>
      simp only [he]
      rfl

section attachLocked

variable (m : Mem) (p : SessionRef) (c : ClientRef) (lastSeq : ℕ)

/-- Attaching changes the session attached to and no other. -/
@[simp] theorem attachLocked_session (q : SessionRef) :
    (m.attachLocked p c lastSeq).1.session q =
      if q = p then (m.session p).attach c lastSeq else m.session q := by
  rw [attachLocked_eq]
  exact Function.update_apply ..

/-- Attaching binds the client to the session and queues its replay; no other client changes. -/
@[simp] theorem attachLocked_client (d : ClientRef) :
    (m.attachLocked p c lastSeq).1.client d =
      if d = c then { m.client c with session := some p,
                                      replay := (m.session p).resumeFrames lastSeq }
      else m.client d := by
  rw [attachLocked_eq]
  exact Function.update_apply ..

/-- Attaching changes no entry of the id table. -/
@[simp] theorem attachLocked_sessions :
    (m.attachLocked p c lastSeq).1.store.sessions = m.store.sessions := by
  rw [attachLocked_eq]

/-- A session that is attached to leaves the parked list if it was on it. -/
@[simp] theorem attachLocked_parked :
    (m.attachLocked p c lastSeq).1.store.parked = unpark m.store.parked (m.session p).elem := by
  rw [attachLocked_eq]

/-- Attaching keeps the options. -/
@[simp] theorem attachLocked_opt :
    (m.attachLocked p c lastSeq).1.store.opt = m.store.opt := by
  rw [attachLocked_eq]

/-- Attaching allocates no session. -/
@[simp] theorem attachLocked_sessionCount :
    (m.attachLocked p c lastSeq).1.sessionCount = m.sessionCount := by
  rw [attachLocked_eq]

/-- Attaching allocates no list element. -/
@[simp] theorem attachLocked_elemCount :
    (m.attachLocked p c lastSeq).1.elemCount = m.elemCount := by
  rw [attachLocked_eq]

end attachLocked

/-- Rebinding a stored session to a client. -/
theorem Linked.attachLocked {m : Mem} (h : m.Linked) {p : SessionRef}
    (hp : (m.session p).state ≠ .closed) (c : ClientRef) (lastSeq : ℕ) :
    (m.attachLocked p c lastSeq).1.Linked := by
  refine h.relink (p := p) (fun q hqp => by simp [hqp]) (attachLocked_opt ..)
    (attachLocked_sessionCount ..).ge (attachLocked_elemCount ..).ge ?_ ?_ ?_ ?_
  · intro id q hqp
    rw [attachLocked_sessions]
  · intro e q hqp
    rw [attachLocked_parked]
    exact h.mem_unpark_of_ne hqp
  · rw [attachLocked_parked]
    exact h.nodup_unpark _
  · constructor
    case stored =>
      intro id
      simp [(h.session p).stored, hp, Session.attach]
    case listed =>
      intro e
      simpa [Session.attach] using h.not_mem_unpark e p
    case allocated =>
      intro _
      rw [attachLocked_sessionCount]
      exact (h.session p).allocated hp
    case limits =>
      obtain ⟨hmsgs, hbytes, hkeys⟩ := (h.session p).limits
      obtain ⟨hm, hb⟩ := (m.session p).buf.ackUpTo_caps lastSeq
      rw [attachLocked_opt, attachLocked_session, if_pos rfl]
      exact ⟨hm.trans hmsgs, hb.trans hbytes, hkeys⟩
    all_goals simp [Session.attach]

/-- The memory after a fresh `Open` of the id `id`. -/
def fresh (m : Mem) (c : ClientRef) (owner id : String) (reason : Option Reason) : Mem :=
  { m with
    session := Function.update m.session m.sessionCount (newSession m.store.opt id owner c)
    client := Function.update m.client c
      { m.client c with
        session := some m.sessionCount, replay := [sessionFrame id false 0 0 reason] }
    store := { m.store with
      sessions := Function.update m.store.sessions id (some m.sessionCount) }
    sessionCount := m.sessionCount + 1 }

/-- Without an id to give, `openFresh` opens nothing and releases the victim. -/
theorem openFresh_none (m : Mem) (c : ClientRef) (owner : String) (reason : Option Reason)
    (victim : Option SessionRef) :
    m.openFresh c owner none reason victim =
      (m, { reason := reason }, victim.toList.map fun p => (p, .replaced)) := rfl

/-- With an id, `openFresh` opens a session at the next reference and releases the victim. -/
theorem openFresh_some (m : Mem) (c : ClientRef) (owner id : String) (reason : Option Reason)
    (victim : Option SessionRef) :
    m.openFresh c owner (some id) reason victim =
      (m.fresh c owner id reason, { session := some m.sessionCount, reason := reason },
        victim.toList.map fun p => (p, .replaced)) := rfl

/-- The fresh session sits at the next reference; the others stay as they are. -/
@[simp] theorem fresh_session (m : Mem) (c : ClientRef) (owner id : String)
    (reason : Option Reason) (q : SessionRef) :
    (m.fresh c owner id reason).session q =
      if q = m.sessionCount then newSession m.store.opt id owner c else m.session q :=
  Function.update_apply ..

/-- The client is bound to the fresh session and has its session frame to read first. -/
@[simp] theorem fresh_client (m : Mem) (c : ClientRef) (owner id : String)
    (reason : Option Reason) (d : ClientRef) :
    (m.fresh c owner id reason).client d =
      if d = c then
        { m.client c with
          session := some m.sessionCount, replay := [sessionFrame id false 0 0 reason] }
      else m.client d :=
  Function.update_apply ..

/-- Allocating a session under an id that is not in use. -/
theorem Linked.fresh {m : Mem} (h : m.Linked) (c : ClientRef) (owner : String) {id : String}
    (hid : m.store.sessions id = none) (reason : Option Reason) :
    (m.fresh c owner id reason).Linked := by
  have hclosed : (m.session m.sessionCount).state = .closed := by
    by_contra hs
    exact absurd ((h.session _).allocated hs) (lt_irrefl _)
  have hsessions : ∀ id', (m.fresh c owner id reason).store.sessions id' =
      if id' = id then some m.sessionCount else m.store.sessions id' :=
    fun _ => Function.update_apply ..
  refine h.relink (p := m.sessionCount) (fun q hqp => by simp [hqp]) rfl (Nat.le_succ _) le_rfl
    ?_ (fun _ _ _ => Iff.rfl) h.nodup ?_
  · intro id' q hqp
    rw [hsessions]
    split_ifs with heq
    · simp [heq, hid, Ne.symm hqp]
    · rfl
  · constructor
    case stored =>
      intro id'
      rw [hsessions]
      split_ifs with heq
      · simp [heq, newSession]
      · simp [(h.session _).stored, hclosed, newSession, Ne.symm heq]
    case listed =>
      intro e
      have hno := h.elem_eq_none (p := m.sessionCount) (by rw [hclosed]; decide)
      rw [fresh_session, if_pos rfl]
      exact (h.session _).listed.trans (by simp [hno, newSession])
    case allocated => exact fun _ => Nat.lt_succ_self _
    case limits =>
      rw [fresh_session, if_pos rfl]
      exact ⟨rfl, rfl, rfl⟩
    all_goals simp [newSession]

end Mem
end GoSocket
