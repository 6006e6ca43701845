/-
# Sequence order is wire order

"Sequence assignment and queueing happen under one lock so seq order equals wire order",
says the source of `deliver`.  Here it is said of the goroutines with their locks, and at
every moment, also in the middle of calls: **the numbers on every connection are
consecutive, and no number stands for two frames** on the connections of a session
(`wire_order`).  The replay of a resume and the frames that come live after it are one
piece of the session's log, whoever delivers meanwhile.

The serial run of the calls reaches the memory in which what is left of them is done
(`Calls.virtual`), and that memory has the queues of the real one.  What is known of the
connections in a run with peers (`Net.Inv`) is taken to the serial run with peers that have
read everything at once (`Net.caughtUp`), so that any resume the store accepts is one they
could have asked for.
-/

import GoSocket.Session.Bindings
import GoSocket.Session.Recovery
import GoSocket.Session.Serial

namespace GoSocket

open Lib

namespace Net

variable {n : Net}

/-- The peers have read everything at once. -/
def caughtUp (n : Net) : Net :=
  { n with peer := fun p => ⟨(n.mem.session p).frames.length, (n.mem.session p).frames⟩ }

/-- Peers that have read everything fit the invariant: it bounds what a peer has read from below. -/
theorem Inv.caughtUp (h : n.Inv) : n.caughtUp.Inv where
  store := h.store
  logged := h.logged
  fresh := h.fresh
  events := h.events
  peer _ := ⟨le_rfl, (List.take_length ..).symm⟩
  unopened := h.unopened
  unbound := h.unbound
  bound c p hc :=
    (h.bound c p hc).mono le_rfl (.refl _) rfl rfl (List.prefix_refl _) (h.peer p).last_le
  live := h.live

/-- A run with peers that ends in this memory; a connection without a session can still
open one. -/
structure Matches (n : Net) (m : Mem) : Prop where
  inv : n.Inv
  mem : n.mem = m
  unopened : ∀ c, (m.client c).session = none → n.opened c = false

/-- An allowed call keeps the invariant. -/
theorem Inv.call (h : n.Inv) {op : Op} {m' : Mem} (hop : n.Allowed op) (hstep : n.mem.Step op m') :
    (n.record op m').Inv := by
  refine h.step (a := .call op) ?_
  rw [Step, Net.step, if_pos hop, hstep]
  rfl

/-- `Open` for a connection without a session. -/
theorem Matches.open {m : Mem} (h : n.Matches m) {c : ClientRef} {req : ResumeRequest} {now : ℤ}
    {newID : Option String} (hid : ∀ id ∈ newID, m.store.sessions id = none)
    (hc : (m.client c).session = none) : ∃ n', Matches n' (m.open c req now newID).1 := by
  obtain ⟨hinv, rfl, hunopened⟩ := h
  have hstep : n.mem.Step (.openSession c req now newID) (n.mem.open c req now newID).1 :=
    if_pos hid
  have hstore := hinv.store.step hstep
  have hlogged := fun q => (hinv.store.step_touched hstep q).logged (hinv.logged q)
  have hsame : ∀ d ≠ c, ((n.mem.open c req now newID).1.client d).session =
      (n.mem.client d).session := by
    intro d hd
    rcases (Mem.step_clientTouched hinv.store hstep d).session with heq | ⟨_, _, _, _, hop, -⟩
    · exact heq
    · cases hop
      exact absurd rfl hd
  -- once it is bound, the connection is the only one that was opened by this call
  have hopened : ∀ d, ((n.mem.open c req now newID).1.client d).session = none →
      ((n.mem.open c req now newID).1.client c).session ≠ none →
      Function.update n.opened c true d = false := by
    intro d hd hbound
    have hdc : d ≠ c := by
      rintro rfl
      exact hbound hd
    rw [Function.update_of_ne hdc]
    exact hunopened d ((hsame d hdc).symm.trans hd)
  have hno := hunopened c hc
  obtain ⟨m', res, due, hopen, ho⟩ := n.mem.exists_opened c req now newID
  cases ho with
  | @resumed p hvalid hreq hs hv =>
      have hlast : req.lastSeq ≤ (n.mem.session p).frames.length := by
        have hlt := (Session.verdict_eq_none.1 hv).2.2.2.1
        rw [(hinv.logged p).next_eq] at hlt
        rw [Session.length_frames]
        exact Nat.lt_succ_iff.1 hlt
      refine ⟨_, hinv.caughtUp.open hid ⟨hno, fun _ _ q hq => ?_⟩, rfl, fun d hd => ?_⟩
      · obtain rfl : p = q := Option.some.inj (hs.symm.trans hq)
        exact hlast
      · exact hopened d hd (by rw [hopen]; simp)
  | unbound hnew hr =>
      refine ⟨{ n with mem := m' }, hinv.refused hr, by rw [hopen], fun d hd => hunopened d ?_⟩
      rw [hopen] at hd
      exact hr.client_eq.1 ▸ hd
  | @fresh m₁ reason victim id hnew hr =>
      rw [hopen] at hstore hlogged hopened
      have h₁ := hinv.refused hr
      have hempty : (m₁.session m₁.sessionCount).committed = [] := h₁.fresh _ le_rfl
      have hreplay : sequenced [sessionFrame id false 0 0 reason] =
          (m₁.session m₁.sessionCount).frames.drop 0 := by
        rw [sequenced_cons_none (frameSeq_sessionFrame ..), Session.frames, Session.log, hempty]
        rfl
      refine ⟨_, h₁.bind hno hstore hlogged (Nat.le_succ _) (Nat.lt_succ_self _)
        (fun q hqp => by simp [hqp]) (by simpa [newSession] using hempty.symm)
        (by simp [newSession]) (fun d hdc => by simp [hdc]) (by simp) hreplay (Nat.zero_le _),
        by rw [hopen], fun d hd => ?_⟩
      exact hopened d (by rw [hopen] at hd; exact hd) (by simp)

/-- **Every call of a serial run is a step with such peers.** -/
theorem Matches.call {m m' : Mem} {x : Thread × Op × Reply} (h : n.Matches m) (hcall : m.Call x m')
    (hx : x.2.1.Sends IsEvent) : ∃ n', Matches n' m' := by
  obtain ⟨t, op, reply⟩ := x
  obtain ⟨hstep, -, hadmit⟩ := hcall
  by_cases hop : ∃ c req now newID, op = .openSession c req now newID
  · obtain ⟨c, req, now, newID, rfl⟩ := hop
    cases hstep.took with
    | openSession _ _ _ _ hid => exact h.open hid hadmit
  · obtain ⟨hinv, rfl, hunopened⟩ := h
    have hop' : ∀ c req now newID, op ≠ .openSession c req now newID :=
      fun c req now newID heq => hop ⟨c, req, now, newID, heq⟩
    have hallowed : n.Allowed op := by
      cases op with
      | openSession => exact absurd rfl (hop' _ _ _ _)
      | deliver | trySend => exact hx
      | write c =>
          by_contra hno
          rw [Allowed, Bool.not_eq_true] at hno
          exact hadmit (hinv.unopened c hno).1
      | _ => trivial
    have hrecord : n.record op m' = { n with mem := m' } := by
      cases op with
      | openSession => exact absurd rfl (hop' _ _ _ _)
      | _ => rfl
    refine ⟨{ n with mem := m' }, hrecord ▸ hinv.call hallowed hstep, rfl, fun c hc => ?_⟩
    refine hunopened c ?_
    rcases (Mem.step_clientTouched hinv.store hstep c).session with heq | ⟨_, _, _, _, heq, -⟩
    · exact heq ▸ hc
    · exact absurd heq (hop' _ _ _ _)

/-- A serial run of calls that send events is matched by a run with peers. -/
theorem Matches.steps {m m' : Mem} {calls : List (Thread × Op × Reply)}
    (hrun : Steps Mem.Call m calls m') (hcalls : ∀ y ∈ calls, y.2.1.Sends IsEvent)
    (h : n.Matches m) : ∃ n', Matches n' m' := by
  induction hrun generalizing n with
  | nil m => exact ⟨n, h⟩
  | cons hcall _ ih =>
      obtain ⟨n₁, h₁⟩ := h.call hcall (hcalls _ (List.mem_cons_self ..))
      exact ih (fun y hy => hcalls y (List.mem_cons_of_mem _ hy)) h₁

end Net

/-- What is left of a broadcast sends this. -/
def After.Sends (P : Bytes → Prop) : After → Prop
  | .ret => True
  | .cast _ data _ => P data

namespace Pc

/-- What the call sends is of this kind. -/
def Sends (P : Bytes → Prop) : Pc → Prop
  | .deliver _ data _ k | .delivering _ data _ k | .queued _ data _ _ _ k
  | .delivered _ data _ _ k => P data ∧ k.Sends P
  | .cast _ data _ | .casting _ data _ => P data
  | .bound _ op _ | .done op _ => op.Sends P
  | _ => True

variable {P : Bytes → Prop} {m : Mem} {pc : Pc} {mv : Move Mem Lock Pc} {draw : Option String}

/-- A move sends only what its call does. -/
theorem Moves.sends (h : Moves draw m pc mv) (hpc : pc.Sends P) : mv.point.Sends P := by
  cases h with
  | @delivered p data pol ok k =>
      cases k with
      | ret => trivial
      | cast rest data pol => exact hpc.2
  | castNext => exact ⟨hpc, hpc⟩
  | @loopDone k | @popYoung k => cases k <;> trivial
  | _ => first | exact hpc | trivial

/-- A promised call sends only what the call at that point does. -/
theorem Sends.promise (h : pc.Sends P) {x : Op × Reply} (hx : pc.promise m = some x) :
    x.1.Sends P := by
  cases pc with
  | queued | delivered =>
      obtain rfl := Option.some.inj hx
      exact h.1
  | bound | done =>
      obtain rfl := Option.some.inj hx
      exact h
  | touched p x =>
      obtain rfl := Option.some.inj hx
      cases x <;> trivial
  | popLoop k | popFront k | popHeld k | popClosed k | popFreed k | popYoung k =>
      obtain rfl := Option.some.inj hx
      cases k <;> trivial
  | refused | making | parked =>
      obtain rfl := Option.some.inj hx
      trivial
  | _ => cases hx

end Pc

/-- What the call sends that starts here is of this kind. -/
def CallStep.Sends (P : Bytes → Prop) : CallStep → Prop
  | .start _ pc => pc.Sends P
  | .advance .. | .poke .. => True

instance {P : Bytes → Prop} [DecidablePred P] (k : After) : Decidable (k.Sends P) := by
  unfold After.Sends
  split <;> infer_instance

instance {P : Bytes → Prop} [DecidablePred P] (op : Op) : Decidable (op.Sends P) := by
  induction op using Op.casesOn <;> dsimp only [Op.Sends] <;> infer_instance

instance {P : Bytes → Prop} [DecidablePred P] (pc : Pc) : Decidable (pc.Sends P) := by
  induction pc using Pc.casesOn <;> dsimp only [Pc.Sends] <;> infer_instance

instance {P : Bytes → Prop} [DecidablePred P] (a : CallStep) : Decidable (a.Sends P) := by
  unfold CallStep.Sends
  split <;> infer_instance

namespace Calls

variable {P : Bytes → Prop} {f g : Calls}

/-- Everything that is sent is of this kind. -/
structure Sends (P : Bytes → Prop) (f : Calls) : Prop where
  pc : ∀ t, (f.pc t).Sends P
  hist : ∀ t, ∀ x ∈ f.hist t, x.1.Sends P

/-- Every step keeps the calls in flight to sending frames of the kind started with. -/
theorem Sends.step {a : CallStep} (h : f.Sends P) (ha : a.Sends P) (hstep : f.Step a g) :
    g.Sends P := by
  have hput : ∀ {t : Thread} {pc : Pc}, pc.Sends P → ∀ u,
      (Function.update f.pool.thread t pc u).Sends P := by
    intro t pc hpc u
    rw [Function.update_apply]
    split_ifs
    · exact hpc
    · exact h.pc u
  have hadd : ∀ {t : Thread} {xs : List (Op × Reply)}, (∀ x ∈ xs, x.1.Sends P) → ∀ u,
      ∀ x ∈ Function.update f.hist t (f.hist t ++ xs) u, x.1.Sends P := by
    intro t xs hxs u x hx
    rw [Function.update_apply] at hx
    split_ifs at hx
    · rcases List.mem_append.1 hx with hx | hx
      · exact h.hist t x hx
      · exact hxs x hx
    · exact h.hist u x hx
  cases hstep.took with
  | start => exact ⟨hput ha, h.hist⟩
  | @advance t draw q hq =>
      obtain ⟨mv, hmv⟩ := moved hq
      refine ⟨fun u => ?_, hadd fun x hx => ?_⟩
      · by_cases hu : u = t
        · subst hu
          rw [hmv.point]
          exact hmv.moves.sends (h.pc u)
        · rw [hmv.others u hu]
          exact h.pc u
      · rw [Option.mem_toList] at hx
        exact (h.pc t).promise ((Pc.answers_eq_promise f.mem (by rw [hx]; simp)).symm.trans hx)
  | @poke t c x op hop =>
      refine ⟨hput trivial, hadd fun y hy => ?_⟩
      obtain rfl := List.mem_singleton.1 hy
      cases x <;> first | (cases hop; done) | (obtain rfl := Option.some.inj hop; trivial)

/-- A run in which only such frames are sent. -/
abbrev SendStep (P : Bytes → Prop) : Calls → CallStep → Calls → Prop :=
  Guarded (fun _ a => a.Sends P) Step

section reachable

variable {opt : SessionOptions} {digest : String → String} {sendBuffer : ClientRef → ℤ}
  (h : Reachable (SendStep IsEvent) (init opt digest sendBuffer) f)

include h

/-- There is a run with peers to the memory in which everything is done. -/
theorem exists_matches : f.Apt ∧ ∃ n : Net, n.Matches f.virtual := by
  have hsends : f.Sends IsEvent :=
    h.invariant ⟨fun _ => trivial, fun _ _ hx => nomatch hx⟩
      fun _ _ _ hf hstep => hf.step hstep.1 hstep.2
  obtain ⟨hf, m, pre, post, hs⟩ := Serial.of_reachable h.of_guarded
  refine ⟨hf, ?_⟩
  have hinit : (Net.init opt digest sendBuffer).Matches (newSessionStore opt digest sendBuffer) :=
    ⟨Net.inv_init opt digest sendBuffer, rfl, fun _ _ => rfl⟩
  refine hinit.steps (hs.before.append hs.after) fun y hy => ?_
  -- a call of the serial run was made, so what it sends was
  have hserved : y.2 ∈ served y.1 (pre ++ post) :=
    List.mem_map_of_mem (List.mem_filter.2 ⟨hy, by simp⟩)
  have hmem := (hs.replies y.1).perm.mem_iff.1 hserved
  rcases List.mem_append.1 hmem with hmem | hmem
  · exact hsends.hist y.1 y.2 hmem
  · exact (hsends.pc y.1).promise (Option.mem_toList.1 hmem)

omit h in
/-- A connection that has its session has the same queues once everything is done. -/
theorem client_virtual (hf : f.Apt) {c : ClientRef} {p : SessionRef}
    (hc : (f.mem.client c).session = some p) : f.virtual.client c = f.mem.client c := by
  refine (hf.inv.good.rest_client c).2 fun hbinds => ?_
  have hnone : (f.mem.client c).session = none := by
    unfold holder at hbinds
    split at hbinds
    · cases hbinds
    · exact hf.unbound _ c (Pc.opens_of_binds hbinds)
  rw [hnone] at hc
  cases hc

/-- **Sequence order is wire order, at every moment.**  When the frames sent are JSON objects
without a number of their own, then whatever the goroutines are in the middle of, the sequenced
frames a connection was given carry consecutive numbers, and two frames of one session with the
same number, on whichever of its connections, are the same frame. -/
theorem wire_order {c d : ClientRef} {p : SessionRef} (hc : (f.mem.client c).session = some p)
    (hd : (f.mem.client d).session = some p) :
    (∃ k n, (f.mem.client c).carried.filterMap frameSeq = List.range' k n) ∧
      ∀ x ∈ (f.mem.client c).carried, ∀ y ∈ (f.mem.client d).carried,
        (frameSeq x).isSome → frameSeq x = frameSeq y → x = y := by
  obtain ⟨hf, n, hinv, hmem, -⟩ := exists_matches h
  have hslice : ∀ {b}, (f.mem.client b).session = some p →
      sequenced (f.mem.client b).carried <+: (n.mem.session p).frames.drop (n.start b) := by
    intro b hb
    have hclient : n.mem.client b = f.mem.client b := by rw [hmem, client_virtual hf hb]
    have hslice := (hinv.bound b p (by rw [hclient, hb])).slice
    rwa [hclient] at hslice
  have hnum := Session.numbered_frames (hinv.events p)
  refine ⟨⟨n.start c + 1, _, (filterMap_frameSeq _).trans (hnum.map_key_of_prefix (hslice hc))⟩,
    fun x hx y hy hsome hxy => ?_⟩
  have hat : ∀ {b z}, (f.mem.client b).session = some p → z ∈ (f.mem.client b).carried →
      (frameSeq z).isSome → z ∈ (n.mem.session p).frames := by
    intro b z hb hz hz'
    have hmem : z ∈ sequenced (f.mem.client b).carried := List.mem_filter.2 ⟨hz, hz'⟩
    exact List.mem_of_mem_drop ((hslice hb).subset hmem)
  refine hnum.eq_of_key_eq (hat hc hx hsome) (hat hd hy (hxy ▸ hsome)) ?_
  rw [seqKey, seqKey, hxy]

end reachable

/-- A session is resumed by a second connection, and a delivery to it has put its frame on the
queue but has not committed it. -/
def resumeMeetsDeliver : List CallStep :=
  [.start 0 (.openCall ⟨0, ⟨false, false, "", 0, ""⟩, 0⟩), .advance 0 (some "a")] ++
    List.replicate 4 (.advance 0 none) ++
    [.start 1 (.deliver 0 (ascii "\x7b\x7d") .disconnect .ret)] ++
    List.replicate 4 (.advance 1 none) ++
    [.start 0 (.openCall ⟨1, ⟨true, false, "a", 0, ""⟩, 0⟩)] ++
    List.replicate 7 (.advance 0 none) ++
    [.start 1 (.deliver 0 (ascii "\x7b\x7d") .disconnect .ret)] ++
    List.replicate 2 (.advance 1 none)

/-- The new connection carries the numbers 1 and 2, though 2 is still the next number of the
session. -/
theorem wire_order_resumeMeetsDeliver :
    ∃ f : Calls, Reachable (SendStep IsEvent) (init ⟨0, 0, 0, 0, 0⟩ id fun _ => 0) f ∧
      (f.mem.session 0).next = 2 ∧ (f.mem.client 1).carried.filterMap frameSeq = [1, 2] ∧
      (f.mem.client 1).session = some 0 ∧ (f.mem.client 0).session = some 0 ∧
      (∃ k n, (f.mem.client 1).carried.filterMap frameSeq = List.range' k n) ∧
      ∀ x ∈ (f.mem.client 1).carried, ∀ y ∈ (f.mem.client 0).carried,
        (frameSeq x).isSome → frameSeq x = frameSeq y → x = y := by
  obtain ⟨f, hf, hp⟩ := Reachable.of_exec_guarded step resumeMeetsDeliver
    (G := fun _ a => a.Sends IsEvent) (s := init ⟨0, 0, 0, 0, 0⟩ id fun _ => 0)
    (p := fun f => (f.mem.session 0).next = 2 ∧
      (f.mem.client 1).carried.filterMap frameSeq = [1, 2] ∧
      (f.mem.client 1).session = some 0 ∧ (f.mem.client 0).session = some 0) (by decide +kernel)
  obtain ⟨hnext, hnumbers, h1, h0⟩ := of_decide_eq_true hp
  obtain ⟨hrun, hsame⟩ := wire_order hf h1 h0
  exact ⟨f, hf, hnext, hnumbers, h1, h0, hrun, hsame⟩

end Calls
end GoSocket
