/-
# Sessions are released once

`Sweep`, the eviction in `Leave` and a refused resume discard sessions under the
store lock and call `Release` after dropping it; a terminal `Leave` discards its
session and calls nothing.  `releaseSession` runs the `OnSessionExpire` callbacks
unless the session was replaced.

`History` records what happened, independently of the lists of calls: which
operation closed each session, and whether a session was parked and not resumed
since.  In every run, the `Release` calls due or done for a session are exactly
the one its cause asks for.
-/

import GoSocket.Server.Layer

namespace GoSocket

open Lib

/-- How a session ended. -/
inductive Cause where
  | expired
  | evicted
  | replaced
  | ended
  deriving DecidableEq, Repr

/-- The `Release` calls a cause asks for: none for a session ended by a terminal `Leave`. -/
def Cause.releases (p : SessionRef) : Cause → List Release
  | .expired => [(p, .expired)]
  | .evicted => [(p, .evicted)]
  | .replaced => [(p, .replaced)]
  | .ended => []

/-- The cause of a session that a call has closed: a `Leave` ends the session it is
called on and evicts others. -/
def Op.cause (p : SessionRef) : Op → Option Cause
  | .sweep _ => some .expired
  | .openSession .. => some .replaced
  | .leave q .. => some (if q = p then .ended else .evicted)
  | _ => none

namespace Mem

variable {m m' : Mem} {op : Op}

/-- The `Release` calls that are due after a call. -/
def releases (m : Mem) : Op → List Release
  | .openSession c req now newID => (m.open c req now newID).2.2
  | .leave p c resumable now => (m.leave p c resumable now).2.2
  | .sweep now => (m.sweep now).2
  | _ => []

/-- The session was open before the call and is closed after it. -/
def Closes (m m' : Mem) (p : SessionRef) : Prop :=
  (m.session p).state ≠ .closed ∧ (m'.session p).state = .closed

instance (m m' : Mem) (p : SessionRef) : Decidable (Closes m m' p) :=
  inferInstanceAs (Decidable (_ ∧ _))

/-- No session is twice in the parked list. -/
theorem Linked.nodup_sessions (h : m.Linked) : (m.store.parked.map Prod.snd).Nodup := by
  refine List.Nodup.map_on (fun x hx y hy hxy => ?_) (List.Nodup.of_map _ h.nodup)
  obtain ⟨e, p⟩ := x
  obtain ⟨e', q⟩ := y
  obtain rfl : p = q := hxy
  have := ((h.session p).listed.1 hx).symm.trans ((h.session p).listed.1 hy)
  rw [Option.some.inj this]

/-- A loop pops no session twice. -/
theorem Popped.nodup {k : ℕ} {r : Mem × List SessionRef} (h : m.Linked) (hp : Popped m k r) :
    r.2.Nodup := by
  rw [hp.sessions]
  exact h.nodup_sessions.sublist ((List.take_sublist _ _).map _)

/-- The calls for one session in a list of calls for different sessions. -/
theorem filter_map_pair {l : List SessionRef} (hl : l.Nodup) (why : ReleaseReason)
    (p : SessionRef) :
    (l.map fun v => (v, why)).filter (fun x => x.1 = p) = if p ∈ l then [(p, why)] else [] := by
  induction l with
  | nil => rfl
  | cons v l ih =>
      obtain ⟨hv, hl⟩ := List.nodup_cons.1 hl
      rw [List.map_cons]
      by_cases hvp : v = p
      · subst hvp
        rw [List.filter_cons_of_pos (by simp), ih hl, if_neg hv, if_pos List.mem_cons_self]
      · rw [List.filter_cons_of_neg (by simpa using hvp), ih hl]
        simp [Ne.symm hvp]

/-- A call that discards the sessions `l` and closes no others has the calls for
them due. -/
theorem filter_releases {l : List SessionRef} (hl : l.Nodup) (why : ReleaseReason)
    {p : SessionRef} (hiff : p ∈ l ↔ Closes m m' p) :
    (l.map fun v => (v, why)).filter (fun x => x.1 = p) =
      if Closes m m' p then [(p, why)] else [] := by
  rw [filter_map_pair hl]
  exact if_congr hiff rfl rfl

theorem not_closes_self (m : Mem) (p : SessionRef) : ¬ Closes m m p := fun h => h.1 h.2

/-- What is popped off the parked list is closed, and nothing else is. -/
theorem Popped.mem_iff_closes {k : ℕ} {r : Mem × List SessionRef} (h : m.Linked)
    (hp : Popped m k r) (p : SessionRef) : p ∈ r.2 ↔ Closes m r.1 p := by
  rw [Closes, hp.session_eq]
  constructor
  · intro hmem
    rw [if_pos hmem, (hp.open_of_mem h hmem).1]
    exact ⟨by decide, rfl⟩
  · rintro ⟨hopen, hclosed⟩
    by_contra hmem
    rw [if_neg hmem] at hclosed
    exact hopen hclosed

/-- **A sweep releases what it closes.** -/
theorem releases_sweep (h : m.StoreInv) (now : ℤ) (p : SessionRef) :
    (m.sweep now).2.filter (fun x => x.1 = p) =
      if Closes m (m.sweep now).1 p then [(p, .expired)] else [] := by
  obtain ⟨r, hpop, heq⟩ := sweep_popped h.linked now
  rw [heq]
  exact filter_releases (hpop.nodup h.linked) _ (hpop.mem_iff_closes h.linked p)

/-- A refused resume closes its victim, and nothing else. -/
theorem Refused.mem_iff_closes {req : ResumeRequest} {now : ℤ} {m₁ : Mem}
    {reason : Option Reason} {victim : Option SessionRef} (hr : Refused m req now m₁ reason victim)
    (p : SessionRef) : p ∈ victim.toList ↔ Closes m m₁ p := by
  cases hr with
  | kept => exact iff_of_false List.not_mem_nil (not_closes_self m p)
  | @killed q reason hinv hreq hs hv =>
      rw [Closes, discard_session, Option.toList_some, List.mem_singleton]
      constructor
      · rintro rfl
        rw [if_pos rfl]
        exact ⟨(Session.verdict_kill (by rw [hv])).1, rfl⟩
      · rintro ⟨hopen, hclosed⟩
        by_contra hpq
        rw [if_neg hpq] at hclosed
        exact hopen hclosed

/-- **A refused resume releases what it closes.** -/
theorem releases_open (h : m.StoreInv) (c : ClientRef) (req : ResumeRequest) (now : ℤ)
    (newID : Option String) (p : SessionRef) :
    (m.open c req now newID).2.2.filter (fun x => x.1 = p) =
      if Closes m (m.open c req now newID).1 p then [(p, .replaced)] else [] := by
  obtain ⟨m', res, due, hopen, ho⟩ := m.exists_opened c req now newID
  rw [hopen]
  cases ho with
  | @resumed q hinv hreq hs hv =>
      rw [if_neg, List.filter_nil]
      rintro ⟨hopen, hclosed⟩
      rw [attachLocked_session] at hclosed
      split_ifs at hclosed with hpq
      · cases hclosed
      · exact hopen hclosed
  | @unbound m₁ reason victim _ hr =>
      refine filter_releases ?_ _ (hr.mem_iff_closes p)
      cases victim <;> simp
  | @fresh m₁ reason victim id _ hr =>
      refine filter_releases (by cases victim <;> simp) _ ((hr.mem_iff_closes p).trans ?_)
      refine and_congr_right fun hopen => ?_
      rw [fresh_session, if_neg]
      rintro rfl
      have := (h.linked.session _).allocated hopen
      rw [hr.client_eq.2.1] at this
      exact this.false

/-- **A `Leave` releases the sessions it evicts**, and not the one it ends. -/
theorem releases_leave (h : m.StoreInv) (q : SessionRef) (c : ClientRef) (resumable : Bool)
    (now : ℤ) (p : SessionRef) :
    (m.leave q c resumable now).2.2.filter (fun x => x.1 = p) =
      if Closes m (m.leave q c resumable now).1 p then
        (if q = p then Cause.ended else Cause.evicted).releases p
      else [] := by
  obtain ⟨m', res, due, hleave, hl⟩ := h.linked.exists_left q c resumable now
  rw [hleave]
  cases hl with
  | gone => rw [if_neg (not_closes_self m p), List.filter_nil]
  | displaced => rw [if_neg (not_closes_self m p), List.filter_nil]
  | ended hopen hlive _ =>
      rw [List.filter_nil]
      split_ifs with hcl hqp
      · rfl
      · refine absurd hcl.2 ?_
        rw [setSession_session, if_neg (Ne.symm hqp), discard_session, if_neg (Ne.symm hqp)]
        exact hcl.1
      · rfl
  | @parked r hatt hlive hres hpop =>
      have hlinked := h.linked.park hatt c now
      have hiff : p ∈ r.2 ↔ Closes m r.1 p := by
        rw [hpop.mem_iff_closes hlinked p]
        refine and_congr_left fun _ => ?_
        rw [park_session]
        split_ifs with hpq
        · subst hpq
          simp [hatt]
        · exact Iff.rfl
      rw [filter_releases (hpop.nodup hlinked) _ hiff]
      split_ifs with hcl hqp
      · subst hqp
        exact absurd (hiff.2 hcl) (h.not_evicted hatt hpop)
      · rfl
      · rfl

/-- A call other than `Open`, `Leave` and `Sweep` closes nothing. -/
theorem Touched.not_closes {s : Session} {p : SessionRef} (ht : Touched m op p s)
    (hcause : op.cause p = none) (hopen : (m.session p).state ≠ .closed) : s.state ≠ .closed := by
  cases ht with
  | same => exact hopen
  | @delivered data pol _ =>
      obtain ⟨_, _, _, _, _, hd⟩ := (m.session p).deliver_frame (m.liveClient p) data pol
      rw [hd]
      exact hopen
  | acked =>
      unfold Session.ack
      split_ifs <;> exact hopen
  | claimed => exact fun hs => hopen hs
  | allocated hop => subst hop; cases hcause
  | attached hop => subst hop; cases hcause
  | parked hop => subst hop; cases hcause
  | expired hop => subst hop; cases hcause
  | evicted hop => subst hop; cases hcause
  | refused hop => subst hop; cases hcause
  | ended hop => subst hop; cases hcause

/-- A session that is expired or evicted was parked. -/
theorem Touched.parked_of_cause {s : Session} {p : SessionRef} (ht : Touched m op p s)
    (hopen : (m.session p).state ≠ .closed) (hclosed : s.state = .closed)
    (hcause : op.cause p = some .expired ∨ op.cause p = some .evicted) :
    (m.session p).state = .parked := by
  cases ht with
  | same => exact absurd hclosed hopen
  | expired _ hpark => exact hpark
  | evicted _ _ hpark => exact hpark
  | refused hop =>
      subst hop
      rcases hcause with hcause | hcause <;> cases hcause
  | ended hop =>
      subst hop
      rcases hcause with hcause | hcause <;> simp [Op.cause] at hcause
  | allocated => cases hclosed
  | attached => cases hclosed
  | parked => cases hclosed
  | delivered hop =>
      rcases hop with rfl | ⟨c, rfl, -⟩ <;> rcases hcause with hcause | hcause <;> cases hcause
  | acked hop =>
      subst hop
      rcases hcause with hcause | hcause <;> cases hcause
  | claimed hop =>
      subst hop
      rcases hcause with hcause | hcause <;> cases hcause

/-- A parked session was parked before, or its live client has just left it. -/
theorem Touched.parked_cases {s : Session} {p : SessionRef} (ht : Touched m op p s)
    (hs : s.state = .parked) :
    (m.session p).state = .parked ∨ ∃ c now, op = .leave p c true now ∧
      (m.session p).state = .attached ∧ (m.session p).live = some c := by
  cases ht with
  | same => exact Or.inl hs
  | parked hop hatt hlive => exact Or.inr ⟨_, _, hop, hatt, hlive⟩
  | @delivered data pol _ =>
      obtain ⟨_, _, _, _, _, hd⟩ := (m.session p).deliver_frame (m.liveClient p) data pol
      rw [hd] at hs
      exact Or.inl hs
  | acked =>
      unfold Session.ack at hs
      split_ifs at hs <;> exact Or.inl hs
  | claimed => exact Or.inl hs
  | allocated => cases hs
  | attached => cases hs
  | expired => cases hs
  | evicted => cases hs
  | refused => cases hs
  | ended => cases hs

/-- **The `Release` calls due after a call are those of the sessions it closed.** -/
theorem releases_eq (h : m.StoreInv) (hstep : m.Step op m') (p : SessionRef) :
    (m.releases op).filter (fun x => x.1 = p) =
      if Closes m m' p then (op.cause p).elim [] (Cause.releases p) else [] := by
  have hrest : op.cause p = none → ([] : List Release) =
      if Closes m m' p then (op.cause p).elim [] (Cause.releases p) else [] := by
    intro hcause
    rw [hcause]
    exact (ite_self _).symm
  cases hstep.took with
  | openSession c req now newID => exact releases_open h c req now newID p
  | leave q c resumable now => exact releases_leave h q c resumable now p
  | sweep now => exact releases_sweep h now p
  | _ => exact hrest rfl

end Mem

namespace Layer

variable {f f' : Layer} {a : LayerOp}

/-- The `Release` calls for the session at `p` that are due or have run. -/
def releasesOf (f : Layer) (p : SessionRef) : List Release :=
  (f.due ++ f.released).filter fun x => x.1 = p

/-- The sessions the `OnSessionExpire` callbacks have run for: `releaseSession`
returns before them when the session was replaced. -/
def expireCallbacks (f : Layer) : List SessionRef :=
  (f.released.filter fun x => x.2 ≠ .replaced).map Prod.fst

/-- A step adds the calls that its own call makes due, or runs one that is due. -/
theorem Step.releases (hstep : f.Step a f') :
    (f'.due = f.due ++ (f.call a).elim [] f.mem.releases ∧ f'.released = f.released) ∨
      ∃ x ∈ f.due, f.call a = none ∧ f'.due = f.due.erase x ∧ f'.released = f.released ++ [x] := by
  obtain ⟨hen, heq, -⟩ := hstep.cases
  rw [heq]
  cases a with
  | release x => exact Or.inr ⟨x, hen, rfl, rfl, rfl⟩
  | send c data pol =>
      refine Or.inl ?_
      simp only [record, call, Option.elim_some, Mem.releases, List.append_nil]
      split_ifs <;> exact ⟨rfl, rfl⟩
  | leave c now =>
      refine Or.inl ?_
      simp only [record, call]
      split
      · exact ⟨rfl, rfl⟩
      · exact ⟨(List.append_nil _).symm, rfl⟩
  | ack c seq =>
      refine Or.inl ⟨?_, rfl⟩
      cases hs : (f.mem.client c).session <;> simp [record, call, hs, Mem.releases]
  | claimKey c key =>
      refine Or.inl ⟨?_, rfl⟩
      cases hs : (f.mem.client c).session <;> simp [record, call, hs, Mem.releases]
  | openSession => exact Or.inl ⟨rfl, rfl⟩
  | sweep => exact Or.inl ⟨rfl, rfl⟩
  | _ => exact Or.inl ⟨(List.append_nil _).symm, rfl⟩

/-- The sessions whose release is due are closed. -/
def DueClosed (f : Layer) : Prop :=
  ∀ x ∈ f.due, x.1 < f.mem.sessionCount ∧ (f.mem.session x.1).state = .closed

/-- Every step keeps the sessions due for release closed. -/
theorem DueClosed.step (hd : f.DueClosed) (h : f.Inv) (hstep : f.Step a f') : f'.DueClosed := by
  intro x hx
  have hold : x ∈ f.due → x.1 < f'.mem.sessionCount ∧ (f'.mem.session x.1).state = .closed := by
    intro hx
    obtain ⟨hp, hclosed⟩ := hd x hx
    refine ⟨hp.trans_le (hstep.sessionCount_le h), ?_⟩
    rcases hstep.session h x.1 with heq | ⟨op, -, ht⟩
    · rw [heq]
      exact hclosed
    · exact ht.closed hp hclosed
  rcases hstep.releases with ⟨hdue, -⟩ | ⟨y, -, -, hdue, -⟩
  · rw [hdue, List.mem_append] at hx
    rcases hx with hx | hx
    · exact hold hx
    · obtain ⟨-, -, ⟨hop, -⟩ | ⟨op, hop, hm⟩⟩ := hstep.cases
      · rw [hop] at hx
        cases hx
      · rw [hop] at hx
        have hfilter : x ∈ (f.mem.releases op).filter fun y => y.1 = x.1 :=
          List.mem_filter.2 ⟨hx, decide_eq_true rfl⟩
        rw [Mem.releases_eq h.store hm] at hfilter
        split_ifs at hfilter with hcl
        · exact ⟨((h.store.linked.session x.1).allocated hcl.1).trans_le
            (hstep.sessionCount_le h), hcl.2⟩
        · cases hfilter
  · rw [hdue] at hx
    exact hold (List.mem_of_mem_erase hx)

end Layer

/-- What happened to each session, written down beside a run. -/
structure History where
  /-- How the session ended. -/
  cause : SessionRef → Option Cause
  /-- The session was parked, and its last park was not followed by a resume. -/
  unresumed : SessionRef → Bool

/-- Nothing has happened yet. -/
def History.start : History where
  cause := fun _ => none
  unresumed := fun _ => false

/-- The step `a` from `f` to `f'` is added to the history: what a call has closed,
the park that a `Leave` reports and the resume that an `Open` reports. -/
def History.next (h : History) (f : Layer) (a : LayerOp) (f' : Layer) : History where
  cause p := if Mem.Closes f.mem f'.mem p then (f.call a).bind (Op.cause p) else h.cause p
  unresumed p :=
    match f.call a with
    | some (.leave q c resumable now) =>
        if q = p ∧ (f.mem.leave q c resumable now).2.1 = .parked then true else h.unresumed p
    | some (.openSession c req now newID) =>
        let res := (f.mem.open c req now newID).2.1
        if res.resumed = true ∧ res.session = some p then false else h.unresumed p
    | _ => h.unresumed p

/-- The layer and its history. -/
structure Watched where
  layer : Layer
  history : History

namespace Watched

/-- A server that has just started. -/
def init (opt : SessionOptions) (digest : String → String) (sendBuffer : ClientRef → ℤ) :
    Watched :=
  ⟨.init opt digest sendBuffer, .start⟩

/-- A step of the layer, written down. -/
def step (w : Watched) (a : LayerOp) : Option Watched :=
  (w.layer.step a).map fun f' => ⟨f', w.history.next w.layer a f'⟩

/-- The step relation of the watched layer. -/
def Step (w : Watched) (a : LayerOp) (w' : Watched) : Prop := w.step a = some w'

variable {w w' : Watched} {a : LayerOp}

/-- The calls and the history agree. -/
structure Accounted (w : Watched) : Prop where
  inv : w.layer.Inv
  /-- Exactly the calls its cause asks for are due or done. -/
  calls : ∀ p, w.layer.releasesOf p = (w.history.cause p).elim [] (Cause.releases p)
  /-- The closed sessions are those with a cause. -/
  closed : ∀ p, (w.history.cause p).isSome = true ↔
    p < w.layer.mem.sessionCount ∧ (w.layer.mem.session p).state = .closed
  parked : ∀ p, (w.layer.mem.session p).state = .parked → w.history.unresumed p = true
  expired : ∀ p, w.history.cause p = some .expired ∨ w.history.cause p = some .evicted →
    w.history.unresumed p = true

/-- Nothing is due for release at first. -/
theorem accounted_init (opt : SessionOptions) (digest : String → String)
    (sendBuffer : ClientRef → ℤ) : (init opt digest sendBuffer).Accounted where
  inv := Layer.inv_init opt digest sendBuffer
  calls _ := rfl
  closed p := by simp [init, History.start, Layer.init, newSessionStore]
  parked p hp := by cases hp
  expired p hp := by rcases hp with hp | hp <;> cases hp

/-- The session calls of a cause are at most one, so their order does not matter. -/
theorem eq_of_perm_releases {l : List Release} {p : SessionRef} {o : Option Cause}
    (h : l.Perm (o.elim [] (Cause.releases p))) : l = o.elim [] (Cause.releases p) := by
  rcases o with _ | _ | _ | _ | _
  · exact h.eq_nil
  · exact List.perm_singleton.1 h
  · exact List.perm_singleton.1 h
  · exact List.perm_singleton.1 h
  · exact h.eq_nil

/-- A step of the layer, with the history it writes. -/
theorem Step.cases (hstep : w.Step a w') :
    w.layer.Step a w'.layer ∧ w'.history = w.history.next w.layer a w'.layer := by
  obtain ⟨f', hf, rfl⟩ := Option.map_eq_some_iff.1 hstep
  exact ⟨hf, rfl⟩

/-- A step that closes a session has made a call. -/
theorem call_of_closes {f f' : Layer} (hstep : f.Step a f') {p : SessionRef}
    (hcl : Mem.Closes f.mem f'.mem p) : ∃ op, f.call a = some op ∧ f.mem.Step op f'.mem := by
  obtain ⟨-, -, ⟨-, hm⟩ | hcall⟩ := hstep.cases
  · rw [hm] at hcl
    exact absurd hcl (Mem.not_closes_self _ p)
  · exact hcall

namespace Accounted

/-- The calls after a step. -/
theorem step_calls (h : w.Accounted) (hstep : w.Step a w') (p : SessionRef) :
    w'.layer.releasesOf p = (w'.history.cause p).elim [] (Cause.releases p) := by
  obtain ⟨hf, hnext⟩ := hstep.cases
  have hcalls := h.calls p
  rw [hnext, History.next]
  dsimp only
  rcases hf.releases with ⟨hdue, hrel⟩ | ⟨x, hx, hcall, hdue, hrel⟩
  · unfold Layer.releasesOf at hcalls ⊢
    rw [hdue, hrel]
    simp only [List.filter_append, List.append_assoc] at hcalls ⊢
    split_ifs with hcl
    · -- the session was open, so no call for it was due before
      obtain ⟨op, hop, hm⟩ := call_of_closes hf hcl
      have hnone : w.history.cause p = none := by
        rw [← Option.not_isSome_iff_eq_none, h.closed p]
        exact fun hc => hcl.1 hc.2
      rw [hnone, Option.elim_none, List.append_eq_nil_iff] at hcalls
      rw [hop, Option.elim_some, Mem.releases_eq h.inv.store hm, if_pos hcl, hcalls.1, hcalls.2,
        List.nil_append, List.append_nil]
      rfl
    · rw [← hcalls]
      obtain ⟨-, -, ⟨hop, -⟩ | ⟨op, hop, hm⟩⟩ := hf.cases
      · rw [hop]
        rfl
      · rw [hop, Option.elim_some, Mem.releases_eq h.inv.store hm, if_neg hcl, List.nil_append]
  · have hcl : ¬ Mem.Closes w.layer.mem w'.layer.mem p := by
      intro hcl
      obtain ⟨op, hop, -⟩ := call_of_closes hf hcl
      rw [hcall] at hop
      cases hop
    rw [if_neg hcl]
    refine eq_of_perm_releases ?_
    rw [← hcalls]
    refine List.Perm.filter _ ?_
    rw [hdue, hrel, ← List.append_assoc]
    exact (List.perm_append_singleton x _).trans ((List.perm_cons_erase hx).symm.append_right _)

/-- The closed sessions after a step. -/
theorem step_closed (h : w.Accounted) (hstep : w.Step a w') (p : SessionRef) :
    (w'.history.cause p).isSome = true ↔
      p < w'.layer.mem.sessionCount ∧ (w'.layer.mem.session p).state = .closed := by
  obtain ⟨hf, hnext⟩ := hstep.cases
  rw [hnext, History.next]
  dsimp only
  split_ifs with hcl
  · obtain ⟨op, hop, hm⟩ := call_of_closes hf hcl
    have hp := (h.inv.store.linked.session p).allocated hcl.1
    refine iff_of_true ?_ ⟨hp.trans_le (hf.sessionCount_le h.inv), hcl.2⟩
    rw [hop, Option.bind_some, Option.isSome_iff_ne_none]
    exact fun hno => (h.inv.store.step_touched hm p).not_closes hno hcl.1 hcl.2
  · rw [h.closed p]
    obtain ⟨-, -, ⟨-, hm⟩ | ⟨op, -, hm⟩⟩ := hf.cases
    · rw [hm]
    constructor
    · rintro ⟨hp, hclosed⟩
      exact ⟨hp.trans_le (hf.sessionCount_le h.inv),
        (h.inv.store.step_touched hm p).closed hp hclosed⟩
    · rintro ⟨hp, hclosed⟩
      refine ⟨?_, by_contra fun hopen => hcl ⟨hopen, hclosed⟩⟩
      rcases hm.sessionCount h.inv.store with hcount | ⟨hcount, hnew⟩
      · rwa [← hcount]
      · by_contra hge
        rw [hcount] at hp
        obtain rfl : p = w.layer.mem.sessionCount :=
          Nat.le_antisymm (Nat.lt_succ_iff.1 hp) (not_lt.1 hge)
        rw [hnew] at hclosed
        cases hclosed

/-- A step that leaves a session unattached has not resumed it. -/
theorem step_unresumed (hstep : w.Step a w') {p : SessionRef}
    (hp : w.history.unresumed p = true) (hatt : (w'.layer.mem.session p).state ≠ .attached) :
    w'.history.unresumed p = true := by
  obtain ⟨hf, hnext⟩ := hstep.cases
  rw [hnext, History.next]
  dsimp only
  split
  next q c resumable now hcall =>
    split_ifs
    · rfl
    · exact hp
  next c req now newID hcall =>
    rw [if_neg, hp]
    rintro ⟨hres, hs⟩
    obtain ⟨-, -, ⟨hno, -⟩ | ⟨op, hop, hm⟩⟩ := hf.cases
    · rw [hcall] at hno
      cases hno
    · obtain rfl := Option.some.inj (hcall.symm.trans hop)
      rw [hm.open_eq, (Mem.resumed_verdict hres hs).2.2.2.2,
        Mem.attachLocked_session, if_pos rfl] at hatt
      exact hatt rfl
  next => exact hp

/-- The parked sessions after a step. -/
theorem step_parked (h : w.Accounted) (hstep : w.Step a w') {p : SessionRef}
    (hp : (w'.layer.mem.session p).state = .parked) : w'.history.unresumed p = true := by
  obtain ⟨hf, hnext⟩ := hstep.cases
  have hatt : (w'.layer.mem.session p).state ≠ .attached := by
    rw [hp]
    decide
  rcases hf.session h.inv p with hsame | ⟨op, hop, ht⟩
  · rw [hsame] at hp
    exact step_unresumed hstep (h.parked p hp) hatt
  rcases ht.parked_cases hp with hbefore | ⟨c, now, rfl, hs, hlive⟩
  · exact step_unresumed hstep (h.parked p hbefore) hatt
  · have hparked : (w.layer.mem.leave p c true now).2.1 = .parked := by
      have hl := Mem.leave_cases h.inv.store.linked p c true now
      generalize (w.layer.mem.leave p c true now).1 = m',
        (w.layer.mem.leave p c true now).2.1 = res, (w.layer.mem.leave p c true now).2.2 = due at hl
      cases hl with
      | gone hclosed =>
          rw [hs] at hclosed
          cases hclosed
      | displaced _ hno => exact absurd hlive hno
      | ended _ _ hres => cases hres
      | parked => rfl
    rw [hnext, History.next]
    simp only [hop, hparked, and_self, if_true]

/-- The expired and evicted sessions after a step. -/
theorem step_expired (h : w.Accounted) (hstep : w.Step a w') {p : SessionRef}
    (hp : w'.history.cause p = some .expired ∨ w'.history.cause p = some .evicted) :
    w'.history.unresumed p = true := by
  have hclosed : (w'.layer.mem.session p).state = .closed := by
    refine ((h.step_closed hstep p).1 ?_).2
    rcases hp with hp | hp <;> rw [hp] <;> rfl
  refine step_unresumed hstep ?_ (by rw [hclosed]; decide)
  obtain ⟨hf, hnext⟩ := hstep.cases
  rw [hnext, History.next] at hp
  dsimp only at hp
  split_ifs at hp with hcl
  · obtain ⟨op, hop, hm⟩ := call_of_closes hf hcl
    rw [hop] at hp
    exact h.parked p ((h.inv.store.step_touched hm p).parked_of_cause hcl.1 hcl.2 hp)
  · exact h.expired p hp

/-- **Every step keeps the account.** -/
theorem step (h : w.Accounted) (hstep : w.Step a w') : w'.Accounted where
  inv := h.inv.step hstep.cases.1
  calls := h.step_calls hstep
  closed := h.step_closed hstep
  parked _ := h.step_parked hstep
  expired _ := h.step_expired hstep

end Accounted

/-- A session whose release is due or done is closed and was allocated. -/
theorem Accounted.closed_of_mem (h : w.Accounted) {x : Release}
    (hx : x ∈ w.layer.due ++ w.layer.released) :
    x.1 < w.layer.mem.sessionCount ∧ (w.layer.mem.session x.1).state = .closed := by
  rw [← h.closed, Option.isSome_iff_ne_none]
  intro hnone
  have hmem : x ∈ w.layer.releasesOf x.1 := List.mem_filter.2 ⟨hx, decide_eq_true rfl⟩
  rw [h.calls, hnone] at hmem
  cases hmem

/-- A closed session is never returned by a later `Open`. -/
theorem open_ne_of_closed {f g : Layer} (hf : f.Inv) (hrun : Reachable Layer.Step f g)
    {p : SessionRef} (hp : p < f.mem.sessionCount) (hclosed : (f.mem.session p).state = .closed)
    (c : ClientRef) (req : ResumeRequest) (now : ℤ) (newID : Option String) :
    (g.mem.open c req now newID).2.1.session ≠ some p := by
  obtain ⟨ops, hops⟩ := Layer.mem_reachable hrun
  have hg := hf.store.closed_forever hops hp hclosed
  have hlt : p < g.mem.sessionCount :=
    hp.trans_le ((hops.invariantWhile (P := fun m => f.mem.sessionCount ≤ m.sessionCount)
      (fun _ _ _ hm hstep => hm.step hstep)
      (fun _ _ _ hm hle hstep => hle.trans (hstep.sessionCount_le hm)) hf.store le_rfl))
  intro hs
  have ho := g.mem.open_cases c req now newID
  generalize (g.mem.open c req now newID).1 = m', (g.mem.open c req now newID).2.1 = res,
    (g.mem.open c req now newID).2.2 = due at ho hs
  cases ho with
  | resumed _ _ _ hv =>
      obtain rfl := Option.some.inj hs
      exact (Session.verdict_eq_none.1 hv).1 hg
  | unbound => cases hs
  | fresh _ hr =>
      obtain rfl := Option.some.inj hs
      rw [hr.client_eq.2.1] at hlt
      exact hlt.false

/-- No session has two calls. -/
theorem Accounted.nodup (h : w.Accounted) :
    ((w.layer.due ++ w.layer.released).map Prod.fst).Nodup := by
  refine List.nodup_iff_count_le_one.2 fun p => ?_
  have hcount : ((w.layer.due ++ w.layer.released).map Prod.fst).count p =
      (w.layer.releasesOf p).length := by
    rw [List.count_eq_countP, List.countP_map, List.countP_eq_length_filter]
    rfl
  rw [hcount, h.calls]
  rcases w.history.cause p with _ | _ | _ | _ | _ <;> simp [Cause.releases]

/-- The callbacks run for expired and evicted sessions. -/
theorem Accounted.unresumed_of_mem (h : w.Accounted) {p : SessionRef}
    (hp : p ∈ w.layer.expireCallbacks) : w.history.unresumed p = true := by
  obtain ⟨⟨q, why⟩, hx, rfl⟩ := List.mem_map.1 hp
  obtain ⟨hx, hwhy⟩ := List.mem_filter.1 hx
  have hmem : (q, why) ∈ w.layer.releasesOf q :=
    List.mem_filter.2 ⟨List.mem_append_right _ hx, decide_eq_true rfl⟩
  rw [h.calls] at hmem
  refine h.expired q ?_
  rcases hc : w.history.cause q with _ | _ | _ | _ | _ <;> rw [hc] at hmem
  · cases hmem
  · exact Or.inl rfl
  · exact Or.inr rfl
  · -- a replaced session is released without callbacks
    obtain rfl : why = .replaced := (Prod.mk.inj (List.mem_singleton.1 hmem)).2
    simp at hwhy
  · cases hmem

/-- **Sessions are released once.**  In every run, the `Release` calls due or done
for a session are exactly the one its end asks for: one with the reason for a
session that expired, was evicted or was replaced, none for a session that a
terminal `Leave` ended or that is open.  From the moment a call is due, no `Open`
returns the session.  So the `OnSessionExpire` callbacks run at most once for a
session, and only when its last park was not followed by a resume. -/
theorem released_once (opt : SessionOptions) (digest : String → String)
    (sendBuffer : ClientRef → ℤ) (w : Watched)
    (h : Reachable Step (init opt digest sendBuffer) w) :
    (∀ p, w.layer.releasesOf p = (w.history.cause p).elim [] (Cause.releases p) ∧
      ((w.history.cause p).isSome = true ↔
        p < w.layer.mem.sessionCount ∧ (w.layer.mem.session p).state = .closed)) ∧
    (∀ x ∈ w.layer.due ++ w.layer.released, ∀ g, Reachable Layer.Step w.layer g →
      ∀ c req now newID, (g.mem.open c req now newID).2.1.session ≠ some x.1) ∧
    w.layer.expireCallbacks.Nodup ∧
    ∀ p ∈ w.layer.expireCallbacks, w.history.unresumed p = true := by
  have hw : w.Accounted :=
    h.invariant (accounted_init opt digest sendBuffer) fun _ _ _ hs hstep => hs.step hstep
  refine ⟨fun p => ⟨hw.calls p, hw.closed p⟩, ?_, ?_, fun p => hw.unresumed_of_mem⟩
  · intro x hx g hg c req now newID
    obtain ⟨hp, hclosed⟩ := hw.closed_of_mem hx
    exact open_ne_of_closed hw.inv hg hp hclosed c req now newID
  · exact hw.nodup.sublist
      ((List.filter_sublist.trans (List.sublist_append_right _ _)).map _)

/-- A peer drops, its session expires, and its callback runs. -/
theorem released_once_expired :
    ∃ w, Reachable Step (init ⟨0, 0, 0, 0, 0⟩ id fun _ => 0) w ∧
      w.history.cause 0 = some .expired ∧ w.layer.releasesOf 0 = [(0, .expired)] ∧
      w.layer.expireCallbacks = [0] ∧ w.layer.expireCallbacks.Nodup := by
  obtain ⟨w, hw, hp⟩ := Reachable.of_exec step (s := init ⟨0, 0, 0, 0, 0⟩ id fun _ => 0)
    [.openSession 0 ⟨false, false, "", 0, ""⟩ 0 (some "a"), .readEnd 0, .leave 0 1,
      .sweep 1000000000000, .release (0, .expired)]
    (p := fun w => w.history.cause 0 = some .expired ∧ w.layer.expireCallbacks = [0])
    (by decide)
  obtain ⟨hcause, hcb⟩ := of_decide_eq_true hp
  obtain ⟨hcalls, -, hnodup, -⟩ := released_once _ _ _ w hw
  exact ⟨w, hw, hcause, by rw [(hcalls 0).1, hcause]; rfl, hcb, hnodup⟩

end Watched
end GoSocket
