/-
# Broadcasts come in one order

`Hub.Emit` queues a job on a channel, and one goroutine takes the jobs off it and sends each
to its targets.  So the hub is a sequencer: **the jobs are worked off in the order in which
they were queued, and no two members of a room see two of them in different orders**
(`total_order`), whatever else is sent to them directly meanwhile, and whether they are
connected, parked or without a session.

Frames are in order in two places: in the log of a session, from which the connections of the
session are served (`Session/Recovery`), and on the queue of a connection that has no session,
which is every connection of a server without recovery.  `Traced` writes down for each frame
in such a place whether the hub put it there, and for which job.  That is a history; no step
looks at it.

What a connection was sent before `Open` gave it a session is not in the log, and is left out.
-/

import GoSocket.Server.Echo

namespace GoSocket

open Lib

/-- Where frames are put in order. -/
inductive Outlet where
  | session (p : SessionRef)
  | client (c : ClientRef)
  deriving DecidableEq

/-- What a call sends. -/
def Op.data : Op → Option Bytes
  | .deliver _ data _ | .trySend _ data _ => some data
  | _ => none

/-- What a step of the session layer sends. -/
def LayerOp.data : LayerOp → Option Bytes
  | .send _ data _ => some data
  | _ => none

namespace Mem

variable {m m' : Mem} {op : Op}

/-- What was put there so far. -/
def outlet (m : Mem) : Outlet → List Bytes
  | .session p => (m.session p).committed
  | .client c => (m.client c).carried

/-- A connection with a session is served from the log of the session. -/
def Own (m : Mem) : Outlet → Prop
  | .session _ => True
  | .client c => (m.client c).session = none

instance (m : Mem) (x : Outlet) : Decidable (m.Own x) := by
  unfold Own
  split <;> infer_instance

/-- A place with one more frame, if any. -/
def Grown (data : Option Bytes) (xs ys : List Bytes) : Prop :=
  ys = xs ∨ ∃ frame, data = some frame ∧ ys = xs ++ [frame]

/-- A call appends to a session's log what it delivers, or nothing. -/
theorem Touched.grown {p : SessionRef} {s : Session} (h : Touched m op p s)
    (hfresh : m.sessionCount ≤ p → (m.session p).committed = []) :
    Grown op.data (m.session p).committed s.committed := by
  cases h with
  | allocated _ hp => exact Or.inl (hfresh hp.ge).symm
  | @delivered data pol hop =>
      have hdata : op.data = some data := by
        rcases hop with rfl | ⟨c, rfl, -⟩ <;> rfl
      rcases (m.session p).deliver_cases (m.liveClient p) data pol with
        ⟨n, live', hd, -⟩ | ⟨st, live', ok, hd, -⟩
      · exact Or.inl (by rw [hd])
      · exact Or.inr ⟨data, hdata, by rw [hd]; rfl⟩
  | acked =>
      refine Or.inl ?_
      unfold Session.ack
      split_ifs <;> rfl
  | _ => exact Or.inl rfl

/-- A connection without a session is sent its frames one by one. -/
theorem step_carried (h : m.StoreInv) (hb : m.Bound) (hstep : m.Step op m') {c : ClientRef}
    (hc : (m.client c).session = none) (hc' : (m'.client c).session = none) :
    Grown op.data (m.client c).carried (m'.client c).carried := by
  have hset : ∀ {d : ClientRef} {cl : Client},
      (d = c → Grown op.data (m.client c).carried cl.carried) →
      Grown op.data (m.client c).carried ((m.setClient d cl).client c).carried := by
    intro d cl hcl
    rw [setClient_client]
    split_ifs with hcd
    · exact hcl hcd.symm
    · exact Or.inl rfl
  -- a session does not send to a connection it is not bound to
  have hdeliver : ∀ p data pol, (m.deliver p data pol).1.client c = m.client c := by
    intro p data pol
    rw [deliver_client, if_neg fun hlive => ?_]
    rw [hb.live hlive] at hc
    cases hc
  cases hstep.took with
  | openSession d req now newID _ =>
      obtain ⟨m₁, res, due, hopen, ho⟩ := m.exists_opened d req now newID
      rw [hopen] at hc' ⊢
      cases ho with
      | resumed =>
          rw [attachLocked_client] at hc' ⊢
          by_cases hcd : c = d
          · rw [if_pos hcd] at hc'
            cases hc'
          · exact Or.inl (by rw [if_neg hcd])
      | unbound _ hr => exact Or.inl (by rw [hr.client_eq.1])
      | fresh _ hr =>
          rw [fresh_client, hr.client_eq.1] at hc' ⊢
          by_cases hcd : c = d
          · rw [if_pos hcd] at hc'
            cases hc'
          · exact Or.inl (by rw [if_neg hcd])
  | leave p d resumable now _ =>
      obtain ⟨m₁, res, due, hleave, hl⟩ := h.linked.exists_left p d resumable now
      rw [hleave]
      refine Or.inl ?_
      cases hl with
      | gone | displaced => rfl
      | ended => rw [setSession_client, discard_client]
      | parked _ _ _ hpop =>
          rw [hpop.mem, discardAll_client, park_client]
          split_ifs with hcd
          · rw [hcd]
            rfl
          · rfl
  | sweep now =>
      obtain ⟨r, hpop, heq⟩ := sweep_popped h.linked now
      exact Or.inl (by rw [heq, hpop.mem, discardAll_client])
  | deliver p data pol _ => exact Or.inl (by rw [hdeliver])
  | trySend d data pol =>
      cases hd : (m.client d).session with
      | some p => exact Or.inl (by rw [trySendPolicy_bound hd, hdeliver])
      | none =>
          obtain ⟨send, dropped, ok, heq, hsend⟩ := trySendPolicy_unbound hd data pol
          rw [heq]
          refine hset fun hdc => ?_
          subst hdc
          rcases hsend with rfl | rfl
          · exact Or.inl rfl
          · exact Or.inr ⟨data, rfl, (List.append_assoc ..).symm⟩
  | ack | claimKey => exact Or.inl rfl
  | write d cl hcl =>
      refine hset fun hdc => ?_
      subst hdc
      exact Or.inl (Client.writeNext_carried hcl)
  | closeRaw d | shutdown d =>
      refine hset fun hdc => ?_
      subst hdc
      exact Or.inl rfl

/-- What was not allocated has no log. -/
def Fresh (m : Mem) : Prop := ∀ p, m.sessionCount ≤ p → (m.session p).committed = []

/-- A call leaves the references not yet used without a log. -/
theorem Fresh.step (hfresh : m.Fresh) (h : m.StoreInv) (hstep : m.Step op m') : m'.Fresh := by
  intro p hp
  have hp' : m.sessionCount ≤ p := (hstep.sessionCount_le h).trans hp
  -- a session that is not allocated counts as closed
  have hclosed : (m.session p).state = .closed := by
    by_contra hopen
    exact absurd ((h.linked.session p).allocated hopen) hp'.not_gt
  have ht := h.step_touched hstep p
  generalize m'.session p = s at ht
  cases ht with
  | allocated => rfl
  | @delivered data pol =>
      have hd : (m.session p).deliver (m.liveClient p) data pol =
          (m.session p, m.liveClient p, true) := if_pos hclosed
      rw [hd]
      exact hfresh p hp'
  | acked =>
      unfold Session.ack
      split_ifs <;> exact hfresh p hp'
  | _ => exact hfresh p hp'

/-- **A place only grows, by what is sent.** -/
theorem step_outlet (h : m.StoreInv) (hb : m.Bound) (hstep : m.Step op m')
    (hfresh : m.Fresh) {x : Outlet} (hx : m.Own x) (hx' : m'.Own x) :
    Grown op.data (m.outlet x) (m'.outlet x) := by
  cases x with
  | session p => exact (h.step_touched hstep p).grown (hfresh p)
  | client c => exact step_carried h hb hstep hx hx'

end Mem

namespace Layer

variable {f f' : Layer} {a : LayerOp} {x : Outlet}

/-- A connection that has a session keeps it. -/
theorem Step.own (hstep : f.Step a f') (h : f.Inv) (hx : f'.mem.Own x) : f.mem.Own x := by
  cases x with
  | session p => trivial
  | client c =>
      by_contra hbound
      obtain ⟨p, hp⟩ := Option.ne_none_iff_exists'.1 hbound
      rw [Mem.Own, hstep.bound h hp] at hx
      cases hx

/-- A step of the connection layer appends to an outlet what it delivers, or nothing. -/
theorem Step.outlet (hstep : f.Step a f') (h : f.Inv) (hfresh : f.mem.Fresh)
    (hx : f'.mem.Own x) : Mem.Grown a.data (f.mem.outlet x) (f'.mem.outlet x) := by
  have hx₀ := hstep.own h hx
  obtain ⟨-, -, ⟨-, hm⟩ | ⟨op, hcall, hm⟩⟩ := hstep.cases
  · exact Or.inl (by rw [hm])
  · have hgrown := Mem.step_outlet h.store h.bound hm hfresh hx₀ hx
    cases called hcall <;> exact hgrown

/-- A step of the connection layer leaves the references not yet used without a log. -/
theorem Step.fresh (hstep : f.Step a f') (h : f.Inv) (hfresh : f.mem.Fresh) : f'.mem.Fresh := by
  obtain ⟨-, -, ⟨-, hm⟩ | ⟨op, -, hm⟩⟩ := hstep.cases
  · rwa [hm]
  · exact hfresh.step h.store hm

end Layer

/-- The hub has a loop of `Emit` when it is emitting. -/
theorem Phase.loop_eq_some {phase : Phase} {fan : Fanout} :
    phase.loop = some fan ↔ phase = .emitting fan := by
  cases phase <;> simp [loop]

namespace Sys

variable {σ σ' : Sys} {a : SysOp} {x : Outlet}

/-- What a step sends: a frame of its own, or that of the job the hub is sending. -/
def sends (σ : Sys) : SysOp → Option Bytes
  | .layer b => b.data
  | .emitNext => σ.phase.loop.map fun fan => fan.job.data
  | _ => none

/-- An outlet that is its own after a step was so before: no client loses its session. -/
theorem Step.own (hstep : σ.Step a σ') (h : σ.layer.Inv) (hx : σ'.layer.mem.Own x) :
    σ.layer.mem.Own x := by
  rcases hstep.layer with heq | ⟨b, hb, -⟩
  · rwa [← heq]
  · exact hb.own h hx

/-- A step of the system appends to an outlet what the hub sends, or nothing. -/
theorem Step.outlet (hstep : σ.Step a σ') (h : σ.layer.Inv) (hfresh : σ.layer.mem.Fresh)
    (hx : σ'.layer.mem.Own x) :
    Mem.Grown (σ.sends a) (σ.layer.mem.outlet x) (σ'.layer.mem.outlet x) := by
  cases hstep.took with
  | layer _ hf => exact hf.outlet h hfresh hx
  | emitNext hp hf =>
      rw [sends, hp]
      exact hf.outlet h hfresh hx
  | drainNext _ hf => exact hf.outlet h hfresh hx
  | transfer => exact Or.inl (congrArg (fun f : Layer => f.mem.outlet x) (transfer_layer ..))
  | _ => exact Or.inl rfl

/-- A step of the system leaves the references not yet used without a log. -/
theorem Step.fresh (hstep : σ.Step a σ') (h : σ.layer.Inv) (hfresh : σ.layer.mem.Fresh) :
    σ'.layer.mem.Fresh := by
  rcases hstep.layer with heq | ⟨b, hb, -⟩
  · rwa [heq]
  · exact hb.fresh h hfresh

end Sys

/-- The server with the history of its broadcasts. -/
structure Traced where
  server : Queued
  /-- The calls of `Emit` so far, but for those after the hub has returned. -/
  calls : ℕ
  /-- The jobs that were queued so far, and how many of them the hub has taken. -/
  jobs : List EmitJob
  taken : ℕ
  /-- The frames in each place, with the number of the job the hub was sending. -/
  trail : Outlet → List (Option ℕ × Bytes)

/-- Whether a step calls `Emit`. -/
def QueueOp.emits : QueueOp → Bool
  | .emit _ => true
  | .broadcast _ room _ _ => room ≠ ""
  | _ => false

namespace Traced

def init (emitBufferSize : ℤ) (opt : SessionOptions) (digest : String → String)
    (sendBuffer : ClientRef → ℤ) : Traced where
  server := .init emitBufferSize opt digest sendBuffer
  calls := 0
  jobs := []
  taken := 0
  trail := fun _ => []

/-- The number of the job whose frame a step sends. -/
def mark (t : Traced) : QueueOp → Option ℕ
  | .sys .emitNext => some (t.taken - 1)
  | _ => none

/-- What the step has added to the queue and to each place. -/
def record (t : Traced) (a : QueueOp) (q : Queued) : Traced where
  server := q
  calls := if a.emits = true ∧ t.server.sys.phase ≠ .closed then t.calls + 1 else t.calls
  jobs := t.jobs ++ (q.queue.drop t.server.queue.length).map QueuedJob.job
  taken := t.taken + (t.server.queue.length - q.queue.length)
  trail x := t.trail x ++
    ((q.sys.layer.mem.outlet x).drop (t.server.sys.layer.mem.outlet x).length).map (t.mark a, ·)

def step (t : Traced) (a : QueueOp) : Option Traced := (t.server.step a).map (t.record a)

/-- The step relation with the history. -/
def Step (t : Traced) (a : QueueOp) (t' : Traced) : Prop := t.step a = some t'

/-- The jobs whose frames are in a place, in the order of the frames. -/
def order (t : Traced) (x : Outlet) : List ℕ := (t.trail x).filterMap Prod.fst

variable {t t' : Traced} {a : QueueOp} {x : Outlet}

/-- The frames in a place are those of the jobs they are marked with, and the jobs are in the
order in which the hub took them. -/
structure Lined (t : Traced) (x : Outlet) : Prop where
  frames : (t.trail x).map Prod.snd = t.server.sys.layer.mem.outlet x
  marked : ∀ k data, (some k, data) ∈ t.trail x →
    k < t.taken ∧ ∃ job, t.jobs[k]? = some job ∧ job.data = data
  sorted : (t.order x).Pairwise (· ≤ ·)

/-- What is known between two steps. -/
structure Inv (t : Traced) : Prop where
  layer : t.server.sys.layer.Inv
  fresh : t.server.sys.layer.mem.Fresh
  queue : t.server.queue.map QueuedJob.job = t.jobs.drop t.taken
  taken : t.taken ≤ t.jobs.length
  calls : t.jobs.length + t.server.emitsDropped = t.calls
  current : ∀ fan ∈ t.server.sys.phase.loop, 0 < t.taken ∧ t.jobs[t.taken - 1]? = some fan.job
  lined : ∀ x, t.server.sys.layer.mem.Own x → t.Lined x

/-- A place after a step, if the marks of the step name the job it sends. -/
theorem Lined.record (h : t.Lined x) {q : Queued} {data : Option Bytes}
    (hgrown : Mem.Grown data (t.server.sys.layer.mem.outlet x) (q.sys.layer.mem.outlet x))
    (hmark : ∀ k ∈ t.mark a, k + 1 = t.taken ∧
      ∀ frame ∈ data, ∃ job, t.jobs[k]? = some job ∧ job.data = frame) :
    (t.record a q).Lined x := by
  have hjobs : ∀ {k : ℕ} {job : EmitJob}, t.jobs[k]? = some job →
      (t.record a q).jobs[k]? = some job := by
    intro k job hk
    exact (List.getElem?_append_left (List.getElem?_eq_some_iff.1 hk).1).trans hk
  have htaken : t.taken ≤ (t.record a q).taken := Nat.le_add_right ..
  have hkeep : ∀ k data, (some k, data) ∈ t.trail x →
      k < (t.record a q).taken ∧ ∃ job, (t.record a q).jobs[k]? = some job ∧ job.data = data := by
    intro k data hk
    obtain ⟨hlt, job, hjob, hdata⟩ := h.marked k data hk
    exact ⟨hlt.trans_le htaken, job, hjobs hjob, hdata⟩
  rcases hgrown with hsame | ⟨frame, hdata, hmore⟩
  · have htrail : (t.record a q).trail x = t.trail x := by simp [Traced.record, hsame]
    refine ⟨?_, ?_, ?_⟩
    · rw [htrail, h.frames]
      exact hsame.symm
    · rw [htrail]
      exact hkeep
    · rw [order, htrail]
      exact h.sorted
  · have htrail : (t.record a q).trail x = t.trail x ++ [(t.mark a, frame)] := by
      simp [Traced.record, hmore]
    refine ⟨?_, ?_, ?_⟩
    · rw [htrail, List.map_append, h.frames]
      exact hmore.symm
    · intro k data hk
      rw [htrail, List.mem_append, List.mem_singleton, Prod.mk.injEq] at hk
      rcases hk with hk | ⟨hk, rfl⟩
      · exact hkeep k data hk
      · obtain ⟨hlt, hjob⟩ := hmark k hk.symm
        obtain ⟨job, hjob, rfl⟩ := hjob data hdata
        exact ⟨by omega, job, hjobs hjob, rfl⟩
    · rw [order, htrail, List.filterMap_append, List.pairwise_append]
      refine ⟨h.sorted, ?_, ?_⟩
      · cases t.mark a <;> simp
      · -- the job that is being sent was taken last
        intro i hi k hk
        obtain ⟨⟨-, data⟩, hmem, rfl⟩ := List.mem_filterMap.1 hi
        obtain ⟨hlt, -⟩ := h.marked i data hmem
        obtain ⟨y, hy, hk⟩ := List.mem_filterMap.1 hk
        obtain rfl := List.mem_singleton.1 hy
        obtain ⟨hlast, -⟩ := hmark k hk
        omega

section record

variable {q : Queued} {j : QueuedJob}

/-- A step that leaves the queue records no job. -/
theorem record_of_queue_eq (hq : q.queue = t.server.queue) :
    (t.record a q).jobs = t.jobs ∧ (t.record a q).taken = t.taken := by
  simp [record, hq]

/-- A job that joins the queue is recorded. -/
theorem record_of_queue_append (hq : q.queue = t.server.queue ++ [j]) :
    (t.record a q).jobs = t.jobs ++ [j.job] ∧ (t.record a q).taken = t.taken := by
  simp [record, hq]

/-- A job that leaves the queue is counted as taken. -/
theorem record_of_queue_cons (hq : t.server.queue = j :: q.queue) :
    (t.record a q).jobs = t.jobs ∧ (t.record a q).taken = t.taken + 1 := by
  simp [record, hq]

/-- A step by which nothing is sent. -/
theorem Lined.record_same (h : t.Lined x) (hlayer : q.sys.layer = t.server.sys.layer)
    (hmark : t.mark a = none) : (t.record a q).Lined x := by
  have hgrown : Mem.Grown none (t.server.sys.layer.mem.outlet x) (q.sys.layer.mem.outlet x) :=
    Or.inl (by rw [hlayer])
  refine h.record hgrown fun k hk => ?_
  rw [hmark] at hk
  cases hk

end record

/-- A step that leaves the queue alone. -/
theorem Inv.sys (h : t.Inv) {b : SysOp} {σ : Sys} (hb : b.starts = false)
    (hstep : t.server.sys.Step b σ) : (t.record (.sys b) { t.server with sys := σ }).Inv := by
  obtain ⟨hjobs, htaken⟩ := record_of_queue_eq (t := t) (a := .sys b)
    (q := { t.server with sys := σ }) rfl
  constructor
  case layer => exact hstep.inv h.layer
  case fresh => exact hstep.fresh h.layer h.fresh
  case queue => exact h.queue.trans (by rw [hjobs, htaken])
  case taken => rw [hjobs, htaken]; exact h.taken
  case calls => rw [hjobs]; exact h.calls
  case current =>
    -- the loop is still that of the job taken last
    intro fan hfan
    rw [hjobs, htaken]
    rcases Queued.loop_cases hstep hb (Phase.loop_eq_some.1 hfan) with
      hphase | ⟨job, c, rest, served, hphase, rfl⟩
    · exact h.current fan (Phase.loop_eq_some.2 hphase)
    · exact h.current ⟨job, c :: rest, served⟩ (Phase.loop_eq_some.2 hphase)
  case lined =>
    intro x hx
    refine (h.lined x (hstep.own h.layer hx)).record (hstep.outlet h.layer h.fresh hx)
      fun k hk => ?_
    cases hstep.took with
    | emitNext hphase =>
        obtain rfl := Option.some.inj hk
        obtain ⟨hpos, hjob⟩ := h.current _ (Phase.loop_eq_some.2 hphase)
        refine ⟨Nat.sub_add_cancel hpos, fun frame hframe => ⟨_, hjob, ?_⟩⟩
        rw [Sys.sends, hphase] at hframe
        exact Option.some.inj hframe
    | _ => cases hk

/-- A call that does nothing: there is no room, or the hub has returned. -/
theorem Inv.idle (h : t.Inv) (ha : ¬ (a.emits = true ∧ t.server.sys.phase ≠ .closed))
    (hmark : t.mark a = none) : (t.record a t.server).Inv := by
  obtain ⟨hjobs, htaken⟩ := record_of_queue_eq (t := t) (a := a) (q := t.server) rfl
  constructor
  case layer => exact h.layer
  case fresh => exact h.fresh
  case queue => exact h.queue.trans (by rw [hjobs, htaken])
  case taken => rw [hjobs, htaken]; exact h.taken
  case calls => rw [hjobs]; exact h.calls.trans (if_neg ha).symm
  case current => rw [hjobs, htaken]; exact h.current
  case lined => exact fun x hx => (h.lined x hx).record_same rfl hmark

/-- `Emit`: the job is queued, or it is dropped and counted. -/
theorem Inv.emit (h : t.Inv) {j : QueuedJob} (ha : a.emits = true) (hmark : t.mark a = none) :
    (t.record a (t.server.emit j)).Inv := by
  by_cases hclosed : t.server.sys.phase = .closed
  · rw [Queued.emit, if_pos hclosed]
    exact h.idle (fun hcall => hcall.2 hclosed) hmark
  have hcalls : ∀ q, (t.record a q).calls = t.calls + 1 := fun q => if_pos ⟨ha, hclosed⟩
  rw [Queued.emit, if_neg hclosed]
  split_ifs with hroom
  · obtain ⟨hjobs, htaken⟩ := record_of_queue_append (t := t) (a := a) (j := j)
      (q := { t.server with queue := t.server.queue ++ [j] }) rfl
    constructor
    case layer => exact h.layer
    case fresh => exact h.fresh
    case queue =>
      rw [hjobs, htaken, List.drop_append_of_le_length h.taken, ← h.queue]
      exact List.map_append
    case taken =>
      rw [hjobs, htaken, List.length_append]
      exact h.taken.trans (Nat.le_add_right ..)
    case calls =>
      rw [hjobs, hcalls, ← h.calls, List.length_append]
      exact Nat.add_right_comm ..
    case current =>
      intro fan hfan
      obtain ⟨hpos, hjob⟩ := h.current fan hfan
      rw [hjobs, htaken]
      exact ⟨hpos, (List.getElem?_append_left (List.getElem?_eq_some_iff.1 hjob).1).trans hjob⟩
    case lined => exact fun x hx => (h.lined x hx).record_same rfl hmark
  · obtain ⟨hjobs, htaken⟩ := record_of_queue_eq (t := t) (a := a)
      (q := { t.server with emitsDropped := t.server.emitsDropped + 1 }) rfl
    constructor
    case layer => exact h.layer
    case fresh => exact h.fresh
    case queue => exact h.queue.trans (by rw [hjobs, htaken])
    case taken => rw [hjobs, htaken]; exact h.taken
    case calls => rw [hjobs, hcalls, ← h.calls]; rfl
    case current => rw [hjobs, htaken]; exact h.current
    case lined => exact fun x hx => (h.lined x hx).record_same rfl hmark

/-- The hub takes the next job. -/
theorem Inv.take (h : t.Inv) {j : QueuedJob} {rest : List QueuedJob} {targets : List ClientRef}
    {σ : Sys} (hq : t.server.queue = j :: rest)
    (hstep : t.server.sys.Step (.emitStart j.job targets) σ) :
    (t.record (.take targets)
      { t.server with sys := σ, queue := rest, sender := j.sender }).Inv := by
  obtain ⟨hjobs, htaken⟩ := record_of_queue_cons (t := t) (a := .take targets) (j := j)
    (q := { t.server with sys := σ, queue := rest, sender := j.sender }) hq
  have hdrop : t.jobs.drop t.taken = j.job :: rest.map QueuedJob.job := by
    rw [← h.queue, hq, List.map_cons]
  have hnext : t.jobs[t.taken]? = some j.job := by
    rw [← List.head?_drop, hdrop, List.head?_cons]
  cases hstep.took with
  | emitStart =>
      constructor
      case layer => exact h.layer
      case fresh => exact h.fresh
      case queue => rw [hjobs, htaken, ← List.tail_drop, hdrop]; rfl
      case taken => rw [hjobs, htaken]; exact (List.getElem?_eq_some_iff.1 hnext).1
      case calls => rw [hjobs]; exact h.calls
      case current =>
        intro fan hfan
        obtain rfl := Option.some.inj hfan
        rw [hjobs, htaken, Nat.add_sub_cancel]
        exact ⟨Nat.succ_pos _, hnext⟩
      case lined => exact fun x hx => (h.lined x hx).record_same rfl rfl

/-- Every step keeps what is known of the jobs and the outlets. -/
theorem Inv.step (h : t.Inv) (hstep : t.Step a t') : t'.Inv := by
  obtain ⟨q, hq, rfl⟩ := Option.map_eq_some_iff.1 hstep
  have hq : t.server.Step a q := hq
  cases hq.took with
  | sys hb hσ => exact h.sys hb hσ
  | emit job => exact h.emit rfl rfl
  | noRoom => exact h.idle (fun hcall => by simp [QueueOp.emits] at hcall) rfl
  | broadcast hroom => exact h.emit (by simpa [QueueOp.emits] using hroom) rfl
  | take hqueue hσ => exact h.take hqueue hσ

/-- No job was queued at first. -/
theorem inv_init (emitBufferSize : ℤ) (opt : SessionOptions) (digest : String → String)
    (sendBuffer : ClientRef → ℤ) : (init emitBufferSize opt digest sendBuffer).Inv where
  layer := Layer.inv_init opt digest sendBuffer
  fresh _ _ := rfl
  queue := rfl
  taken := le_rfl
  calls := rfl
  current _ hfan := nomatch hfan
  lined x _ := by
    refine ⟨?_, fun _ _ hk => (List.not_mem_nil hk).elim, List.Pairwise.nil⟩
    cases x <;> rfl

/-- **Broadcasts come in one order.**  The hub takes the jobs in the order in which `Emit`
queued them, and until it has returned those that were not queued are counted.  Where the log
of a session, or the queue of a connection without one, has a frame of a job, it is the frame of
that job; and if one of these places has two jobs in one order, no other has them in the other. -/
theorem total_order (emitBufferSize : ℤ) (opt : SessionOptions) (digest : String → String)
    (sendBuffer : ClientRef → ℤ) (t : Traced)
    (h : Reachable Step (init emitBufferSize opt digest sendBuffer) t) :
    t.jobs.drop t.taken = t.server.queue.map QueuedJob.job ∧
    t.jobs.length + t.server.emitsDropped = t.calls ∧
    (∀ x, t.server.sys.layer.mem.Own x →
      (t.trail x).map Prod.snd = t.server.sys.layer.mem.outlet x ∧
      ∀ k data, (some k, data) ∈ t.trail x →
        k < t.taken ∧ ∃ job, t.jobs[k]? = some job ∧ job.data = data) ∧
    ∀ x y, t.server.sys.layer.mem.Own x → t.server.sys.layer.mem.Own y →
      ∀ i k, [i, k].Sublist (t.order x) → [k, i].Sublist (t.order y) → i = k := by
  have hinv : t.Inv :=
    h.invariant (inv_init emitBufferSize opt digest sendBuffer) fun _ _ _ ht hstep => ht.step hstep
  refine ⟨hinv.queue.symm, hinv.calls, fun x hx => ?_, fun x y hx hy i k hik hki => ?_⟩
  · exact ⟨(hinv.lined x hx).frames, (hinv.lined x hx).marked⟩
  · have hle : i ≤ k := List.rel_of_pairwise_cons ((hinv.lined x hx).sorted.sublist hik) (by simp)
    have hge : k ≤ i := List.rel_of_pairwise_cons ((hinv.lined y hy).sorted.sublist hki) (by simp)
    exact Nat.le_antisymm hle hge

/-- A session that is parked and a connection without a session are sent two broadcasts, and the
connection a frame of its own in between; a third broadcast finds the queue full. -/
theorem total_order_two_members :
    ∃ t, Reachable Step (init 2 ⟨0, 0, 0, 0, 0⟩ id fun _ => 0) t ∧
      t.calls = 3 ∧ t.server.emitsDropped = 1 ∧
      t.trail (.session 0) = [(some 0, [123, 125]), (some 1, [123, 32, 125])] ∧
      t.trail (.client 1) =
        [(some 0, [123, 125]), (none, [123, 10, 125]), (some 1, [123, 32, 125])] ∧
      ∀ i k, [i, k].Sublist (t.order (.session 0)) → [k, i].Sublist (t.order (.client 1)) →
        i = k := by
  obtain ⟨t, ht, hp⟩ := Reachable.of_exec step (s := init 2 ⟨0, 0, 0, 0, 0⟩ id fun _ => 0)
    [.sys (.accept 0), .sys (.register 0),
      .sys (.layer (.openSession 0 ⟨false, false, "", 0, ""⟩ 0 (some "a"))),
      .sys (.join 0 "r" 0), .sys (.accept 1), .sys (.register 1),
      .sys (.layer (.openSession 1 ⟨false, false, "", 0, ""⟩ 0 none)), .sys (.join 1 "r" 0),
      .sys (.layer (.readEnd 0)), .sys (.layer (.leave 0 1)),
      .emit (emitRoom "r" none [123, 125] .disconnect),
      .broadcast 2 "r" [123, 32, 125] .disconnect, .emit (emitRoom "r" none [123] .disconnect),
      .take [0, 1], .sys .emitNext, .sys .emitNext,
      .sys (.layer (.send 1 [123, 10, 125] .disconnect)), .sys .emitDone, .take [1, 0],
      .sys .emitNext, .sys .emitNext]
    (p := fun t => t.calls = 3 ∧ t.server.emitsDropped = 1 ∧
      t.trail (.session 0) = [(some 0, [123, 125]), (some 1, [123, 32, 125])] ∧
      t.trail (.client 1) =
        [(some 0, [123, 125]), (none, [123, 10, 125]), (some 1, [123, 32, 125])] ∧
      t.server.sys.layer.mem.Own (.client 1))
    (by decide +kernel)
  obtain ⟨hcalls, hdropped, hsession, hclient, hown⟩ := of_decide_eq_true hp
  exact ⟨t, ht, hcalls, hdropped, hsession, hclient,
    (total_order _ _ _ _ t ht).2.2.2 _ _ trivial hown⟩

end Traced
end GoSocket
