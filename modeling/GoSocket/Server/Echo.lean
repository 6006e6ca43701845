/-
# A broadcast and its sender

`Context.BroadcastToRoom` queues a job for the hub that excludes the client of its
context.  The queue is the buffered channel `Hub.emit`: the hub takes jobs in the
order they were queued in, but between two of its requests, and a `Transfer` that
was sent later may be taken earlier.  The rooms are then those of the client that
resumed the session, which the job does not exclude, and the session is sent its
own broadcast (`broadcast_echoed`), while the wire protocol promises all members
except the sender.

If no other client of the session is in the room when the hub takes the job, and
`Open` binds none of the targets to it before the loop reaches them (`SenderExcluded`), the
session is not served (`broadcast_not_echoed`).

Once the hub has returned, a job that is queued is never taken; it is left out
here.
-/

import GoSocket.Server.Fanout

namespace GoSocket

open Lib

/-- A job in the queue, with the session of the context it was broadcast through. -/
structure QueuedJob where
  job : EmitJob
  sender : Option SessionRef
  deriving DecidableEq

/-- The job of `Server.emitRoom`. -/
def emitRoom (room : String) (exclude : Option ClientRef) (data : Bytes) (policy : SendPolicy) :
    EmitJob :=
  { room := room, exclude := exclude, data := data, policy := policy }

/-- The server with the emit queue of its hub. -/
structure Queued where
  sys : Sys
  /-- The buffer size of the channel. -/
  capacity : ℕ
  queue : List QueuedJob
  /-- The sender of the job the hub took last. -/
  sender : Option SessionRef
  emitsDropped : ℕ

/-- One step of one goroutine. -/
inductive QueueOp where
  | sys (a : SysOp)
  /-- `Hub.Emit` by anyone else. -/
  | emit (job : EmitJob)
  /-- `BroadcastToRoom` through a context of the client. -/
  | broadcast (c : ClientRef) (room : String) (data : Bytes) (policy : SendPolicy)
  /-- The hub takes a job and iterates over its targets in this order. -/
  | take (targets : List ClientRef)
  deriving DecidableEq

/-- The hub takes its jobs from the queue only. -/
def SysOp.starts : SysOp → Bool
  | .emitStart .. => true
  | _ => false

namespace Queued

/-- `NewHub` has a default for the size of the queue. -/
def init (emitBufferSize : ℤ) (opt : SessionOptions) (digest : String → String)
    (sendBuffer : ClientRef → ℤ) : Queued where
  sys := .init opt digest sendBuffer
  capacity := if emitBufferSize ≤ 0 then 256 else emitBufferSize.toNat
  queue := []
  sender := none
  emitsDropped := 0

/-- `Hub.Emit`: a full queue drops the job. -/
def emit (q : Queued) (j : QueuedJob) : Queued :=
  if q.sys.phase = .closed then q
  else if q.queue.length < q.capacity then { q with queue := q.queue ++ [j] }
  else { q with emitsDropped := q.emitsDropped + 1 }

def step (q : Queued) : QueueOp → Option Queued
  | .sys a => if a.starts then none else (q.sys.step a).map fun σ => { q with sys := σ }
  | .emit job => some (q.emit ⟨job, none⟩)
  | .broadcast c room data policy =>
      if room = "" then some q
      else some (q.emit ⟨emitRoom room (some c) data policy, (q.sys.layer.mem.client c).session⟩)
  | .take targets =>
      match q.queue with
      | [] => none
      | j :: rest =>
          (q.sys.step (.emitStart j.job targets)).map fun σ =>
            { q with sys := σ, queue := rest, sender := j.sender }

/-- The step relation of the server with its queue. -/
def Step (q : Queued) (a : QueueOp) (q' : Queued) : Prop := q.step a = some q'

/-- The cases of `step`. -/
inductive Took (q : Queued) : QueueOp → Queued → Prop where
  | sys {a : SysOp} {σ : Sys} : a.starts = false → q.sys.Step a σ →
      Took q (.sys a) { q with sys := σ }
  | emit (job : EmitJob) : Took q (.emit job) (q.emit ⟨job, none⟩)
  | noRoom (c : ClientRef) (data : Bytes) (policy : SendPolicy) :
      Took q (.broadcast c "" data policy) q
  | broadcast {c : ClientRef} {room : String} {data : Bytes} {policy : SendPolicy} : room ≠ "" →
      Took q (.broadcast c room data policy)
        (q.emit ⟨emitRoom room (some c) data policy, (q.sys.layer.mem.client c).session⟩)
  | take {j : QueuedJob} {rest : List QueuedJob} {targets : List ClientRef} {σ : Sys} :
      q.queue = j :: rest → q.sys.Step (.emitStart j.job targets) σ →
      Took q (.take targets) { q with sys := σ, queue := rest, sender := j.sender }

variable {q q' : Queued} {a : QueueOp}

/-- **Everything a step can be.** -/
theorem Step.took (hstep : q.Step a q') : Took q a q' := by
  unfold Step step at hstep
  cases a with
  | sys a =>
      dsimp only at hstep
      split_ifs at hstep with hstarts
      obtain ⟨σ, hσ, rfl⟩ := Option.map_eq_some_iff.1 hstep
      exact .sys (by simpa using hstarts) hσ
  | emit job => exact Option.some.inj hstep ▸ .emit job
  | broadcast c room data policy =>
      dsimp only at hstep
      split_ifs at hstep with hroom
      · subst hroom
        exact Option.some.inj hstep ▸ .noRoom c data policy
      · exact Option.some.inj hstep ▸ .broadcast hroom
  | take targets =>
      dsimp only at hstep
      split at hstep
      next => cases hstep
      next j rest hq =>
        obtain ⟨σ, hσ, rfl⟩ := Option.map_eq_some_iff.1 hstep
        exact .take hq hσ

/-- When the hub takes a broadcast of a session, no client of the session is in the
room but the one that is excluded; and while the hub sends it, no client it has still
to send to resumes the session. -/
def SenderExcluded (q : Queued) : QueueOp → Prop
  | .take _ => ∀ j ∈ q.queue.head?, ∀ s ∈ j.sender, ∀ d ∈ q.sys.hub.members j.job.room,
      (q.sys.layer.mem.client d).session = some s → j.job.exclude = some d
  | .sys (.layer (.openSession c req now _)) => ∀ fan ∈ q.sys.phase.loop, c ∈ fan.rest →
      req.requested = true → req.invalid = false →
      ∀ s ∈ q.sender, q.sys.layer.mem.store.sessions req.sessionID = some s →
        ((q.sys.layer.mem.session s).verdict req now q.sys.layer.mem.store.opt.ttl).1 ≠ none
  | _ => True

instance (q : Queued) (a : QueueOp) : Decidable (q.SenderExcluded a) := by
  unfold SenderExcluded
  split <;> infer_instance

/-- The loop has not served the session `s` and none of the targets left is bound to it. -/
structure Unserved (σ : Sys) (s : SessionRef) (fan : Fanout) : Prop where
  served : s ∉ fan.served
  rest : ∀ d ∈ fan.rest, (σ.layer.mem.client d).session ≠ some s

/-- What is known between two steps: a job with a sender is a broadcast to a room, and
the loop of such a job does not serve the sender. -/
structure Inv (q : Queued) : Prop where
  layer : q.sys.layer.Inv
  queued : ∀ j ∈ q.queue, ∀ s ∈ j.sender, s < q.sys.layer.mem.sessionCount ∧
    ∃ room c data policy, j.job = emitRoom room (some c) data policy
  current : ∀ fan, q.sys.phase = .emitting fan → ∀ s ∈ q.sender,
    s < q.sys.layer.mem.sessionCount ∧ Unserved q.sys s fan

/-- Nothing is queued or emitted at first. -/
theorem inv_init (emitBufferSize : ℤ) (opt : SessionOptions) (digest : String → String)
    (sendBuffer : ClientRef → ℤ) : (init emitBufferSize opt digest sendBuffer).Inv where
  layer := Layer.inv_init opt digest sendBuffer
  queued _ hj := absurd hj List.not_mem_nil
  current _ hphase := by cases hphase

/-- The loop the hub is in after a step that does not start one. -/
theorem loop_cases {σ σ' : Sys} {b : SysOp} (hstep : σ.Step b σ') (hb : b.starts = false)
    {fan : Fanout} (hphase : σ'.phase = .emitting fan) :
    σ.phase = .emitting fan ∨ ∃ job c rest served,
      σ.phase = .emitting ⟨job, c :: rest, served⟩ ∧
        fan = ⟨job, rest, served ++ (σ.layer.mem.client c).session.toList⟩ := by
  cases hstep.took with
  | layer => exact Or.inl ((Sys.follow_phase ..).symm.trans hphase)
  | transfer => exact Or.inl ((Sys.transfer_phase ..).symm.trans hphase)
  | emitStart => cases hb
  | emitNext hp =>
      cases hphase
      exact Or.inr ⟨_, _, _, _, hp, rfl⟩
  | emitDone => cases hphase
  | drain => cases hphase
  | drainNext => cases hphase
  | drainDone => cases hphase
  | _ => exact Or.inl hphase

/-- The loop sends to its next target. -/
theorem Unserved.next {σ : Sys} {s : SessionRef} {job : EmitJob} {c : ClientRef}
    {rest : List ClientRef} {served : List SessionRef}
    (h : Unserved σ s ⟨job, c :: rest, served⟩) :
    Unserved σ s ⟨job, rest, served ++ (σ.layer.mem.client c).session.toList⟩ where
  served hs := by
    rcases List.mem_append.1 hs with hs | hs
    · exact h.served hs
    · exact h.rest c List.mem_cons_self (Option.mem_toList.1 hs)
  rest d hd := h.rest d (List.mem_cons_of_mem c hd)

namespace Inv

/-- No client the loop has still to send to is bound to the sender. -/
theorem unbound (h : q.Inv) {b : SysOp} {σ : Sys} (hstep : q.sys.Step b σ)
    (hexcluded : q.SenderExcluded (.sys b)) {fan : Fanout} (hphase : q.sys.phase = .emitting fan)
    {s : SessionRef} (hs : q.sender = some s) {d : ClientRef} (hd : d ∈ fan.rest) :
    (σ.layer.mem.client d).session ≠ some s := by
  obtain ⟨hlt, hun⟩ := h.current fan hphase s hs
  rcases hstep.session h.layer d with heq | ⟨req, now, newID, p, rfl, -⟩
  · rw [heq]
    exact hun.rest d hd
  · intro hbound
    obtain ⟨hmem, hnone, -⟩ := hstep.openSession
    rw [hmem] at hbound
    rcases Mem.open_session hnone hbound with ⟨hreq, hinv, hfind, hv⟩ | rfl
    · exact hexcluded fan (by rw [hphase]; rfl) hd hreq hinv s hs hfind hv
    · exact hlt.false

/-- A step of the server other than the start of a job. -/
theorem sys (h : q.Inv) {b : SysOp} {σ : Sys} (hb : b.starts = false) (hstep : q.sys.Step b σ)
    (hexcluded : q.SenderExcluded (.sys b)) : ({ q with sys := σ } : Queued).Inv where
  layer := hstep.inv h.layer
  queued j hj s hs := by
    obtain ⟨hlt, hjob⟩ := h.queued j hj s hs
    exact ⟨hlt.trans_le (hstep.sessionCount_le h.layer), hjob⟩
  current fan hphase s hs := by
    rcases loop_cases hstep hb hphase with hp | ⟨job, c, rest, served, hp, rfl⟩
    · obtain ⟨hlt, hun⟩ := h.current fan hp s hs
      exact ⟨hlt.trans_le (hstep.sessionCount_le h.layer), hun.served,
        fun d hd => h.unbound hstep hexcluded hp hs hd⟩
    · obtain ⟨hlt, hun⟩ := h.current _ hp s hs
      exact ⟨hlt.trans_le (hstep.sessionCount_le h.layer), hun.next.served,
        fun d hd => h.unbound hstep hexcluded hp hs (List.mem_cons_of_mem c hd)⟩

/-- A job is queued, or dropped. -/
theorem emit (h : q.Inv) {j : QueuedJob}
    (hj : ∀ s ∈ j.sender, s < q.sys.layer.mem.sessionCount ∧
      ∃ room c data policy, j.job = emitRoom room (some c) data policy) : (q.emit j).Inv := by
  unfold Queued.emit
  split_ifs
  · exact h
  · refine ⟨h.layer, fun j' hj' => ?_, h.current⟩
    rcases List.mem_append.1 hj' with hj' | hj'
    · exact h.queued j' hj'
    · exact List.mem_singleton.1 hj' ▸ hj
  · exact ⟨h.layer, h.queued, h.current⟩

/-- The hub takes a job. -/
theorem take (h : q.Inv) {j : QueuedJob} {rest : List QueuedJob} {targets : List ClientRef}
    {σ : Sys} (hq : q.queue = j :: rest) (hstep : q.sys.Step (.emitStart j.job targets) σ)
    (hexcluded : q.SenderExcluded (.take targets)) :
    ({ q with sys := σ, queue := rest, sender := j.sender } : Queued).Inv := by
  have hj : j ∈ q.queue := hq ▸ List.mem_cons_self
  cases hstep.took with
  | emitStart hidle hnodup htargets =>
      refine ⟨h.layer, fun j' hj' => h.queued j' (hq ▸ List.mem_cons_of_mem j hj'), ?_⟩
      rintro fan hphase s hs
      cases hphase
      obtain ⟨hlt, room, c, data, policy, hjob⟩ := h.queued j hj s hs
      refine ⟨hlt, List.not_mem_nil, fun d hd hbound => ?_⟩
      -- the targets are the members of the room without the excluded client
      rw [← List.mem_toFinset, htargets, hjob] at hd
      obtain ⟨hmem, hne⟩ := Finset.mem_filter.1 hd
      have hex := hexcluded j (by rw [hq]; rfl) s hs d (by rw [hjob]; exact hmem) hbound
      rw [hjob] at hex
      exact hne hex

/-- A step of `SenderExcluded` keeps the sender out of the loop of its broadcast. -/
theorem step (h : q.Inv) (hstep : Guarded SenderExcluded Step q a q') : q'.Inv := by
  obtain ⟨hexcluded, hstep⟩ := hstep
  cases hstep.took with
  | sys hb hσ => exact h.sys hb hσ hexcluded
  | emit job => exact h.emit fun s hs => by cases hs
  | noRoom => exact h
  | broadcast hroom =>
      exact h.emit fun s hs => ⟨h.layer.bound.allocated hs, _, _, _, _, rfl⟩
  | take hq hσ => exact h.take hq hσ hexcluded

end Inv

/-- **A broadcast is not sent to its sender** on a schedule of `SenderExcluded`: in every state
reached, the job in the loop was not delivered to the session it was broadcast through. -/
theorem broadcast_not_echoed (emitBufferSize : ℤ) (opt : SessionOptions)
    (digest : String → String) (sendBuffer : ClientRef → ℤ) (q : Queued)
    (h : Reachable (Guarded SenderExcluded Step) (init emitBufferSize opt digest sendBuffer) q)
    (fan : Fanout) (hphase : q.sys.phase = .emitting fan) (s : SessionRef)
    (hs : q.sender = some s) : s ∉ fan.served :=
  ((h.invariant (inv_init emitBufferSize opt digest sendBuffer)
    fun _ _ _ hq hstep => hq.step hstep).current fan hphase s hs).2.served

/-- A connection is in a room with another one and broadcasts to it. -/
theorem broadcast_not_echoed_room :
    ∃ q fan, Reachable (Guarded SenderExcluded Step) (init 0 ⟨0, 0, 0, 0, 0⟩ id fun _ => 0) q ∧
      q.sys.phase = .emitting fan ∧ q.sender = some 0 ∧ fan.served = [1] ∧ 0 ∉ fan.served := by
  obtain ⟨q, hq, hp⟩ := Reachable.of_exec_guarded (G := SenderExcluded) step
    (s := init 0 ⟨0, 0, 0, 0, 0⟩ id fun _ => 0)
    [.sys (.accept 0), .sys (.register 0),
      .sys (.layer (.openSession 0 ⟨false, false, "", 0, ""⟩ 0 (some "a"))),
      .sys (.join 0 "r" 0), .sys (.accept 1), .sys (.register 1),
      .sys (.layer (.openSession 1 ⟨false, false, "", 0, ""⟩ 0 (some "b"))),
      .sys (.join 1 "r" 0), .broadcast 0 "r" [123, 125] .disconnect, .take [1], .sys .emitNext]
    (p := fun q => q.sys.phase =
      .emitting ⟨emitRoom "r" (some 0) [123, 125] .disconnect, [], [1]⟩ ∧ q.sender = some 0)
    (by decide +kernel)
  obtain ⟨hphase, hs⟩ := of_decide_eq_true hp
  exact ⟨q, _, hq, hphase, hs, rfl, broadcast_not_echoed _ _ _ _ q hq _ hphase 0 hs⟩

/-- **Counterexample.**  A connection broadcasts to its room; before the hub takes the
job, another connection resumes its session and takes its place in the room.  The
session commits its own broadcast. -/
theorem broadcast_echoed :
    ∃ q fan, Reachable Step (init 0 ⟨0, 0, 0, 0, 0⟩ id fun _ => 0) q ∧
      q.sys.phase = .emitting fan ∧ q.sender = some 0 ∧ fan.served = [0] ∧
      (q.sys.layer.mem.session 0).committed = [[123, 125]] := by
  obtain ⟨q, hq, hp⟩ := Reachable.of_exec step (s := init 0 ⟨0, 0, 0, 0, 0⟩ id fun _ => 0)
    [.sys (.accept 0), .sys (.register 0),
      .sys (.layer (.openSession 0 ⟨false, false, "", 0, ""⟩ 0 (some "a"))),
      .sys (.join 0 "r" 0), .broadcast 0 "r" [123, 125] .disconnect,
      .sys (.accept 1), .sys (.register 1),
      .sys (.layer (.openSession 1 ⟨true, false, "a", 0, ""⟩ 1 none)), .sys (.transfer 0 1),
      .take [1], .sys .emitNext]
    (p := fun q => q.sys.phase =
      .emitting ⟨emitRoom "r" (some 0) [123, 125] .disconnect, [], [0]⟩ ∧ q.sender = some 0 ∧
      (q.sys.layer.mem.session 0).committed = [[123, 125]])
    (by decide +kernel)
  obtain ⟨hphase, hs, hcommitted⟩ := of_decide_eq_true hp
  exact ⟨q, _, hq, hphase, hs, rfl, hcommitted⟩

end Queued
end GoSocket
