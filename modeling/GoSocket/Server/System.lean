/-
# The server

`Sys` puts the session layer, the hub and the connections together.  Where each
connection is in `serveTransport` and `ReadPump` is its `Stage`; what the hub's
goroutine is doing is its `Phase`: it waits for a request, it is in the loop of
`emitToTargets`, it is in the loop of `drainAndCloseAll`, or it has returned.

A request to the hub is a rendezvous on an unbuffered channel: it happens when
the hub waits, it is not sent while the hub is in a loop, and it returns without
effect once the hub is closed (`Sys.request`).  What the hub does with it touches
only its own maps, so it is one step.  Emit jobs are queued by any goroutine at
any time; a job may start whenever the hub waits.

A handler may keep its context for as long as it likes, so a client can join and
leave rooms, and be sent to, from the moment it is made.

Every step makes at most one step of the session layer (`Step.layer`).
-/

import GoSocket.Server.Hub
import GoSocket.Server.Release

namespace GoSocket

open Lib

/-- Where a connection is. -/
inductive Stage where
  /-- There is no such connection yet. -/
  | absent
  /-- The client is made; `Register` is to be sent. -/
  | accepted
  /-- The client is registered; the connect middlewares run, and `Open` comes after them. -/
  | connecting
  /-- A middleware has failed; `Unregister` is to be sent. -/
  | rejected
  /-- `Open` has returned a `Prev`; `Transfer(Prev, c)` is to be sent. -/
  | opening
  /-- The pumps run. -/
  | running
  /-- The read side of a bound client has ended; `Leave` is to be called. -/
  | retiring
  /-- `retire` is to send `Unregister`. -/
  | unregistering
  /-- `retire` has returned. -/
  | done
  deriving DecidableEq

/-- The stages before `Open`. -/
def Stage.Early : Stage → Prop
  | .absent | .accepted | .connecting | .rejected => True
  | .opening | .running | .retiring | .unregistering | .done => False

/-- The loop of `emitToTargets`. -/
structure Fanout where
  job : EmitJob
  /-- The targets still to be sent to, in the order of the iteration. -/
  rest : List ClientRef
  /-- The sessions `deliver` was called on for this job so far. -/
  served : List SessionRef
  deriving DecidableEq

/-- What the hub's goroutine is doing. -/
inductive Phase where
  | idle
  | emitting (fan : Fanout)
  | draining (rest : List ClientRef)
  | closed
  deriving DecidableEq

/-- The loop the hub is in, if it is sending a job. -/
def Phase.loop : Phase → Option Fanout
  | .emitting fan => some fan
  | .idle | .draining _ | .closed => none

/-- The state of the server. -/
structure Sys where
  layer : Layer
  hub : Hub
  phase : Phase
  stage : ClientRef → Stage
  /-- The `Transfer(Prev, c)` requests that an `openSession` is still to send. -/
  transfers : List (ClientRef × ClientRef)

/-- One step of one goroutine. -/
inductive SysOp where
  /-- `serveTransport` makes a client. -/
  | accept (c : ClientRef)
  | register (c : ClientRef)
  /-- A connect middleware fails. -/
  | reject (c : ClientRef)
  /-- A step of the session layer: `Open` after the middlewares, `Leave` and what
  precedes it, `Release`, and the steps that concern no other part. -/
  | layer (a : LayerOp)
  | transfer (prev c : ClientRef)
  /-- The read side of a client without a session ends. -/
  | retire (c : ClientRef)
  | unregister (c : ClientRef)
  | join (c : ClientRef) (room : String) (now : ℤ)
  | leaveRoom (c : ClientRef) (room : String)
  /-- The hub takes a job and iterates over its targets in this order. -/
  | emitStart (job : EmitJob) (targets : List ClientRef)
  | emitNext
  | emitDone
  /-- The context of `Run` is cancelled; the clients are closed in this order. -/
  | drain (clients : List ClientRef)
  | drainNext
  | drainDone
  deriving DecidableEq

/-- The requests that change who is in a room, other than `Unregister`. -/
def SysOp.Moves : SysOp → Prop
  | .transfer prev c => prev ≠ c
  | .join .. => True
  | .leaveRoom .. => True
  | _ => False

namespace Sys

/-- A server that has just started. -/
def init (opt : SessionOptions) (digest : String → String) (sendBuffer : ClientRef → ℤ) : Sys where
  layer := .init opt digest sendBuffer
  hub := newHub
  phase := .idle
  stage := fun _ => .absent
  transfers := []

def setStage (σ : Sys) (c : ClientRef) (s : Stage) : Sys :=
  { σ with stage := Function.update σ.stage c s }

/-- The hub is there to take a request, or it has returned. -/
def Ready (σ : Sys) : Prop := σ.phase = .idle ∨ σ.phase = .closed

instance (σ : Sys) : Decidable σ.Ready := inferInstanceAs (Decidable (_ ∨ _))

/-- A request to the hub: without effect once it has returned. -/
def request (σ : Sys) (f : Hub → Hub) : Sys :=
  { σ with hub := if σ.phase = .closed then σ.hub else f σ.hub }

/-- `Hub.Transfer`, which returns at once when the two are the same. -/
def transfer (σ : Sys) (prev c : ClientRef) : Sys :=
  if prev = c then σ else σ.request fun h => h.transferMembership prev c

/-- When a connection takes a step of the session layer. -/
def Allowed (σ : Sys) : LayerOp → Prop
  | .openSession c .. => σ.stage c = .connecting
  | .readEnd c => σ.stage c = .running
  | .leave c _ => σ.stage c = .retiring
  | .send c .. => σ.stage c ≠ .absent
  | .shutdown c => σ.stage c ≠ .absent
  | .closeRaw c => σ.stage c ≠ .absent
  | .release x => (σ.layer.mem.session x.1).member = none ∨ σ.Ready
  | _ => True

instance (σ : Sys) (b : LayerOp) : Decidable (σ.Allowed b) := by
  induction b using LayerOp.casesOn <;> dsimp only [Allowed] <;> infer_instance

/-- `openSession` goes on to `Transfer` if there was a member before. -/
def afterOpen (σ : Sys) (c : ClientRef) (res : OpenResult) : Sys :=
  match res.prev with
  | some prev => { σ.setStage c .opening with transfers := σ.transfers ++ [(prev, c)] }
  | none => σ.setStage c .running

/-- Where `retire` goes after `Leave`. -/
def afterLeave : LeaveResult → Stage
  | .gone => .unregistering
  | .parked => .done
  | .displaced => .done

/-- What a step of the session layer means for the connection that takes it, and
for the hub: `releaseSession` unregisters the member of its session. -/
def follow (σ : Sys) : LayerOp → Sys
  | .openSession c req now newID => σ.afterOpen c (σ.layer.mem.open c req now newID).2.1
  | .readEnd c => σ.setStage c .retiring
  | .leave c now =>
      match (σ.layer.mem.client c).session, σ.layer.retiring c with
      | some p, some resumable =>
          σ.setStage c (afterLeave (σ.layer.mem.leave p c resumable now).2.1)
      | _, _ => σ
  | .release x =>
      match (σ.layer.mem.session x.1).member with
      | some c => σ.request fun h => h.removeClientMaps c
      | none => σ
  | _ => σ

/-- One step of one goroutine. -/
def step (σ : Sys) : SysOp → Option Sys
  | .accept c => if σ.stage c = .absent then some (σ.setStage c .accepted) else none
  | .register c =>
      if σ.stage c = .accepted ∧ σ.Ready then
        some ((σ.request fun h => h.registerClient c).setStage c .connecting)
      else none
  | .reject c => if σ.stage c = .connecting then some (σ.setStage c .rejected) else none
  | .layer b =>
      if σ.Allowed b then (σ.layer.step b).map fun f => { σ.follow b with layer := f } else none
  | .transfer prev c =>
      if (prev, c) ∈ σ.transfers ∧ (prev = c ∨ σ.Ready) then
        some { (σ.transfer prev c).setStage c .running with
          transfers := σ.transfers.erase (prev, c) }
      else none
  | .retire c =>
      if σ.stage c = .running ∧ (σ.layer.mem.client c).session = none then
        some (σ.setStage c .unregistering)
      else none
  | .unregister c =>
      if (σ.stage c = .rejected ∨ σ.stage c = .unregistering) ∧ σ.Ready then
        some ((σ.request fun h => h.removeClientMaps c).setStage c .done)
      else none
  | .join c room now =>
      if σ.stage c ≠ .absent ∧ room ≠ "" ∧ σ.Ready then
        some (σ.request fun h => h.joinRoom c room now)
      else none
  | .leaveRoom c room =>
      if σ.stage c ≠ .absent ∧ room ≠ "" ∧ σ.Ready then
        some (σ.request fun h => h.leaveRoom c room)
      else none
  | .emitStart job targets =>
      if σ.phase = .idle ∧ targets.Nodup ∧ targets.toFinset = σ.hub.collectTargets job then
        some { σ with phase := .emitting ⟨job, targets, []⟩ }
      else none
  | .emitNext =>
      match σ.phase with
      | .emitting ⟨job, c :: rest, served⟩ =>
          (σ.layer.step (.send c job.data job.policy)).map fun f =>
            { σ with
              layer := f
              phase := .emitting
                ⟨job, rest, served ++ (σ.layer.mem.client c).session.toList⟩ }
      | _ => none
  | .emitDone =>
      match σ.phase with
      | .emitting ⟨_, [], _⟩ => some { σ with phase := .idle }
      | _ => none
  | .drain clients =>
      if σ.phase = .idle ∧ clients.Nodup ∧ clients.toFinset = σ.hub.clients then
        some { σ with hub := newHub, phase := .draining clients }
      else none
  | .drainNext =>
      match σ.phase with
      | .draining (c :: rest) =>
          (σ.layer.step (.shutdown c)).map fun f => { σ with layer := f, phase := .draining rest }
      | _ => none
  | .drainDone =>
      match σ.phase with
      | .draining [] => some { σ with phase := .closed }
      | _ => none

/-- The step relation of the server. -/
def Step (σ : Sys) (a : SysOp) (σ' : Sys) : Prop := σ.step a = some σ'

/-- The cases of `step`. -/
inductive Took (σ : Sys) : SysOp → Sys → Prop where
  | accept {c : ClientRef} : σ.stage c = .absent → Took σ (.accept c) (σ.setStage c .accepted)
  | register {c : ClientRef} : σ.stage c = .accepted →
      Took σ (.register c) ((σ.request fun h => h.registerClient c).setStage c .connecting)
  | reject {c : ClientRef} : σ.stage c = .connecting →
      Took σ (.reject c) (σ.setStage c .rejected)
  | layer {b : LayerOp} {f : Layer} : σ.Allowed b → σ.layer.Step b f →
      Took σ (.layer b) { σ.follow b with layer := f }
  | transfer {prev c : ClientRef} : (prev, c) ∈ σ.transfers →
      Took σ (.transfer prev c)
        { (σ.transfer prev c).setStage c .running with transfers := σ.transfers.erase (prev, c) }
  | retire {c : ClientRef} : σ.stage c = .running → (σ.layer.mem.client c).session = none →
      Took σ (.retire c) (σ.setStage c .unregistering)
  | unregister {c : ClientRef} : σ.stage c = .rejected ∨ σ.stage c = .unregistering →
      Took σ (.unregister c) ((σ.request fun h => h.removeClientMaps c).setStage c .done)
  | join {c : ClientRef} {room : String} {now : ℤ} : σ.stage c ≠ .absent →
      Took σ (.join c room now) (σ.request fun h => h.joinRoom c room now)
  | leaveRoom {c : ClientRef} {room : String} :
      Took σ (.leaveRoom c room) (σ.request fun h => h.leaveRoom c room)
  | emitStart {job : EmitJob} {targets : List ClientRef} : σ.phase = .idle → targets.Nodup →
      targets.toFinset = σ.hub.collectTargets job →
      Took σ (.emitStart job targets) { σ with phase := .emitting ⟨job, targets, []⟩ }
  | emitNext {job : EmitJob} {c : ClientRef} {rest : List ClientRef} {served : List SessionRef}
      {f : Layer} : σ.phase = .emitting ⟨job, c :: rest, served⟩ →
      σ.layer.Step (.send c job.data job.policy) f →
      Took σ .emitNext
        { σ with
          layer := f
          phase := .emitting ⟨job, rest, served ++ (σ.layer.mem.client c).session.toList⟩ }
  | emitDone {job : EmitJob} {served : List SessionRef} : σ.phase = .emitting ⟨job, [], served⟩ →
      Took σ .emitDone { σ with phase := .idle }
  | drain {clients : List ClientRef} : σ.phase = .idle →
      Took σ (.drain clients) { σ with hub := newHub, phase := .draining clients }
  | drainNext {c : ClientRef} {rest : List ClientRef} {f : Layer} :
      σ.phase = .draining (c :: rest) → σ.layer.Step (.shutdown c) f →
      Took σ .drainNext { σ with layer := f, phase := .draining rest }
  | drainDone : σ.phase = .draining [] → Took σ .drainDone { σ with phase := .closed }

variable {σ σ' : Sys} {a : SysOp}

/-- **Everything a step can be.** -/
theorem Step.took (hstep : σ.Step a σ') : Took σ a σ' := by
  unfold Step step at hstep
  cases a with
  | accept c =>
      obtain ⟨hs, hstep⟩ := Option.ite_none_right_eq_some.1 hstep
      exact Option.some.inj hstep ▸ .accept hs
  | register c =>
      obtain ⟨hs, hstep⟩ := Option.ite_none_right_eq_some.1 hstep
      exact Option.some.inj hstep ▸ .register hs.1
  | reject c =>
      obtain ⟨hs, hstep⟩ := Option.ite_none_right_eq_some.1 hstep
      exact Option.some.inj hstep ▸ .reject hs
  | layer b =>
      obtain ⟨hs, hstep⟩ := Option.ite_none_right_eq_some.1 hstep
      obtain ⟨f, hf, rfl⟩ := Option.map_eq_some_iff.1 hstep
      exact .layer hs hf
  | transfer prev c =>
      obtain ⟨hs, hstep⟩ := Option.ite_none_right_eq_some.1 hstep
      exact Option.some.inj hstep ▸ .transfer hs.1
  | retire c =>
      obtain ⟨hs, hstep⟩ := Option.ite_none_right_eq_some.1 hstep
      exact Option.some.inj hstep ▸ .retire hs.1 hs.2
  | unregister c =>
      obtain ⟨hs, hstep⟩ := Option.ite_none_right_eq_some.1 hstep
      exact Option.some.inj hstep ▸ .unregister hs.1
  | join c room now =>
      obtain ⟨hs, hstep⟩ := Option.ite_none_right_eq_some.1 hstep
      exact Option.some.inj hstep ▸ .join hs.1
  | leaveRoom c room =>
      obtain ⟨hs, hstep⟩ := Option.ite_none_right_eq_some.1 hstep
      exact Option.some.inj hstep ▸ .leaveRoom
  | emitStart job targets =>
      obtain ⟨hs, hstep⟩ := Option.ite_none_right_eq_some.1 hstep
      exact Option.some.inj hstep ▸ .emitStart hs.1 hs.2.1 hs.2.2
  | emitNext =>
      dsimp only at hstep
      split at hstep
      next hp =>
        obtain ⟨f, hf, rfl⟩ := Option.map_eq_some_iff.1 hstep
        exact .emitNext hp hf
      next => cases hstep
  | emitDone =>
      dsimp only at hstep
      split at hstep
      next hp => exact Option.some.inj hstep ▸ .emitDone hp
      next => cases hstep
  | drain clients =>
      obtain ⟨hs, hstep⟩ := Option.ite_none_right_eq_some.1 hstep
      exact Option.some.inj hstep ▸ .drain hs.1
  | drainNext =>
      dsimp only at hstep
      split at hstep
      next hp =>
        obtain ⟨f, hf, rfl⟩ := Option.map_eq_some_iff.1 hstep
        exact .drainNext hp hf
      next => cases hstep
  | drainDone =>
      dsimp only at hstep
      split at hstep
      next hp => exact Option.some.inj hstep ▸ .drainDone hp
      next => cases hstep

section frame

variable (σ : Sys) (c d prev : ClientRef) (s : Stage) (f : Hub → Hub) (b : LayerOp)

/-- Setting a stage moves one connection. -/
@[simp] theorem setStage_stage : (σ.setStage c s).stage d = if d = c then s else σ.stage d :=
  Function.update_apply ..

@[simp] theorem setStage_phase : (σ.setStage c s).phase = σ.phase := rfl

@[simp] theorem setStage_hub : (σ.setStage c s).hub = σ.hub := rfl

/-- A transfer leaves the layer alone. -/
@[simp] theorem transfer_layer : (σ.transfer prev c).layer = σ.layer := by
  unfold transfer
  split_ifs <;> rfl

/-- A transfer leaves the phase of the hub alone. -/
@[simp] theorem transfer_phase : (σ.transfer prev c).phase = σ.phase := by
  unfold transfer
  split_ifs <;> rfl

/-- A transfer leaves the stages alone. -/
@[simp] theorem transfer_stage : (σ.transfer prev c).stage = σ.stage := by
  unfold transfer
  split_ifs <;> rfl

/-- Following a step of the layer leaves the phase of the hub alone. -/
@[simp] theorem follow_phase : (σ.follow b).phase = σ.phase := by
  unfold follow afterOpen
  split
  · split <;> rfl
  · rfl
  · split <;> rfl
  · split <;> rfl
  · rfl

end frame

/-- **A step of the server makes at most one step of the session layer**; the
hub's own are sends and shutdowns. -/
theorem Step.layer (hstep : σ.Step a σ') :
    σ'.layer = σ.layer ∨ ∃ b, σ.layer.Step b σ'.layer ∧
      (a = .layer b ∨ (∃ c data pol, b = .send c data pol) ∨ ∃ c, b = .shutdown c) := by
  cases hstep.took with
  | layer _ hf => exact Or.inr ⟨_, hf, Or.inl rfl⟩
  | emitNext _ hf => exact Or.inr ⟨_, hf, Or.inr (Or.inl ⟨_, _, _, rfl⟩)⟩
  | drainNext _ hf => exact Or.inr ⟨_, hf, Or.inr (Or.inr ⟨_, rfl⟩)⟩
  | transfer => exact Or.inl (transfer_layer ..)
  | _ => exact Or.inl rfl

/-- **A run of the server is a run of the session layer.** -/
theorem layer_reachable {τ : Sys} (h : Reachable Step σ τ) :
    Reachable Layer.Step σ.layer τ.layer := by
  refine h.project fun s a t hstep => ?_
  rcases hstep.layer with heq | ⟨b, hb, -⟩
  · exact Or.inl heq
  · exact Or.inr ⟨b, hb⟩

/-- The hub waits for requests or is in the loop of a job. -/
def Running (σ : Sys) : Prop := σ.phase ≠ .closed ∧ ∀ rest, σ.phase ≠ .draining rest

/-- A hub that has begun to drain does not come back. -/
theorem Step.running (hstep : σ.Step a σ') (hrun : σ'.Running) : σ.Running := by
  cases hstep.took with
  | layer => simpa [Running] using hrun
  | transfer => simpa [Running] using hrun
  | emitStart hp => simp [Running, hp]
  | emitNext hp => simp [Running, hp]
  | emitDone hp => simp [Running, hp]
  | drain hp => simp [Running, hp]
  | drainNext => exact absurd rfl (hrun.2 _)
  | drainDone => exact absurd rfl hrun.1
  | _ => exact hrun

/-- The step unregisters the client: as `serveTransport` or `retire` does, or as the
member of a session that is released. -/
def Removes (σ : Sys) (a : SysOp) (c : ClientRef) : Prop :=
  (a = .unregister c ∧ (σ.stage c = .rejected ∨ σ.stage c = .unregistering)) ∨
    ∃ x ∈ σ.layer.due, a = .layer (.release x) ∧ (σ.layer.mem.session x.1).member = some c

/-- What the step `a` can do to the maps of a running hub. -/
inductive HubStep (σ : Sys) (a : SysOp) : Hub → Prop where
  | same : ¬ a.Moves → HubStep σ a σ.hub
  | registered {c : ClientRef} : a = .register c → σ.stage c = .accepted →
      HubStep σ a (σ.hub.registerClient c)
  | transferred {prev c : ClientRef} : a = .transfer prev c → (prev, c) ∈ σ.transfers →
      prev ≠ c → HubStep σ a (σ.hub.transferMembership prev c)
  | removed {c : ClientRef} : σ.Removes a c → HubStep σ a (σ.hub.removeClientMaps c)
  | joined {c : ClientRef} {room : String} {now : ℤ} : a = .join c room now →
      σ.stage c ≠ .absent → HubStep σ a (σ.hub.joinRoom c room now)
  | left {c : ClientRef} {room : String} : a = .leaveRoom c room →
      HubStep σ a (σ.hub.leaveRoom c room)

/-- A running hub does what it is asked. -/
theorem Running.request_hub (hrun : σ.Running) (f : Hub → Hub) :
    (σ.request f).hub = f σ.hub := if_neg hrun.1

/-- **Everything a step can do to the maps of a running hub.** -/
theorem Step.hub (hstep : σ.Step a σ') (hrun : σ'.Running) : HubStep σ a σ'.hub := by
  have hσ := hstep.running hrun
  cases hstep.took with
  | register hs =>
      rw [setStage_hub, hσ.request_hub]
      exact .registered rfl hs
  | @layer b f hal hf =>
      have hsame : HubStep σ (.layer b) σ.hub := .same id
      unfold follow
      split
      · unfold afterOpen
        split <;> exact hsame
      · exact hsame
      · split <;> exact hsame
      next x =>
        split
        next c hm =>
          rw [hσ.request_hub]
          exact .removed (Or.inr ⟨x, hf.cases.1, rfl, hm⟩)
        next => exact hsame
      · exact hsame
  | @transfer prev c hmem =>
      show HubStep σ (.transfer prev c) (σ.transfer prev c).hub
      unfold Sys.transfer
      split_ifs with hpc
      · exact .same fun hne => hne hpc
      · rw [hσ.request_hub]
        exact .transferred rfl hmem hpc
  | unregister hs =>
      rw [setStage_hub, hσ.request_hub]
      exact .removed (Or.inl ⟨rfl, hs⟩)
  | join hs =>
      rw [hσ.request_hub]
      exact .joined rfl hs
  | leaveRoom =>
      rw [hσ.request_hub]
      exact .left rfl
  | drain => exact absurd rfl (hrun.2 _)
  | _ => exact .same id

/-- What the step `a` can do to the list of `Transfer` requests. -/
inductive TransfersStep (σ : Sys) (a : SysOp) : List (ClientRef × ClientRef) → Prop where
  | same : (∀ prev c, a ≠ .transfer prev c) → (∀ c req now newID,
      a = .layer (.openSession c req now newID) →
      (σ.layer.mem.open c req now newID).2.1.prev = none) → TransfersStep σ a σ.transfers
  | opened {c : ClientRef} {req : ResumeRequest} {now : ℤ} {newID : Option String}
      {prev : ClientRef} : a = .layer (.openSession c req now newID) →
      (σ.layer.mem.open c req now newID).2.1.prev = some prev →
      TransfersStep σ a (σ.transfers ++ [(prev, c)])
  | sent {prev c : ClientRef} : a = .transfer prev c → (prev, c) ∈ σ.transfers →
      TransfersStep σ a (σ.transfers.erase (prev, c))

/-- **Everything a step can do to the list of `Transfer` requests.** -/
theorem Step.transfers (hstep : σ.Step a σ') : TransfersStep σ a σ'.transfers := by
  cases hstep.took with
  | @layer b f hal hf =>
      show TransfersStep σ (.layer b) (σ.follow b).transfers
      unfold follow
      split
      next c req now newID =>
        unfold afterOpen
        split
        next prev hprev => exact .opened rfl hprev
        next hprev =>
          refine .same (fun _ _ h => by cases h) fun c' req' now' newID' h => ?_
          cases h
          exact hprev
      · exact .same (fun _ _ h => by cases h) fun _ _ _ _ h => by cases h
      · split <;> exact .same (fun _ _ h => by cases h) fun _ _ _ _ h => by cases h
      · split <;> exact .same (fun _ _ h => by cases h) fun _ _ _ _ h => by cases h
      next hne _ _ _ =>
        refine .same (fun _ _ h => by cases h) fun c req now newID h => ?_
        cases h
        exact absurd rfl (hne c req now newID)
  | transfer hmem => exact .sent rfl hmem
  | _ => exact .same (fun _ _ h => by cases h) fun _ _ _ _ h => by cases h

/-- What the step `a` can do to the stage of a connection. -/
inductive StageStep (σ : Sys) (a : SysOp) (c : ClientRef) : Stage → Prop where
  | same : (∀ req now newID, a ≠ .layer (.openSession c req now newID)) →
      StageStep σ a c (σ.stage c)
  | accepted : σ.stage c = .absent → a = .accept c → StageStep σ a c .accepted
  | connecting : σ.stage c = .accepted → a = .register c → StageStep σ a c .connecting
  | rejected : σ.stage c = .connecting → a = .reject c → StageStep σ a c .rejected
  /-- The connection goes on after `Open`, `Transfer`, the end of its read side or
  `Unregister`. -/
  | late {s : Stage} : ¬ s.Early → s ≠ .unregistering → StageStep σ a c s
  | unbound : (σ.layer.mem.client c).session = none → a = .retire c →
      StageStep σ a c .unregistering
  | left {p : SessionRef} {resumable : Bool} {now : ℤ} : a = .layer (.leave c now) →
      (σ.layer.mem.client c).session = some p → σ.layer.retiring c = some resumable →
      StageStep σ a c (afterLeave (σ.layer.mem.leave p c resumable now).2.1)

/-- A step that moves one connection. -/
theorem StageStep.update {c d : ClientRef} {s : Stage} (h : StageStep σ a c s)
    (hopen : d ≠ c → ∀ req now newID, a ≠ .layer (.openSession d req now newID)) :
    StageStep σ a d ((σ.setStage c s).stage d) := by
  rw [setStage_stage]
  split_ifs with hdc
  · exact hdc ▸ h
  · exact .same (hopen hdc)

/-- **Everything a step can do to the stage of a connection.** -/
theorem Step.stage (hstep : σ.Step a σ') (d : ClientRef) : StageStep σ a d (σ'.stage d) := by
  cases hstep.took with
  | accept hs => exact (StageStep.accepted hs rfl).update fun _ _ _ _ h => by cases h
  | register hs =>
      exact (StageStep.connecting hs rfl).update fun _ _ _ _ h => by cases h
  | reject hs => exact (StageStep.rejected hs rfl).update fun _ _ _ _ h => by cases h
  | @layer b f hal hf =>
      show StageStep σ (.layer b) d ((σ.follow b).stage d)
      unfold follow
      split
      next c req now newID =>
        have hother : d ≠ c → ∀ req' now' newID',
            (SysOp.layer (.openSession c req now newID)) ≠
              .layer (.openSession d req' now' newID') := by
          intro hdc req' now' newID' h
          cases h
          exact hdc rfl
        unfold afterOpen
        split
        · exact (StageStep.late (s := .opening) id (by decide)).update hother
        · exact (StageStep.late (s := .running) id (by decide)).update hother
      next c =>
        exact (StageStep.late (s := .retiring) id (by decide)).update
          fun _ _ _ _ h => by cases h
      next c now =>
        split
        next p resumable hp hr =>
          exact (StageStep.left rfl hp hr).update fun _ _ _ _ h => by cases h
        next => exact .same fun _ _ _ h => by cases h
      next x => split <;> exact .same fun _ _ _ h => by cases h
      next hne _ _ _ =>
        refine .same fun req now newID h => ?_
        cases h
        exact absurd rfl (hne d req now newID)
  | @transfer prev c hmem =>
      show StageStep σ (.transfer prev c) d (((σ.transfer prev c).setStage c .running).stage d)
      rw [setStage_stage, transfer_stage, ← setStage_stage]
      exact (StageStep.late (s := .running) id (by decide)).update fun _ _ _ _ h => by cases h
  | retire _ hs => exact (StageStep.unbound hs rfl).update fun _ _ _ _ h => by cases h
  | unregister =>
      exact (StageStep.late (s := .done) id (by decide)).update fun _ _ _ _ h => by cases h
  | _ => exact .same fun _ _ _ h => by cases h

/-- A connection that is before `Open` after a step was before it, and did not call it. -/
theorem StageStep.early {c : ClientRef} {s : Stage} (h : StageStep σ a c s) (hs : s.Early) :
    (σ.stage c).Early ∧ ∀ req now newID, a ≠ .layer (.openSession c req now newID) := by
  cases h with
  | same hopen => exact ⟨hs, hopen⟩
  | accepted hc ha => exact ⟨hc ▸ trivial, by simp [ha]⟩
  | connecting hc ha => exact ⟨hc ▸ trivial, by simp [ha]⟩
  | rejected hc ha => exact ⟨hc ▸ trivial, by simp [ha]⟩
  | late hlate => exact absurd hs hlate
  | unbound => exact absurd hs id
  | left =>
      refine absurd hs ?_
      unfold afterLeave
      split <;> exact id

/-- **Only `Open` binds a connection**, and it makes it the member of its session. -/
theorem Step.session (hstep : σ.Step a σ') (h : σ.layer.Inv) (c : ClientRef) :
    (σ'.layer.mem.client c).session = (σ.layer.mem.client c).session ∨
      ∃ req now newID p, a = .layer (.openSession c req now newID) ∧
        (σ.layer.mem.client c).session = none ∧ (σ'.layer.mem.client c).session = some p ∧
        (σ'.layer.mem.session p).member = some c := by
  rcases hstep.layer with heq | ⟨b, hb, hab⟩
  · exact Or.inl (by rw [heq])
  obtain ⟨hen, -, ⟨-, hm⟩ | ⟨op, hcall, hm⟩⟩ := hb.cases
  · exact Or.inl (by rw [hm])
  rcases (Mem.step_clientTouched h.store hm c).session with heq |
    ⟨req, now, newID, p, rfl, hp, -, hmember, -⟩
  · exact Or.inl heq
  · obtain rfl := Layer.call_eq_openSession hcall
    refine Or.inr ⟨req, now, newID, p, ?_, hen, hp, hmember⟩
    rcases hab with rfl | ⟨_, _, _, h⟩ | ⟨_, h⟩
    · rfl
    · cases h
    · cases h

/-- A step that is not the connection's own `Open` does not bind it. -/
theorem Step.session_eq (hstep : σ.Step a σ') (h : σ.layer.Inv) {d : ClientRef}
    (hopen : ∀ req now newID, a ≠ .layer (.openSession d req now newID)) :
    (σ'.layer.mem.client d).session = (σ.layer.mem.client d).session := by
  rcases hstep.session h d with heq | ⟨_, _, _, _, ha, -⟩
  · exact heq
  · exact absurd ha (hopen _ _ _)

/-- The `Open` of one connection leaves the others as they are. -/
theorem Step.session_of_ne {c d : ClientRef} {req : ResumeRequest} {now : ℤ}
    {newID : Option String} (hstep : σ.Step (.layer (.openSession c req now newID)) σ')
    (h : σ.layer.Inv) (hdc : d ≠ c) :
    (σ'.layer.mem.client d).session = (σ.layer.mem.client d).session :=
  hstep.session_eq h fun _ _ _ ha => by
    cases ha
    exact hdc rfl

/-- A connection stays bound. -/
theorem Step.bound (hstep : σ.Step a σ') (h : σ.layer.Inv) {c : ClientRef} {p : SessionRef}
    (hc : (σ.layer.mem.client c).session = some p) :
    (σ'.layer.mem.client c).session = some p := by
  rcases hstep.session h c with heq | ⟨_, _, _, _, -, hno, -⟩
  · exact heq.trans hc
  · rw [hno] at hc
    cases hc

/-- Every step keeps what is known of the layer. -/
theorem Step.inv (hstep : σ.Step a σ') (h : σ.layer.Inv) : σ'.layer.Inv := by
  rcases hstep.layer with heq | ⟨b, hb, -⟩
  · rw [heq]
    exact h
  · exact h.step hb

/-- No step frees a session. -/
theorem Step.sessionCount_le (hstep : σ.Step a σ') (h : σ.layer.Inv) :
    σ.layer.mem.sessionCount ≤ σ'.layer.mem.sessionCount := by
  rcases hstep.layer with heq | ⟨b, hb, -⟩
  · rw [heq]
  · exact hb.sessionCount_le h

/-- A closed session stays closed. -/
theorem Step.closed (hstep : σ.Step a σ') (h : σ.layer.Inv) {p : SessionRef}
    (hp : p < σ.layer.mem.sessionCount) (hclosed : (σ.layer.mem.session p).state = .closed) :
    (σ'.layer.mem.session p).state = .closed := by
  rcases hstep.layer with heq | ⟨b, hb, -⟩
  · rw [heq]
    exact hclosed
  · rcases hb.session h p with heq | ⟨op, -, ht⟩
    · rw [heq]
      exact hclosed
    · exact ht.closed hp hclosed

end Sys
end GoSocket
