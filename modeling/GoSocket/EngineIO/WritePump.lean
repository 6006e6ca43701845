/-
# The write pump over a polling transport

`WritePump` (`internal/client.go`) writes the pre-queue `replay`, then what comes through
the send channel, and a ping at every tick.  It returns when the channel is closed, or when
a write fails, and on its way out sends a close packet.  Nobody waits for it: the read pump
goes on, and the transport and the channel stay as they are.

`Writers` puts the write pumps of the connections on top of the machine of the handler.  A
call of the transport is a `send` request of the machine, and the pump goes on when it has
returned; `closeRaw` closes the channel after `Close` of the transport has returned.  Only
the pumps write to the transports.  The deadlines and the ticker are not modelled: a tick
may come at any time.

The polling transport reports an outbox that is full for the moment as an error of the
write.  So a pump that has more to replay than the outbox has room for, and no poll coming
in between, gives up for good on a connection that is open (`pump_gives_up`).  If the outbox
has room whenever a call of the pump comes to it, the pump returns only after the transport
or the channel was closed (`pump_stays`).
-/

import GoSocket.EngineIO.Delivery
import GoSocket.Session.Client

namespace GoSocket

open Lib

namespace EngineIO

/-- Where the write pump of a connection is. -/
inductive WriterStage where
  /-- The pump was not started. -/
  | idle
  /-- What is still to be replayed. -/
  | replaying (rest : List Bytes)
  /-- `Write`, the call `n`, of a frame of the replay. -/
  | replayed (n : RequestRef) (frame : Bytes) (rest : List Bytes)
  | selecting
  /-- `Write`, the call `n`, of a frame of the send channel. -/
  | writing (n : RequestRef) (frame : Bytes)
  /-- `Ping`, the call `n`. -/
  | pinging (n : RequestRef)
  /-- `writeCloseFrame` is to come. -/
  | closing
  /-- `SendClose`, the call `n`. -/
  | closeFrame (n : RequestRef)
  | returned
  deriving DecidableEq

/-- The handler with the clients of its connections and their write pumps. -/
structure Writers where
  machine : Machine
  client : ConnRef → Client
  stage : ConnRef → WriterStage

/-- Which case of its `select` the pump takes. -/
inductive WriterChoice where
  | receive
  | tick
  deriving DecidableEq

inductive WritersOp where
  /-- A step of the handler. -/
  | handler (a : MachineOp)
  /-- The pump of a connection is started, with a replay. -/
  | start (c : ConnRef) (replay : List Bytes)
  /-- A frame is sent to a client. -/
  | enqueue (c : ConnRef) (frame : Bytes)
  /-- `close(c.send)`, in `closeRaw`. -/
  | closeSend (c : ConnRef)
  /-- A step of a write pump. -/
  | pump (c : ConnRef) (k : WriterChoice)
  deriving DecidableEq

/-- What a call has returned. -/
def Request.result : Request → Option Bool
  | .send _ _ (.done ok) => some ok
  | _ => none

namespace Writers

def init (maxPayload : ℤ) (sendBuffer : ℤ) : Writers where
  machine := .init maxPayload
  client := fun _ => newClient sendBuffer
  stage := fun _ => .idle

def setStage (w : Writers) (c : ConnRef) (s : WriterStage) : Writers :=
  { w with stage := Function.update w.stage c s }

def setClient (w : Writers) (c : ConnRef) (d : Client) : Writers :=
  { w with client := Function.update w.client c d }

/-- The pump calls the transport. -/
def call (w : Writers) (c : ConnRef) (o : Outgoing) (s : RequestRef → WriterStage) : Writers :=
  { w with
    machine := w.machine.spawn (.send c o .loading)
    stage := Function.update w.stage c (s w.machine.shared.requestCount) }

/-- A frame was written. -/
def wrote (w : Writers) (c : ConnRef) (frame : Bytes) : Writers :=
  w.setClient c { w.client c with written := (w.client c).written ++ [frame] }

/-- A step of `WritePump`. -/
def pumpStep (w : Writers) (c : ConnRef) (k : WriterChoice) : WriterStage → Option Writers
  | .replaying [] => some ((w.setClient c { w.client c with replay := [] }).setStage c .selecting)
  | .replaying (frame :: rest) => some (w.call c (.write frame) (.replayed · frame rest))
  | .replayed n frame rest =>
      match (w.machine.request n).result with
      | some true => some ((w.wrote c frame).setStage c (.replaying rest))
      | some false => some (w.setStage c .closing)
      | none => none
  | .selecting =>
      match k, (w.client c).send with
      | .receive, frame :: send =>
          some ((w.setClient c { w.client c with send := send }).call c (.write frame)
            (.writing · frame))
      | .receive, [] => if (w.client c).closed then some (w.setStage c .closing) else none
      | .tick, _ => some (w.call c .ping .pinging)
  | .writing n frame =>
      match (w.machine.request n).result with
      | some true => some ((w.wrote c frame).setStage c .selecting)
      | some false => some (w.setStage c .closing)
      | none => none
  | .pinging n =>
      match (w.machine.request n).result with
      | some true => some (w.setStage c .selecting)
      | some false => some (w.setStage c .closing)
      | none => none
  | .closing => some (w.call c .sendClose .closeFrame)
  | .closeFrame n =>
      match (w.machine.request n).result with
      | some _ => some (w.setStage c .returned)
      | none => none
  | .idle | .returned => none

/-- The steps of the handler that do not belong to the pumps. -/
def Handles : MachineOp → Prop
  | .send .. => False
  | _ => True

instance (a : MachineOp) : Decidable (Handles a) := by
  unfold Handles
  split <;> infer_instance

def step (w : Writers) : WritersOp → Option Writers
  | .handler a =>
      if Handles a then (w.machine.step a).map fun m => { w with machine := m } else none
  | .start c replay =>
      if c < w.machine.shared.connCount ∧ w.stage c = .idle then
        some ((w.setClient c { w.client c with replay := replay }).setStage c (.replaying replay))
      else none
  | .enqueue c frame => some (w.setClient c ((w.client c).enqueue frame).1)
  | .closeSend c =>
      if w.machine.closer c = .done ∧ (w.client c).closed = false then
        some (w.setClient c (w.client c).closeRaw)
      else none
  | .pump c k =>
      if c < w.machine.shared.connCount then w.pumpStep c k (w.stage c) else none

/-- The step relation of the pumps. -/
def Step (w : Writers) (a : WritersOp) (w' : Writers) : Prop := w.step a = some w'

end Writers

namespace WriterStage

/-- The call of `Write` or `Ping` the pump waits for. -/
def call : WriterStage → Option RequestRef
  | .replayed n _ _ | .writing n _ | .pinging n => some n
  | .idle | .replaying _ | .selecting | .closing | .closeFrame _ | .returned => none

/-- The pump has given up. -/
def Gone : WriterStage → Prop
  | .closing | .closeFrame _ | .returned => True
  | _ => False

/-- A pump inside a call has not returned. -/
theorem not_gone_of_call {s : WriterStage} {n : RequestRef} (h : s.call = some n) : ¬ s.Gone := by
  cases s with
  | replayed | writing | pinging => exact id
  | _ => cases h

end WriterStage

namespace Writers

section views

variable (w : Writers) {c d : ConnRef} (s : WriterStage) (x : Client)

@[simp] theorem setStage_client : (w.setStage c s).client = w.client := rfl

@[simp] theorem setStage_stage_self : (w.setStage c s).stage c = s := Function.update_self ..

/-- Setting the stage of one pump leaves the others where they are. -/
theorem setStage_stage_of_ne (h : c ≠ d) : (w.setStage d s).stage c = w.stage c :=
  Function.update_of_ne h ..

@[simp] theorem setClient_client_self : (w.setClient c x).client c = x := Function.update_self ..

/-- Setting a client leaves the others as they are. -/
theorem setClient_client_of_ne (h : c ≠ d) : (w.setClient d x).client c = w.client c :=
  Function.update_of_ne h ..

/-- Setting a client to what it is changes nothing. -/
theorem setClient_self (w : Writers) (c : ConnRef) : w.setClient c (w.client c) = w := by
  simp [setClient]

variable (o : Outgoing) (f : RequestRef → WriterStage)

@[simp] theorem call_client : (w.call c o f).client = w.client := rfl

/-- A call of the transport puts its pump at the stage that waits for it. -/
@[simp] theorem call_stage_self :
    (w.call c o f).stage c = f w.machine.shared.requestCount :=
  Function.update_self ..

/-- A call leaves the other pumps where they are. -/
theorem call_stage_of_ne (h : c ≠ d) : (w.call d o f).stage c = w.stage c :=
  Function.update_of_ne h ..

end views

variable {w w' : Writers} {a : WritersOp} {c : ConnRef}

/-- Why the pump is gone: it was, or the channel is closed, or its call has failed. -/
def Excused (w : Writers) (c : ConnRef) : Prop :=
  (w.stage c).Gone ∨ (w.client c).closed = true ∨
    ∃ n, (w.stage c).call = some n ∧ (w.machine.request n).result = some false

/-- The steps of a pump. -/
inductive Pumped (w : Writers) (c : ConnRef) : Writers → Prop where
  | call {o : Outgoing} {f : RequestRef → WriterStage} {x : Client} :
      x.closed = (w.client c).closed → o ≠ .sendClose → (∀ n, (f n).call = some n) →
      Pumped w c ((w.setClient c x).call c o f)
  | closeFrame : w.stage c = .closing → Pumped w c (w.call c .sendClose .closeFrame)
  | moved {s : WriterStage} {x : Client} : x.closed = (w.client c).closed → s.call = none →
      (s.Gone → w.Excused c) → Pumped w c ((w.setClient c x).setStage c s)

/-- The pump goes on with its client as it is. -/
theorem Pumped.stay {s : WriterStage} (hs : s.call = none) (hgone : s.Gone → w.Excused c) :
    w.Pumped c (w.setStage c s) := by
  have h := Pumped.moved (w := w) (c := c) rfl hs hgone
  rwa [setClient_self] at h

/-- A call other than that of the close packet keeps its pump running. -/
theorem Pumped.call_stay {o : Outgoing} {f : RequestRef → WriterStage} (ho : o ≠ .sendClose)
    (hf : ∀ n, (f n).call = some n) : w.Pumped c (w.call c o f) := by
  have h := Pumped.call (w := w) (c := c) rfl ho hf
  rwa [setClient_self] at h

/-- The pump has waited for a call. -/
theorem pumped_result {n : RequestRef} {s : WriterStage}
    (hcall : (w.stage c).call = some n) (hs : s.call = none) (hgone : ¬ s.Gone) {f : Writers}
    (hf : f = w.setStage c s ∨ ∃ frame, f = (w.wrote c frame).setStage c s)
    (h : (match (w.machine.request n).result with
      | some true => some f
      | some false => some (w.setStage c .closing)
      | none => none) = some w') : w.Pumped c w' := by
  split at h
  next =>
    obtain rfl := Option.some.inj h
    rcases hf with rfl | ⟨frame, rfl⟩
    · exact .stay hs fun hs' => absurd hs' hgone
    · exact .moved rfl hs fun hs' => absurd hs' hgone
  next hresult =>
    obtain rfl := Option.some.inj h
    exact .stay rfl fun _ => Or.inr (Or.inr ⟨n, hcall, hresult⟩)
  next => cases h

/-- **Everything a pump can do.** -/
theorem pumped {k : WriterChoice} (h : w.pumpStep c k (w.stage c) = some w') : w.Pumped c w' := by
  generalize hs : w.stage c = s at h
  cases s with
  | idle | returned => cases h
  | replaying rest =>
      cases rest with
      | nil =>
          obtain rfl := Option.some.inj h
          exact .moved rfl rfl nofun
      | cons frame rest =>
          obtain rfl := Option.some.inj h
          exact .call_stay nofun fun _ => rfl
  | replayed n frame rest =>
      exact pumped_result (by rw [hs]; rfl) rfl id (Or.inr ⟨frame, rfl⟩) h
  | writing n frame => exact pumped_result (by rw [hs]; rfl) rfl id (Or.inr ⟨frame, rfl⟩) h
  | pinging n => exact pumped_result (by rw [hs]; rfl) rfl id (Or.inl rfl) h
  | selecting =>
      simp only [pumpStep] at h
      split at h
      · obtain rfl := Option.some.inj h
        exact .call rfl nofun fun _ => rfl
      · obtain ⟨hclosed, h⟩ := Option.ite_none_right_eq_some.1 h
        obtain rfl := Option.some.inj h
        exact .stay rfl fun _ => Or.inr (Or.inl hclosed)
      · obtain rfl := Option.some.inj h
        exact .call_stay nofun fun _ => rfl
  | closing =>
      obtain rfl := Option.some.inj h
      exact .closeFrame hs
  | closeFrame n =>
      simp only [pumpStep] at h
      split at h
      · obtain rfl := Option.some.inj h
        exact .stay rfl fun _ => Or.inl (by rw [hs]; trivial)
      · cases h

/-- **Everything a step can be** for one connection: what becomes of the handler, of the pump
and of the send channel. -/
inductive Seen (w : Writers) (a : WritersOp) (c : ConnRef) :
    Machine → WriterStage → Bool → Prop where
  | handler {b : MachineOp} {m : Machine} : a = .handler b → w.machine.Step b m →
      Seen w a c m (w.stage c) (w.client c).closed
  /-- A pump calls its transport: that of another connection, or to send a close packet. -/
  | spawn {d : ConnRef} {o : Outgoing} {s : WriterStage} : d < w.machine.shared.connCount →
      s.call = (w.stage c).call → (s.Gone → (w.stage c).Gone) →
      Seen w a c (w.machine.spawn (.send d o .loading)) s (w.client c).closed
  | call {o : Outgoing} {f : RequestRef → WriterStage} : c < w.machine.shared.connCount →
      o ≠ .sendClose → (∀ n, (f n).call = some n) →
      Seen w a c (w.machine.spawn (.send c o .loading)) (f w.machine.shared.requestCount)
        (w.client c).closed
  | moved {s : WriterStage} : c < w.machine.shared.connCount → s.call = none →
      (s.Gone → w.Excused c) → Seen w a c w.machine s (w.client c).closed
  | same : Seen w a c w.machine (w.stage c) (w.client c).closed
  | closed : Seen w a c w.machine (w.stage c) true

/-- Queueing a frame closes no client. -/
theorem enqueue_closed (x : Client) (frame : Bytes) : (x.enqueue frame).1.closed = x.closed := by
  unfold Client.enqueue
  split_ifs <;> rfl

/-- What a step of one pump is for every connection. -/
theorem Pumped.seen {d : ConnRef} (h : w.Pumped d w') (hd : d < w.machine.shared.connCount)
    (a : WritersOp) (c : ConnRef) :
    Seen w a c w'.machine (w'.stage c) (w'.client c).closed := by
  by_cases hc : c = d
  · subst hc
    cases h with
    | call hx ho hf =>
        rw [call_client, setClient_client_self, hx, call_stage_self]
        exact .call hd ho hf
    | closeFrame hs =>
        rw [call_stage_self]
        exact .spawn hd (by rw [hs]; rfl) fun _ => by rw [hs]; trivial
    | moved hx hs hgone =>
        rw [setStage_client, setClient_client_self, hx, setStage_stage_self]
        exact .moved hd hs hgone
  · cases h with
    | call =>
        rw [call_client, setClient_client_of_ne _ _ hc, call_stage_of_ne _ _ _ hc]
        exact .spawn hd rfl id
    | closeFrame =>
        rw [call_stage_of_ne _ _ _ hc]
        exact .spawn hd rfl id
    | moved =>
        rw [setStage_client, setClient_client_of_ne _ _ hc, setStage_stage_of_ne _ _ hc]
        exact .same

/-- What a step is for one connection. -/
theorem Step.seen (h : w.Step a w') (c : ConnRef) :
    Seen w a c w'.machine (w'.stage c) (w'.client c).closed := by
  -- what happens to one client leaves the others alone
  have hclient : ∀ {d x}, (x.closed = (w.client d).closed ∨ x.closed = true) →
      Seen w a c w.machine (w.stage c) ((w.setClient d x).client c).closed := by
    intro d x hx
    by_cases hc : c = d
    · subst hc
      rw [setClient_client_self]
      rcases hx with hx | hx <;> rw [hx]
      · exact .same
      · exact .closed
    · rw [setClient_client_of_ne _ _ hc]
      exact .same
  unfold Step step at h
  cases a with
  | handler b =>
      obtain ⟨-, h⟩ := Option.ite_none_right_eq_some.1 h
      obtain ⟨m, hm, rfl⟩ := Option.map_eq_some_iff.1 h
      exact .handler rfl hm
  | start d replay =>
      obtain ⟨⟨hd, hidle⟩, h⟩ := Option.ite_none_right_eq_some.1 h
      obtain rfl := Option.some.inj h
      have hmoved : w.Pumped d ((w.setClient d { w.client d with replay := replay }).setStage d
        (.replaying replay)) := .moved rfl rfl nofun
      exact hmoved.seen hd _ c
  | enqueue d frame =>
      obtain rfl := Option.some.inj h
      exact hclient (Or.inl (enqueue_closed ..))
  | closeSend d =>
      obtain ⟨-, h⟩ := Option.ite_none_right_eq_some.1 h
      obtain rfl := Option.some.inj h
      exact hclient (Or.inr rfl)
  | pump d k =>
      obtain ⟨hd, h⟩ := Option.ite_none_right_eq_some.1 h
      exact (pumped h).seen hd _ c

/-- **Every run of the pumps is a run of the handler.** -/
theorem machine_reachable (h : Reachable Step w w') :
    Reachable Machine.Step w.machine w'.machine := by
  refine h.project fun w a w' hstep => ?_
  have hcall : ∀ {d} (o : Outgoing), d < w.machine.shared.connCount →
      ∃ b, w.machine.Step b (w.machine.spawn (.send d o .loading)) := fun {d} o hd =>
    ⟨.send d o, if_pos hd⟩
  have hseen := hstep.seen 0
  generalize w'.machine = m at hseen ⊢
  generalize w'.stage 0 = s, (w'.client 0).closed = b at hseen
  cases hseen with
  | handler _ hm => exact Or.inr ⟨_, hm⟩
  | spawn hd => exact Or.inr (hcall _ hd)
  | call hc => exact Or.inr (hcall _ hc)
  | moved | same | closed => exact Or.inl rfl

/-- What `Roomy` asks of a request where it is; nobody looks at the error of `SendClose`. -/
def RoomyRequest (m : Machine) (c : ConnRef) : Request → Prop
  | .send d o (.enqueuing .send) => d = c → o ≠ .sendClose →
      (m.shared.conn c).polling.outbox.length < chanCapacity ∨
        (m.shared.conn c).polling.closed = true
  | _ => True

instance (m : Machine) (c : ConnRef) (r : Request) : Decidable (RoomyRequest m c r) := by
  unfold RoomyRequest
  split <;> infer_instance

/-- When a `Write` or a `Ping` of the pump comes to the outbox, there is room, or the
transport is closed. -/
def Roomy (c : ConnRef) (w : Writers) : WritersOp → Prop
  | .handler (.run (.request n) _) => RoomyRequest w.machine c (w.machine.request n)
  | _ => True

instance (c : ConnRef) (w : Writers) (a : WritersOp) : Decidable (Roomy c w a) := by
  unfold Roomy
  split <;> infer_instance

/-- What is known of the pump of a connection between two steps of a run of `Roomy`. -/
structure Manned (c : ConnRef) (m : Machine) (s : WriterStage) (closed : Bool) : Prop where
  sound : m.Sound
  spawned : m.Spawned
  started : (s.Gone ∨ s.call ≠ none) → c < m.shared.connCount
  called : ∀ n, s.call = some n → ∃ o t, m.request n = .send c o t ∧ o ≠ .sendClose
  polling : (m.shared.conn c).current = .polling → ∀ n, ¬ (m.request n).OnSocket c
  /-- A `Write` or a `Ping` fails on a closed transport only. -/
  failed : (m.shared.conn c).current = .polling → ∀ n o, m.request n = .send c o (.done false) →
    o ≠ .sendClose → (m.shared.conn c).polling.closed = true
  gone : (m.shared.conn c).current = .polling → s.Gone →
    (m.shared.conn c).polling.closed = true ∨ closed = true

end Writers

/-- A call that is not on the WebSocket fails because the transport is closed or its outbox is
full. -/
theorem SendStage.next_failed {m : Memory} {n : RequestRef} {c : ConnRef} {o : Outgoing}
    {k : Choice} {s : SendStage} {e : Effect} (h : s.next m n c o k = some (.done false, e))
    (hno : ¬ (Request.send c o s).OnSocket c) :
    (m.conn c).polling.closed = true ∨
      (s = .enqueuing .send ∧ ¬ (m.conn c).polling.outbox.length < chanCapacity) := by
  cases s with
  | loading =>
      simp only [SendStage.next] at h
      split at h <;> cases h
  | polling =>
      simp only [SendStage.next] at h
      split_ifs at h with hclosed
      · exact Or.inl hclosed
      · cases h
  | enqueuing t =>
      cases t with
      | check =>
          simp only [SendStage.next, EnqueueStage.next] at h
          split_ifs at h with hclosed
          · exact Or.inl hclosed
          · cases h
      | send =>
          simp only [SendStage.next, EnqueueStage.next] at h
          split_ifs at h with hroom
          · cases h
          · exact Or.inr ⟨rfl, hroom⟩
      | signal => cases h
  | websocket | sending => exact absurd rfl hno
  | done => cases h

namespace Writers

variable {w w' : Writers} {a : WritersOp} {c : ConnRef}

namespace Manned

variable {m : Machine} {s : WriterStage} {b : Bool}

/-- No pump is running at first. -/
theorem init (maxPayload : ℤ) (c : ConnRef) :
    Manned c (.init maxPayload) .idle false where
  sound := Machine.sound_init maxPayload
  spawned := .init maxPayload
  started h := by
    rcases h with h | h
    · exact absurd h id
    · exact absurd rfl h
  called _ h := nomatch h
  polling _ _ := id
  failed _ _ _ h := nomatch h
  gone _ h := absurd h id

/-- A request starts; the pump may go on, and waits for the call it has waited for. -/
theorem spawn (h : Manned c m s b) {r : Request} (hr : m.Starts r) {s' : WriterStage}
    (hcall : s'.call = s.call) (hgone : s'.Gone → s.Gone) : Manned c (m.spawn r) s' b where
  sound := h.sound.spawn hr
  spawned := h.spawned.spawn r
  started hs := h.started (hs.imp hgone fun hs => hcall ▸ hs)
  called n hn := by
    obtain ⟨o, t, hreq, ho⟩ := h.called n (hcall ▸ hn)
    have hlt := h.spawned.lt (n := n) (by rw [hreq]; simp)
    exact ⟨o, t, by rwa [Machine.spawn_request_of_ne _ _ hlt.ne], ho⟩
  polling hcur n hn := by
    refine h.polling hcur n (Machine.of_spawn m ?_ hn)
    cases hr <;> exact id
  failed hcur n o hn := by
    refine h.failed hcur n o (Machine.of_spawn (P := (· = .send c o (.done false))) m ?_ hn)
    rintro rfl
    cases hr
  gone hcur hs := h.gone hcur (hgone hs)

/-- The pump of a new connection is still to start. -/
theorem create (h : Manned c m s b) {sid : String} (hfresh : m.shared.Fresh sid) :
    Manned c { m with shared := m.shared.create sid } s b := by
  refine ⟨h.sound.create hfresh, h.spawned.create sid, fun hs => Nat.lt_succ_of_lt (h.started hs),
    h.called, fun hcur n hn => ?_, fun hcur n o hn ho => ?_, fun hcur hs => ?_⟩
  · have hlt := Machine.onSocket_lt h.sound hn
    rw [Memory.create_conn hlt] at hcur
    exact h.polling hcur n hn
  · have hlt := Machine.send_lt h.sound hn
    rw [Memory.create_conn hlt] at hcur ⊢
    exact h.failed hcur n o hn ho
  · have hlt := h.started (Or.inl hs)
    rw [Memory.create_conn hlt] at hcur ⊢
    exact h.gone hcur hs

/-- A step of the handler keeps what is known of the pump, while the outbox has room. -/
theorem run (h : Manned c m s b) {i : ThreadRef} {k : Choice} {l : i.Local} {e : Effect}
    (hnext : i.next m.shared k (m.thread i) = some (l, e))
    (hG : ∀ n, i = .request n → RoomyRequest m c (m.request n)) :
    Manned c (m.put i (m.shared.apply e) l) s b := by
  have hs := ThreadRef.took hnext
  refine ⟨h.sound.run hs, h.spawned.run hs, fun hst => by simpa using h.started hst,
    fun n hn => ?_, fun hcur n hn => ?_, fun hcur n o hn ho => ?_, fun hcur hst => ?_⟩
  · obtain ⟨o, t, hr, ho⟩ := h.called n hn
    refine Machine.put_request (P := fun r => ∃ o t, r = .send c o t ∧ o ≠ .sendClose) hs
      ⟨o, t, hr, ho⟩ fun r _ hs => ?_
    rw [hr] at hs
    cases hs with
    | send hs => exact ⟨o, _, rfl, ho⟩
  · have hwas := Memory.polling_of_apply hcur
    exact h.polling hwas n (Machine.onSocket_of_run hs hwas hn)
  · have hwas := Memory.polling_of_apply hcur
    refine Memory.closed_apply_of_closed ?_
    rcases Machine.of_put_next (P := (· = .send c o (.done false))) hnext hn with
      hn | ⟨_, rfl, hstep, rfl⟩
    · exact h.failed hwas n o hn ho
    · have hno := h.polling hwas n
      have hroomy := hG n rfl
      generalize m.request n = r at hstep hno hroomy
      cases hstep with
      | send hstep =>
          rcases SendStage.next_failed hstep hno with hclosed | ⟨rfl, hfull⟩
          · exact hclosed
          · -- the outbox has room, or the transport is closed
            exact (hroomy rfl ho).resolve_left hfull
  · have hwas := Memory.polling_of_apply hcur
    exact (h.gone hwas hst).imp_left Memory.closed_apply_of_closed

/-- A step of the handler. -/
theorem handler (h : Manned c m s b) {a : MachineOp} {m' : Machine} (hstep : m.Step a m')
    (hG : ∀ n k, a = .run (.request n) k → RoomyRequest m c (m.request n)) :
    Manned c m' s b := by
  cases hstep.took with
  | create hfresh => exact h.create hfresh
  | get sid => exact h.spawn (.polling fun c hc => .get hc) rfl id
  | post sid body => exact h.spawn (.polling fun c hc => .posted hc _ body) rfl id
  | upgrade sid => exact h.spawn (.upgrade sid) rfl id
  | send o hc => exact h.spawn (.send o hc) rfl id
  | @run i k l e hnext => exact h.run hnext fun n hi => hG n k (by rw [hi])

/-- The pump calls its transport, and waits for the call. -/
theorem call (h : Manned c m s b) {o : Outgoing} {f : RequestRef → WriterStage}
    (hc : c < m.shared.connCount) (ho : o ≠ .sendClose) (hf : ∀ n, (f n).call = some n) :
    Manned c (m.spawn (.send c o .loading)) (f m.shared.requestCount) b := by
  have hidle : Manned c (m.spawn (.send c o .loading)) .selecting b :=
    spawn (s := .selecting) { h with
      started := fun hs => hs.elim (fun hs => absurd hs id) fun hs => absurd rfl hs
      called := nofun
      gone := fun _ hs => absurd hs id } (.send o hc) rfl id
  refine { hidle with started := fun _ => hc, called := fun n hn => ?_, gone := fun _ hs => ?_ }
  · obtain rfl := Option.some.inj ((hf _).symm.trans hn)
    exact ⟨o, .loading, Machine.spawn_request_self .., ho⟩
  · exact absurd hs (WriterStage.not_gone_of_call (hf _))

/-- **What the steps of a run of `Roomy` keep.** -/
theorem seen (h : Manned c w.machine (w.stage c) (w.client c).closed) (hG : Roomy c w a)
    (hseen : Seen w a c m s b) : Manned c m s b := by
  cases hseen with
  | handler ha hm =>
      subst ha
      refine h.handler hm fun n k hb => ?_
      subst hb
      exact hG
  | spawn hd hcall hgone => exact h.spawn (.send _ hd) hcall hgone
  | call hc ho hf => exact h.call hc ho hf
  | moved hc hcall hexcused =>
      refine { h with
        started := fun _ => hc
        called := fun n hn => absurd (hcall.symm.trans hn) nofun
        gone := fun hcur hs => ?_ }
      rcases hexcused hs with hgone | hclosed | ⟨n, hn, hresult⟩
      · exact h.gone hcur hgone
      · exact Or.inr hclosed
      · obtain ⟨o, t, hr, ho⟩ := h.called n hn
        rw [hr] at hresult
        cases t with
        | done ok =>
            obtain rfl : ok = false := Option.some.inj hresult
            exact Or.inl (h.failed hcur n o hr ho)
        | _ => cases hresult
  | same => exact h
  | closed => exact { h with gone := fun _ _ => Or.inr rfl }

end Manned

/-- **The write pump does not go alone**: over a polling transport whose outbox has room
whenever a `Write` or a `Ping` of the pump comes to it, the transport or the send channel is
closed when the pump has returned. -/
theorem pump_stays (maxPayload sendBuffer : ℤ) (c : ConnRef) (w : Writers)
    (h : Reachable (Guarded (Roomy c) Step) (init maxPayload sendBuffer) w)
    (hcur : (w.machine.shared.conn c).current = .polling) (hret : w.stage c = .returned) :
    (w.machine.shared.conn c).polling.closed = true ∨ (w.client c).closed = true := by
  have hm : Manned c w.machine (w.stage c) (w.client c).closed :=
    h.invariant (P := fun w => Manned c w.machine (w.stage c) (w.client c).closed)
      (.init maxPayload c) fun _ _ _ hw hstep => hw.seen hstep.1 (hstep.2.seen c)
  exact hm.gone hcur (by rw [hret]; trivial)

/-- `k` steps of one goroutine of the handler. -/
def advance (i : ThreadRef) (k : ℕ) : List WritersOp := List.replicate k (.handler (.run i .go))

/-- A frame is replayed, the connection is shut down, and the pump sees its channel closed. -/
theorem pump_stays_shutdown :
    ∃ w, Reachable (Guarded (Roomy 0) Step) (init 100 256) w ∧ w.stage 0 = .returned ∧
      (w.client 0).written = [ascii "a"] ∧
      ((w.machine.shared.conn 0).polling.closed = true ∨ (w.client 0).closed = true) := by
  obtain ⟨w, hw, hp⟩ := Reachable.of_exec_guarded (G := Roomy 0) step (s := init 100 256)
    (.handler (.create "s") :: .start 0 [ascii "a"] :: .pump 0 .receive ::
      advance (.request 0) 5 ++ .pump 0 .receive :: .pump 0 .receive :: advance (.closer 0) 4 ++
      .closeSend 0 :: .pump 0 .receive :: .pump 0 .receive :: advance (.request 1) 2 ++
      [.pump 0 .receive])
    (p := fun w => (w.machine.shared.conn 0).current = .polling ∧ w.stage 0 = .returned ∧
      (w.client 0).written = [ascii "a"])
    (by decide +kernel)
  obtain ⟨hcur, hret, hwritten⟩ := of_decide_eq_true hp
  exact ⟨w, hw, hret, hwritten, pump_stays 100 256 0 w hw hcur hret⟩

end Writers

namespace Machine

variable {m : Machine} {n : RequestRef} {c : ConnRef} {o : Outgoing} {j : ℕ}

/-- The connection is open and over polling, its session can be polled and its read pump is
there, and `j` wires are in its outbox. -/
structure Unread (m : Machine) (c : ConnRef) (j : ℕ) : Prop where
  lt : c < m.shared.connCount
  current : (m.shared.conn c).current = .polling
  opened : (m.shared.conn c).polling.closed = false
  polls : m.shared.getPolling (m.sid c) = some c
  reads : m.pump c = .idle
  outbox : (m.shared.conn c).polling.outbox.length = j

/-- A call on such a connection has come to `s`, with nobody else taking a step. -/
def Calls (m : Machine) (n : RequestRef) (c : ConnRef) (o : Outgoing) (s : SendStage) (j : ℕ) :
    Prop :=
  ∃ m', Reachable (Guarded (fun _ => Writers.Handles) Step) m m' ∧ m'.Unread c j ∧
    m'.request n = .send c o s

/-- A call takes a step on its connection. -/
theorem Calls.step {s s' : SendStage} {e : Effect} {j' : ℕ} (h : m.Calls n c o s j)
    (hnext : ∀ m' : Machine, m'.Unread c j → s.next m'.shared n c o .go = some (s', e))
    (he : (e = .nothing ∧ j' = j) ∨ (e = .conn c .wake ∧ j' = j) ∨
      ∃ bytes, e = .conn c (.enqueue n bytes) ∧ j' = j + 1) : m.Calls n c o s' j' := by
  obtain ⟨m', hm', hunread, hr⟩ := h
  have hstep : Guarded (fun _ => Writers.Handles) Step m' (.run (.request n) .go)
      (m'.put (.request n) (m'.shared.apply e) (.send c o s')) := by
    refine ⟨trivial, ?_⟩
    simp only [Step, Machine.step, ThreadRef.next, show m'.thread (.request n) = _ from hr,
      Request.next, hnext m' hunread, Option.map_some]
  refine ⟨_, hm'.trans ((Reachable.refl _).head hstep), ?_, request_put_self ..⟩
  obtain ⟨hlt, hcur, hopen, hpolls, hreads, hout⟩ := hunread
  have hreads' : pump (m'.put (.request n) (m'.shared.apply e) (.send c o s')) c = .idle := by
    rw [pump_put_of_ne _ _ _ (by simp)]
    exact hreads
  have hpolls' : ∀ b, (m'.shared.apply (.conn c b)).getPolling
      ((m'.shared.apply (.conn c b)).conn c).polling.sid = some c := fun b => by
    rw [Memory.apply_sid]
    exact hpolls
  rcases he with ⟨rfl, rfl⟩ | ⟨rfl, rfl⟩ | ⟨bytes, rfl, rfl⟩
  · exact ⟨hlt, hcur, hopen, hpolls, hreads', hout⟩
  · exact ⟨hlt, by simpa [Conn.apply] using hcur, by simpa [Conn.apply] using hopen, hpolls' _,
      hreads', by simpa [Conn.apply] using hout⟩
  · exact ⟨hlt, by simpa [Conn.apply] using hcur, by simpa [Conn.apply] using hopen, hpolls' _,
      hreads', by simp [Conn.apply, hout]⟩

/-- A call comes to the outbox. -/
theorem calls_enqueue (h : m.Unread c j) (hr : m.request n = .send c o .loading) :
    m.Calls n c o (.enqueuing .send) j := by
  have h₀ : m.Calls n c o .loading j := ⟨m, .refl m, h, hr⟩
  have h₁ : m.Calls n c o .polling j :=
    h₀.step (fun m' h' => by simp [SendStage.next, h'.current]) (Or.inl ⟨rfl, rfl⟩)
  have h₂ : m.Calls n c o (.enqueuing .check) j :=
    h₁.step (fun m' h' => by simp [SendStage.next, h'.opened]) (Or.inl ⟨rfl, rfl⟩)
  exact h₂.step (fun m' h' => by simp [SendStage.next, EnqueueStage.next, h'.opened])
    (Or.inl ⟨rfl, rfl⟩)

/-- A call that finds room in the outbox returns nil. -/
theorem calls_room (h : m.Unread c j) (hr : m.request n = .send c o .loading)
    (hj : j < chanCapacity) : m.Calls n c o (.done true) (j + 1) := by
  have h₃ : m.Calls n c o (.enqueuing .signal) (j + 1) :=
    (calls_enqueue h hr).step (e := .conn c (.enqueue n (wire o.packet.type o.packet.data)))
      (fun m' h' => by simp [SendStage.next, EnqueueStage.next, h'.outbox, hj])
      (Or.inr (Or.inr ⟨_, rfl, rfl⟩))
  exact h₃.step (fun m' h' => by simp [SendStage.next, EnqueueStage.next])
    (Or.inr (Or.inl ⟨rfl, rfl⟩))

/-- A call that finds the outbox full fails. -/
theorem calls_full (h : m.Unread c j) (hr : m.request n = .send c o .loading)
    (hj : chanCapacity ≤ j) : m.Calls n c o (.done false) j :=
  (calls_enqueue h hr).step
    (fun m' h' => by simp [SendStage.next, EnqueueStage.next, h'.outbox, Nat.not_lt.2 hj])
    (Or.inl ⟨rfl, rfl⟩)

end Machine

namespace Writers

variable {w : Writers} {c : ConnRef} {j : ℕ}

/-- What the handler does by itself. -/
theorem reachable_handler {m : Machine}
    (h : Reachable (Guarded (fun _ => Handles) Machine.Step) w.machine m) :
    Reachable Step w { w with machine := m } := by
  refine h.project (f := fun m => { w with machine := m }) fun m b m' hstep => Or.inr ?_
  obtain ⟨hb, hstep⟩ := hstep
  refine ⟨.handler b, ?_⟩
  simp only [Step, step, if_pos hb, show m.step b = some m' from hstep, Option.map_some]

/-- The connection is open on both sides, and its pump has come to `s` with `j` wires in the
outbox. -/
structure Unattended (w : Writers) (c : ConnRef) (s : WriterStage) (j : ℕ) : Prop where
  unread : w.machine.Unread c j
  opened : (w.client c).closed = false
  stage : w.stage c = s

/-- The pump takes a step. -/
theorem Unattended.step {s : WriterStage} {w' : Writers} (h : w.Unattended c s j)
    (hpump : w.pumpStep c .receive s = some w') : w.Step (.pump c .receive) w' := by
  simp only [Step, Writers.step, h.stage, if_pos h.unread.lt, hpump]

/-- The pump is started. -/
theorem Unattended.start (h : w.Unattended c .idle j) (replay : List Bytes) :
    ∃ w', w.Step (.start c replay) w' ∧ w'.Unattended c (.replaying replay) j := by
  refine ⟨_, if_pos ⟨h.unread.lt, h.stage⟩, h.unread, ?_, setStage_stage_self ..⟩
  rw [setStage_client, setClient_client_self]
  exact h.opened

/-- The pump calls the transport and waits until the call has returned. -/
theorem Unattended.call {s : WriterStage} {o : Outgoing} {f : RequestRef → WriterStage} {ok : Bool}
    {j' : ℕ} (h : w.Unattended c s j) (hpump : w.pumpStep c .receive s = some (w.call c o f))
    (hcalls : ∀ {m : Machine} {n}, m.Unread c j → m.request n = .send c o .loading →
      m.Calls n c o (.done ok) j') :
    ∃ w' n, Reachable Step w w' ∧ w'.Unattended c (f n) j' ∧
      (w'.machine.request n).result = some ok := by
  obtain ⟨hlt, hcur, hopen, hpolls, hreads, hout⟩ := h.unread
  have hspawn : (w.call c o f).machine.Unread c j :=
    ⟨hlt, hcur, hopen, hpolls, (w.machine.spawn_pump _ c).trans hreads, hout⟩
  obtain ⟨m, hm, hunread, hr⟩ :=
    hcalls hspawn (w.machine.spawn_request_self (.send c o .loading))
  refine ⟨{ w.call c o f with machine := m }, w.machine.shared.requestCount,
    (reachable_handler hm).head (h.step hpump), ⟨hunread, h.opened, w.call_stage_self o f⟩, ?_⟩
  rw [show ({ w.call c o f with machine := m } : Writers).machine.request _ = _ from hr]
  rfl

/-- A frame is replayed into an outbox that has room. -/
theorem replay_room {frame : Bytes} {rest : List Bytes}
    (h : w.Unattended c (.replaying (frame :: rest)) j) (hj : j < chanCapacity) :
    ∃ w', Reachable Step w w' ∧ w'.Unattended c (.replaying rest) (j + 1) := by
  obtain ⟨w', n, hw', h', hresult⟩ := h.call rfl fun hm hr => Machine.calls_room hm hr hj
  have hpump : w'.pumpStep c .receive (.replayed n frame rest) =
      some ((w'.wrote c frame).setStage c (.replaying rest)) := by
    simp [pumpStep, hresult]
  refine ⟨_, hw'.trans ((Reachable.refl _).head (h'.step hpump)), h'.unread, ?_,
    setStage_stage_self ..⟩
  simpa [wrote] using h'.opened

/-- A frame that finds the outbox full ends the pump. -/
theorem replay_full {frame : Bytes} {rest : List Bytes}
    (h : w.Unattended c (.replaying (frame :: rest)) j) (hj : chanCapacity ≤ j) :
    ∃ w', Reachable Step w w' ∧ w'.Unattended c .returned j := by
  -- `Write` fails, and so does `SendClose`
  obtain ⟨w₁, n₁, hw₁, h₁, hresult₁⟩ := h.call rfl fun hm hr => Machine.calls_full hm hr hj
  have hpump₁ : w₁.pumpStep c .receive (.replayed n₁ frame rest) =
      some (w₁.setStage c .closing) := by
    simp [pumpStep, hresult₁]
  have hclosing : (w₁.setStage c .closing).Unattended c .closing j :=
    ⟨h₁.unread, h₁.opened, setStage_stage_self ..⟩
  obtain ⟨w₂, n₂, hw₂, h₂, hresult₂⟩ :=
    hclosing.call rfl fun hm hr => Machine.calls_full hm hr hj
  have hpump₂ : w₂.pumpStep c .receive (.closeFrame n₂) = some (w₂.setStage c .returned) := by
    simp [pumpStep, hresult₂]
  have hreturned := hw₂.trans ((Reachable.refl _).head (h₂.step hpump₂))
  exact ⟨_, hw₁.trans (hreturned.head (h₁.step hpump₁)), h₂.unread, h₂.opened,
    setStage_stage_self ..⟩

/-- **A replay that the outbox has no room for ends the pump**, if no poll comes in between;
the connection stays open. -/
theorem replay_overflows {replay : List Bytes} (h : w.Unattended c (.replaying replay) j)
    (hreplay : chanCapacity < j + replay.length) (hj : j ≤ chanCapacity) :
    ∃ w', Reachable Step w w' ∧ w'.Unattended c .returned chanCapacity := by
  induction replay generalizing w j with
  | nil => exact absurd hreplay (by simpa using hj)
  | cons frame rest ih =>
      rcases Nat.lt_or_eq_of_le hj with hlt | rfl
      · obtain ⟨w', hw', h'⟩ := replay_room h hlt
        obtain ⟨w'', hw'', h''⟩ := ih h' (by rw [List.length_cons] at hreplay; omega) hlt
        exact ⟨w'', hw'.trans hw'', h''⟩
      · exact replay_full h le_rfl

/-- **Counterexample.**  A client has 65 frames to replay and no poll comes: the pump has
returned, the transport and the send channel are open, the session can be polled and the
read pump is there. -/
theorem pump_gives_up :
    ∃ w, Reachable Step (init 100 256) w ∧ w.stage 0 = .returned ∧
      (w.machine.shared.conn 0).polling.closed = false ∧ (w.client 0).closed = false ∧
      w.machine.shared.getPolling (w.machine.sid 0) = some 0 ∧ w.machine.pump 0 = .idle := by
  obtain ⟨w, hw, hp⟩ := Reachable.of_exec step (s := init 100 256) [.handler (.create "s")]
    (p := fun w => 0 < w.machine.shared.connCount ∧
      (w.machine.shared.conn 0).current = .polling ∧
      (w.machine.shared.conn 0).polling.closed = false ∧
      w.machine.shared.getPolling (w.machine.sid 0) = some 0 ∧ w.machine.pump 0 = .idle ∧
      (w.machine.shared.conn 0).polling.outbox.length = 0 ∧ (w.client 0).closed = false ∧
      w.stage 0 = .idle)
    (by decide +kernel)
  obtain ⟨hlt, hcur, hopen, hpolls, hreads, hout, hclosed, hstage⟩ := of_decide_eq_true hp
  have hidle : w.Unattended 0 .idle 0 := ⟨⟨hlt, hcur, hopen, hpolls, hreads, hout⟩, hclosed, hstage⟩
  obtain ⟨w₁, hw₁, h₁⟩ := hidle.start (List.replicate 65 (ascii "m"))
  obtain ⟨w₂, hw₂, h₂⟩ := replay_overflows h₁ (by simp [chanCapacity]) (Nat.zero_le _)
  exact ⟨w₂, hw.trans (hw₂.head hw₁), h₂.stage, h₂.unread.opened, h₂.opened, h₂.unread.polls,
    h₂.unread.reads⟩

end Writers
end EngineIO
end GoSocket
