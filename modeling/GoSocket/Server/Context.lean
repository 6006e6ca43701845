/-
# The ack of a reply

A handler answers an inbound message through its `Context` (`context.go`).  If the
message had an `id`, the first frame that goes out through the context carries it
as `ackId` (`docs/WIRE_PROTOCOL.md`), so that the peer can match the answer.

`Emit`, `EmitToRoom` and `BroadcastToRoom`, each with and without options, take the
ack from the context while their arguments are evaluated; `emitOne` and `emitRoom`
of `server.go` may then return without a frame, because the room is empty or
`json.Marshal` fails on the data.  The ack is gone all the same, and the frame that
does go out later carries none (`ack_lost`).  So the ack goes out exactly once, on
the first frame, and no call without a frame takes it, exactly when the first call
that is made produces a frame (`ack_once_iff`).

What a call hands over is the step of the server it makes: a send to the client, or
a job for the hub.
-/

import GoSocket.Server.Dispatch
import GoSocket.Server.Echo

namespace GoSocket

open Lib

/-- `BackpressurePolicy`. -/
inductive BackpressurePolicy where
  | default
  | disconnect
  | drop
  | volatile
  deriving DecidableEq

/-- `BackpressurePolicy.internal`. -/
def BackpressurePolicy.internal : BackpressurePolicy → SendPolicy
  | .drop => .drop
  | .volatile => .volatile
  | _ => .disconnect

/-- `EmitOptions`. -/
structure EmitOptions where
  policy : BackpressurePolicy := .default
  idempotencyKey : String := ""

/-- What the emit functions use of the `Server`: `Config.DefaultBackpressure`, and how
`encoding/json` encodes a string. -/
structure Emitter where
  defaultBackpressure : BackpressurePolicy
  quote : String → Bytes

/-- What a call comes to. -/
inductive Emitted where
  /-- It returns `nil` without a frame. -/
  | nothing
  /-- It returns the error of `json.Marshal`. -/
  | failed
  /-- It hands the frame over, and returns `nil`. -/
  | sent (msg : ServerWireMessage) (op : QueueOp)

/-- The frame that goes out. -/
def Emitted.frame : Emitted → Option ServerWireMessage
  | .sent msg _ => some msg
  | _ => none

namespace Emitter

/-- `resolvePolicy`. -/
def resolvePolicy (e : Emitter) (p : BackpressurePolicy) : SendPolicy :=
  (if p = .default then e.defaultBackpressure else p).internal

/-- A string field that is marked `omitempty`. -/
def omitempty (e : Emitter) (s : String) : Option Bytes := if s = "" then none else some (e.quote s)

/-- The `ServerWireMessage` of `emitOne` and `emitRoom`. -/
def message (e : Emitter) (event : String) (payload : Bytes) (ack : String) (opts : EmitOptions) :
    ServerWireMessage where
  event := e.quote event
  payload := payload
  ackID := e.omitempty ack
  seq := none
  idempotencyKey := e.omitempty opts.idempotencyKey

/-- `emitOne`; `data` is `none` where `json.Marshal` fails on it. -/
def emitOne (e : Emitter) (ic : Option ClientRef) (event : String) (data : Option Bytes)
    (ack : String) (opts : EmitOptions) : Emitted :=
  match ic, data with
  | none, _ => .nothing
  | some _, none => .failed
  | some c, some payload =>
      let msg := e.message event payload ack opts
      .sent msg (.sys (.layer (.send c msg.marshal (e.resolvePolicy opts.policy))))

/-- `emitRoom`. -/
def emitRoom (e : Emitter) (room event : String) (data : Option Bytes) (ack : String)
    (exclude : Option ClientRef) (opts : EmitOptions) : Emitted :=
  if room = "" then .nothing
  else
    match data with
    | none => .failed
    | some payload =>
        let msg := e.message event payload ack opts
        let policy := e.resolvePolicy opts.policy
        .sent msg
          (match exclude with
            | none => .emit (GoSocket.emitRoom room none msg.marshal policy)
            | some c => .broadcast c room msg.marshal policy)

end Emitter

/-- `Context`: the connection, and the ack that is pending. -/
structure Context where
  client : Option ClientRef
  pendingAck : String
  ackUsed : Bool
  deriving DecidableEq

/-- `newContext`. -/
def newContext (ic : Option ClientRef) (ack : String) : Context where
  client := ic
  pendingAck := ack
  ackUsed := false

namespace Context

/-- `consumeAck`. -/
def consumeAck (ctx : Context) : String × Context :=
  if ctx.pendingAck = "" ∨ ctx.ackUsed = true then ("", ctx)
  else (ctx.pendingAck, { ctx with ackUsed := true })

/-- A call that passes the ack on: it is consumed when the arguments are evaluated. -/
def withAck (ctx : Context) (emit : String → Emitted) : Context × Emitted :=
  (ctx.consumeAck.2, emit ctx.consumeAck.1)

section calls

variable (e : Emitter) (ctx : Context)

/-- `Emit`. -/
def emit (event : String) (data : Option Bytes) : Context × Emitted :=
  ctx.withAck fun ack => e.emitOne ctx.client event data ack {}

/-- `EmitWith`. -/
def emitWith (event : String) (data : Option Bytes) (opts : EmitOptions) : Context × Emitted :=
  ctx.withAck fun ack => e.emitOne ctx.client event data ack opts

/-- `EmitToRoom`. -/
def emitToRoom (room event : String) (data : Option Bytes) : Context × Emitted :=
  ctx.withAck fun ack => e.emitRoom room event data ack none {}

/-- `EmitToRoomWith`. -/
def emitToRoomWith (room event : String) (data : Option Bytes) (opts : EmitOptions) :
    Context × Emitted :=
  ctx.withAck fun ack => e.emitRoom room event data ack none opts

/-- `BroadcastToRoom`. -/
def broadcastToRoom (room event : String) (data : Option Bytes) : Context × Emitted :=
  ctx.withAck fun ack => e.emitRoom room event data ack ctx.client {}

/-- `BroadcastToRoomWith`. -/
def broadcastToRoomWith (room event : String) (data : Option Bytes) (opts : EmitOptions) :
    Context × Emitted :=
  ctx.withAck fun ack => e.emitRoom room event data ack ctx.client opts

end calls

/-- The ack the next call gets. -/
def available (ctx : Context) : String := ctx.consumeAck.1

/-- A new context has its ack to give. -/
theorem available_newContext (ic : Option ClientRef) (ack : String) :
    (newContext ic ack).available = ack := by
  unfold available consumeAck newContext
  by_cases hack : ack = ""
  · simp [hack]
  · simp [hack]

/-- There is nothing left to consume. -/
theorem available_consumeAck (ctx : Context) : ctx.consumeAck.2.available = "" := by
  unfold available
  by_cases h : ctx.pendingAck = "" ∨ ctx.ackUsed = true
  · simp [consumeAck, h]
  · simp [consumeAck, h]

end Context

/-- A call a handler or a middleware makes through its context. -/
inductive ContextCall where
  | emit (event : String) (data : Option Bytes)
  | emitWith (event : String) (data : Option Bytes) (opts : EmitOptions)
  | emitToRoom (room event : String) (data : Option Bytes)
  | emitToRoomWith (room event : String) (data : Option Bytes) (opts : EmitOptions)
  | broadcastToRoom (room event : String) (data : Option Bytes)
  | broadcastToRoomWith (room event : String) (data : Option Bytes) (opts : EmitOptions)

/-- The call has a frame to send: its data can be marshalled, and there is somebody to send it
to. -/
def ContextCall.Produces (client : Option ClientRef) : ContextCall → Prop
  | .emit _ data | .emitWith _ data _ => client.isSome ∧ data.isSome
  | .emitToRoom room _ data | .emitToRoomWith room _ data _ | .broadcastToRoom room _ data
  | .broadcastToRoomWith room _ data _ => room ≠ "" ∧ data.isSome

namespace Context

/-- One call. -/
def call (e : Emitter) (ctx : Context) : ContextCall → Context × Emitted
  | .emit event data => ctx.emit e event data
  | .emitWith event data opts => ctx.emitWith e event data opts
  | .emitToRoom room event data => ctx.emitToRoom e room event data
  | .emitToRoomWith room event data opts => ctx.emitToRoomWith e room event data opts
  | .broadcastToRoom room event data => ctx.broadcastToRoom e room event data
  | .broadcastToRoomWith room event data opts => ctx.broadcastToRoomWith e room event data opts

/-- A sequence of calls. -/
def run (e : Emitter) (ctx : Context) : List ContextCall → Context × List Emitted
  | [] => (ctx, [])
  | c :: cs =>
      let r := ctx.call e c
      let rs := r.1.run e cs
      (rs.1, r.2 :: rs.2)

/-- The frames that go out. -/
def frames (e : Emitter) (ctx : Context) (calls : List ContextCall) : List ServerWireMessage :=
  (ctx.run e calls).2.filterMap Emitted.frame

/-- The id `id` goes out once, as the ack of the first frame, and it stays available through the
calls that produce no frame. -/
structure AckOnce (e : Emitter) (ctx : Context) (id : String) (calls : List ContextCall) :
    Prop where
  first : ∀ msg ∈ (ctx.frames e calls).head?, msg.ackID = some (e.quote id)
  others : ∀ msg ∈ (ctx.frames e calls).tail, msg.ackID = none
  kept : ∀ before c after, calls = before ++ c :: after →
    ((ctx.run e before).1.call e c).2.frame = none →
    ((ctx.run e before).1.call e c).1.available = (ctx.run e before).1.available

end Context

/-- A frame goes out with the ack exactly when `P` holds. -/
inductive Emitted.Sends (P : Prop) (ack : Option Bytes) (r : Emitted) : Prop where
  | frame {msg : ServerWireMessage} : P → r.frame = some msg → msg.ackID = ack → Sends P ack r
  | none : ¬P → r.frame = Option.none → Sends P ack r

/-- An `emit` sends its frame, with the ack, when it has a client and data. -/
theorem Emitter.emitOne_sends (e : Emitter) (ic : Option ClientRef) (event : String)
    (data : Option Bytes) (ack : String) (opts : EmitOptions) :
    (e.emitOne ic event data ack opts).Sends (ic.isSome ∧ data.isSome) (e.omitempty ack) := by
  cases ic with
  | none => exact .none (by simp) rfl
  | some c =>
      cases data with
      | none => exact .none (by simp) rfl
      | some payload => exact .frame (by simp) rfl rfl

/-- An `emitRoom` sends its frame, with the ack, when it has a room and data. -/
theorem Emitter.emitRoom_sends (e : Emitter) (room event : String) (data : Option Bytes)
    (ack : String) (exclude : Option ClientRef) (opts : EmitOptions) :
    (e.emitRoom room event data ack exclude opts).Sends (room ≠ "" ∧ data.isSome)
      (e.omitempty ack) := by
  unfold emitRoom
  split_ifs with hroom
  · exact .none (fun h => h.1 hroom) rfl
  · cases data with
    | none => exact .none (by simp) rfl
    | some payload => exact .frame ⟨hroom, rfl⟩ rfl rfl

namespace Context

variable (e : Emitter) (ctx : Context)

/-- Every call takes the ack. -/
theorem call_fst (c : ContextCall) : (ctx.call e c).1 = ctx.consumeAck.2 := by
  cases c <;> rfl

/-- The frame of a call, if there is one, carries the ack. -/
theorem call_sends (c : ContextCall) :
    (ctx.call e c).2.Sends (c.Produces ctx.client) (e.omitempty ctx.available) := by
  cases c with
  | emit event data => exact e.emitOne_sends ctx.client event data _ {}
  | emitWith event data opts => exact e.emitOne_sends ctx.client event data _ opts
  | emitToRoom room event data => exact e.emitRoom_sends room event data _ none {}
  | emitToRoomWith room event data opts => exact e.emitRoom_sends room event data _ none opts
  | broadcastToRoom room event data => exact e.emitRoom_sends room event data _ ctx.client {}
  | broadcastToRoomWith room event data opts =>
      exact e.emitRoom_sends room event data _ ctx.client opts

/-- A call uses the ack up. -/
theorem available_call (c : ContextCall) : (ctx.call e c).1.available = "" := by
  rw [call_fst, available_consumeAck]

/-- The frames of the calls: those of the first, then those of the rest. -/
theorem frames_cons (c : ContextCall) (calls : List ContextCall) :
    ctx.frames e (c :: calls) =
      (ctx.call e c).2.frame.toList ++ (ctx.call e c).1.frames e calls := by
  unfold frames
  rw [run]
  cases h : (ctx.call e c).2.frame with
  | none => rw [List.filterMap_cons_none h, Option.toList_none, List.nil_append]
  | some msg => rw [List.filterMap_cons_some h, Option.toList_some, List.singleton_append]

variable {ctx}

/-- An ack that is gone stays gone. -/
theorem available_run (h : ctx.available = "") (calls : List ContextCall) :
    (ctx.run e calls).1.available = "" := by
  induction calls generalizing ctx with
  | nil => exact h
  | cons c calls ih => exact ih (ctx.available_call e c)

/-- Once the ack is gone, no frame carries one. -/
theorem ackID_of_mem_frames (h : ctx.available = "") {calls : List ContextCall}
    {msg : ServerWireMessage} (hmsg : msg ∈ ctx.frames e calls) : msg.ackID = none := by
  induction calls generalizing ctx with
  | nil => exact absurd hmsg List.not_mem_nil
  | cons c calls ih =>
      rw [frames_cons, List.mem_append, Option.mem_toList] at hmsg
      rcases hmsg with hmsg | hmsg
      · cases ctx.call_sends e c with
        | frame _ hframe hack =>
            obtain rfl := Option.some.inj (hframe.symm.trans hmsg)
            rw [hack, h]
            rfl
        | none _ hframe =>
            rw [hframe] at hmsg
            cases hmsg
      · exact ih (ctx.available_call e c) hmsg

/-- The first call produces a frame if the ack is to stay available through a call without one. -/
theorem AckOnce.produces {id : String} (hid : ctx.available ≠ "") {c : ContextCall}
    {calls : List ContextCall} (h : ctx.AckOnce e id (c :: calls)) : c.Produces ctx.client := by
  cases ctx.call_sends e c with
  | frame hproduces => exact hproduces
  | none _ hframe =>
      have hkept := h.kept [] c calls rfl hframe
      rw [run, available_call] at hkept
      exact absurd hkept.symm hid

/-- If it does, its frame takes the ack and nothing is left for the others. -/
theorem ackOnce_of_produces (hid : ctx.available ≠ "") {c : ContextCall} (h : c.Produces ctx.client)
    (calls : List ContextCall) : ctx.AckOnce e ctx.available (c :: calls) := by
  have hgone := ctx.available_call e c
  cases ctx.call_sends e c with
  | none hnot => exact absurd h hnot
  | @frame msg _ hframe hack =>
      have hframes : ctx.frames e (c :: calls) = msg :: (ctx.call e c).1.frames e calls := by
        rw [frames_cons, hframe, Option.toList_some, List.singleton_append]
      refine ⟨?_, ?_, ?_⟩
      · rw [hframes]
        intro msg' hmsg'
        obtain rfl := Option.some.inj hmsg'
        rw [hack, Emitter.omitempty, if_neg hid]
      · rw [hframes]
        exact fun msg' hmsg' => ackID_of_mem_frames e hgone hmsg'
      · intro before c' after hcalls hnone
        cases before with
        | nil =>
            obtain ⟨rfl, -⟩ := List.cons.inj hcalls
            rw [run, hframe] at hnone
            cases hnone
        | cons b before =>
            obtain ⟨rfl, -⟩ := List.cons.inj hcalls
            rw [available_call]
            exact (available_run e hgone before).symm

/-- **The ack goes out once, on the first frame, exactly when the first call produces one.**  For
every inbound message with an id and every sequence of calls through its context. -/
theorem ack_once_iff (ic : Option ClientRef) (msg : ClientWireMessage) (hid : msg.id ≠ "")
    (calls : List ContextCall) :
    (newContext ic msg.id).AckOnce e msg.id calls ↔ ∀ c ∈ calls.head?, c.Produces ic := by
  have havailable := available_newContext ic msg.id
  have hpending : (newContext ic msg.id).available ≠ "" := havailable.symm ▸ hid
  cases calls with
  | nil => exact iff_of_true ⟨by simp [frames, run], by simp [frames, run], by simp⟩ (by simp)
  | cons c calls =>
      constructor
      · intro h c' hc'
        obtain rfl := Option.some.inj hc'
        exact h.produces e hpending
      · intro h
        have honce := ackOnce_of_produces e hpending (h c rfl) calls
        rwa [havailable] at honce

/-- An emitter for strings without characters to escape. -/
def plainEmitter : Emitter := ⟨.default, fun s => ascii "\"" ++ ascii s ++ ascii "\""⟩

/-- A context with the ack "req-1" gives it once, in its reply. -/
theorem ack_once_answered :
    "req-1" ≠ "" ∧ (newContext (some 0) "req-1").AckOnce plainEmitter "req-1"
      [.emit "reply" (some (ascii "2")), .emitToRoom "" "note" (some (ascii "1"))] := by
  refine ⟨by decide, (ack_once_iff plainEmitter (some 0) ⟨"ask", "", [], "req-1", ""⟩ (by decide)
    _).2 fun c hc => ?_⟩
  obtain rfl := Option.some.inj hc
  exact ⟨rfl, rfl⟩

/-- **The ack is lost.**  The handler of the message `req-1` emits to a room without a name, or
emits data that cannot be marshalled, and then answers: the answer is the only frame, and it
carries no `ackId`. -/
theorem ack_lost :
    (((newContext (some 0) "req-1").frames plainEmitter [.emitToRoom "" "note" (some (ascii "1")),
        .emit "reply" (some (ascii "2"))]).map ServerWireMessage.marshal =
      [ascii "\x7b\"event\":\"reply\",\"payload\":2\x7d"] ∧
    ¬(newContext (some 0) "req-1").AckOnce plainEmitter "req-1"
      [.emitToRoom "" "note" (some (ascii "1")), .emit "reply" (some (ascii "2"))]) ∧
    ((newContext (some 0) "req-1").frames plainEmitter
        [.emit "note" none, .emit "reply" (some (ascii "2"))]).map ServerWireMessage.marshal =
      [ascii "\x7b\"event\":\"reply\",\"payload\":2\x7d"] ∧
    ¬(newContext (some 0) "req-1").AckOnce plainEmitter "req-1"
      [.emit "note" none, .emit "reply" (some (ascii "2"))] := by
  refine ⟨⟨by decide, fun h => ?_⟩, by decide, fun h => ?_⟩
  · exact (h.produces plainEmitter (by decide)).1 rfl
  · exact absurd (h.produces plainEmitter (by decide)).2 (by decide)

end Context
end GoSocket
