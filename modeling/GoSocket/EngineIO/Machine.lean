/-
# The Engine.IO handler as a machine

The goroutines that meet on one session, each cut into its atomic steps:

* a long-poll GET (`servePoll`, `poll`, `collectBatch`) and a POST (`servePost`,
  `handleInbound`), from the moment `getPolling` has answered;
* an upgrade request (`serveWebSocketUpgrade`, `applyUpgrade`);
* a `Write`, `Ping` or `SendClose` of the server through the `sessionTransport`;
* the read pump of the connection, and the one goroutine that runs the function of
  its `shutdownOnce` (`closeRaw`).

A step looks at the memory, does one effect and moves on.  Where the source has a
`select`, or a call into the network, the scheduler chooses (`Choice`); a timer may
fire at any time.  After a timeout of `Read` the pump goes on or gives up.

`firePong` calls a handler of the client and is left out; the settings of the
transports are in `Protections`.
-/

import GoSocket.EngineIO.Memory
import GoSocket.Lib.Steps
import GoSocket.Lib.Threads

namespace GoSocket

open Lib

namespace EngineIO

/-- What the scheduler, the network or the peer decides in a step. -/
inductive Choice where
  | go
  /-- A timer fires. -/
  | timer
  /-- The signal of a `select` is received. -/
  | signal
  /-- A call into the network fails, or the pump gives up. -/
  | fail
  /-- The peer sends a frame. -/
  | frame (body : Bytes)
  deriving DecidableEq

/-- The steps of `enqueueOutbound`. -/
inductive EnqueueStage where
  | check
  | send
  | signal
  deriving DecidableEq

/-- The steps of `pollingTransport.Close`. -/
inductive CloseStage where
  | swap
  | closeInbox
  | remove
  deriving DecidableEq

/-- What `poll` returns. -/
inductive PollResult where
  | closed
  /-- The wires of `collectBatch`, which are joined to the body. -/
  | batch (wires : List Bytes)
  /-- The timer has fired: the body is a ping. -/
  | heartbeat
  | nothing
  deriving DecidableEq

inductive GetStage where
  /-- `getPolling` has returned the transport. -/
  | opened
  | selecting
  /-- `<-t.wake` was received. -/
  | woken
  | collecting (wires : List Bytes)
  | done (r : PollResult)
  deriving DecidableEq

/-- What `servePost` answers. -/
inductive PostResult where
  | ok
  | tooLarge
  | badBatch
  /-- `session closed`. -/
  | eof
  | inboxFull
  | outboxFull
  /-- A send on the closed inbox. -/
  | panicked
  deriving DecidableEq

inductive PostStage where
  /-- The packets that are still to be handled. -/
  | packets (rest : List Packet)
  | handling (p : Packet) (rest : List Packet)
  /-- A pong is being queued. -/
  | replying (e : EnqueueStage) (data : Bytes) (rest : List Packet)
  /-- `deliverInbound` has found the transport open. -/
  | delivering (data : Bytes) (rest : List Packet)
  | closing (e : CloseStage)
  | done (r : PostResult)
  deriving DecidableEq

inductive UpgradeStage where
  /-- `readyForUpgrade` is to be asked. -/
  | checking
  /-- The WebSocket handshake is to be made. -/
  | handshake
  /-- `applyUpgrade` is to be called with the WebSocket. -/
  | applying (w : SockRef)
  /-- The session is marked; `Swap` is to come. -/
  | swapping (c : ConnRef) (w : SockRef)
  /-- The noop is being queued. -/
  | flushing (c : ConnRef) (w : SockRef) (e : EnqueueStage)
  /-- `signalUpgrade` is to come. -/
  | signalling (c : ConnRef) (w : SockRef)
  /-- `applyUpgrade` has refused; `raw.Close` is to come. -/
  | refusing (w : SockRef)
  /-- Returned, with no WebSocket made. -/
  | failed
  /-- Returned, the session having been upgraded. -/
  | upgraded (c : ConnRef) (w : SockRef)
  /-- Returned, the WebSocket having been refused. -/
  | refused (w : SockRef)
  deriving DecidableEq

/-- The steps of a call through the `sessionTransport`. -/
inductive SendStage where
  /-- The current transport is to be loaded. -/
  | loading
  /-- The polling transport was loaded; its flag is to be checked. -/
  | polling
  | enqueuing (e : EnqueueStage)
  /-- The WebSocket was loaded; its flag is to be checked. -/
  | websocket (w : SockRef)
  | sending (w : SockRef)
  /-- Returned, with a nil error or not. -/
  | done (ok : Bool)
  deriving DecidableEq

/-- Where the read pump is. -/
inductive PumpStage where
  /-- `Read` is to load the current transport. -/
  | idle
  /-- The polling transport was loaded; its flag is to be checked. -/
  | polling
  | selecting
  /-- The WebSocket was loaded; its flag is to be checked. -/
  | websocket (w : SockRef)
  | reading (w : SockRef)
  /-- The packets of a frame that are still to be handled. -/
  | frame (w : SockRef) (rest : List Packet)
  /-- A close packet was read and the flag is set; `raw.Close` is to come. -/
  | closing (w : SockRef)
  | stopped
  deriving DecidableEq

/-- Where the goroutine that closes the transport is. -/
inductive CloserStage where
  /-- `closeRaw` was not called, or is to load the current transport. -/
  | idle
  /-- `Close` of the polling transport. -/
  | polling (e : CloseStage)
  /-- `Close` of the WebSocket; its flag is to be swapped. -/
  | websocket (w : SockRef)
  /-- `raw.Close` is to come. -/
  | raw (w : SockRef)
  /-- `Close` has returned. -/
  | done
  deriving DecidableEq

/-- A request to the handler, or a call of the server. -/
inductive Request where
  | absent
  /-- `getPolling` has found no such session. -/
  | unknown
  | get (c : ConnRef) (s : GetStage)
  | post (sid : String) (c : ConnRef) (s : PostStage)
  | upgrade (sid : String) (s : UpgradeStage)
  | send (c : ConnRef) (o : Outgoing) (s : SendStage)
  deriving DecidableEq

/-- What `enqueueOutbound` returns. -/
inductive EnqueueResult where
  | ok
  | eof
  | full
  deriving DecidableEq

/-- `enqueueOutbound` goes on or returns. -/
inductive EnqueueNext where
  | more (e : EnqueueStage)
  | returned (r : EnqueueResult)
  deriving DecidableEq

/-- A step of `enqueueOutbound`, for the request `n`. -/
def EnqueueStage.next (m : Memory) (n : RequestRef) (c : ConnRef) (bytes : Bytes) :
    EnqueueStage → EnqueueNext × Effect
  | .check =>
      if (m.conn c).polling.closed then (.returned .eof, .nothing) else (.more .send, .nothing)
  | .send =>
      if (m.conn c).polling.outbox.length < chanCapacity then
        (.more .signal, .conn c (.enqueue n bytes))
      else (.returned .full, .nothing)
  | .signal => (.returned .ok, .conn c .wake)

/-- A step of `pollingTransport.Close`; `none` when it returns. -/
def CloseStage.next (m : Memory) (c : ConnRef) : CloseStage → Option CloseStage × Effect
  | .swap =>
      if (m.conn c).polling.closed then (none, .nothing) else (some .closeInbox, .conn c .close)
  | .closeInbox => (some .remove, .conn c .closeInbox)
  | .remove => (none, .remove (m.conn c).polling.sid)

/-- A step of `poll`. -/
def GetStage.next (m : Memory) (n : RequestRef) (c : ConnRef) (k : Choice) :
    GetStage → Option (GetStage × Effect)
  | .opened =>
      some (if (m.conn c).polling.closed then .done .closed else .selecting, .nothing)
  | .selecting =>
      match k, (m.conn c).polling.outbox with
      | .go, bytes :: _ => some (.collecting [bytes], .conn c (.dequeue n))
      | .timer, _ => some (.done .heartbeat, .nothing)
      | .signal, _ => if (m.conn c).polling.wake then some (.woken, .conn c .awake) else none
      | _, _ => none
  | .woken =>
      match (m.conn c).polling.outbox with
      | bytes :: _ => some (.collecting [bytes], .conn c (.dequeue n))
      | [] => some (.done .nothing, .nothing)
  | .collecting wires =>
      match (m.conn c).polling.outbox with
      | bytes :: _ => some (.collecting (wires ++ [bytes]), .conn c (.dequeue n))
      | [] => some (.done (.batch wires), .nothing)
  | .done _ => none

/-- The callback of a probe. -/
def probeEffect (m : Memory) (c : ConnRef) (data : Bytes) : Effect :=
  if isProbe data then .markProbed (m.conn c).polling.sid else .nothing

/-- A step of `handleInbound`, for a POST to `sid`. -/
def PostStage.next (m : Memory) (n : RequestRef) (sid : String) (c : ConnRef) :
    PostStage → Option (PostStage × Effect)
  | .packets [] => some (.done .ok, .nothing)
  | .packets (p :: rest) => some (.handling p rest, .post sid p)
  | .handling p rest =>
      match p.type with
      | .ping => some (.replying .check p.data rest, probeEffect m c p.data)
      | .pong => some (.packets rest, probeEffect m c p.data)
      | .message =>
          some (if (m.conn c).polling.closed then .done .eof else .delivering p.data rest, .nothing)
      | .upgrade => some (.packets rest, .markUpgrade (m.conn c).polling.sid)
      | .close => some (.closing .swap, .nothing)
      | _ => some (.packets rest, .nothing)
  | .replying e data rest =>
      match e.next m n c (wire .pong data) with
      | (.more e, eff) => some (.replying e data rest, eff)
      | (.returned .ok, eff) => some (.packets rest, eff)
      | (.returned .eof, eff) => some (.done .eof, eff)
      | (.returned .full, eff) => some (.done .outboxFull, eff)
  | .delivering data rest =>
      if (m.conn c).polling.inboxClosed then some (.done .panicked, .nothing)
      else if (m.conn c).polling.inbox.length < chanCapacity then
        some (.packets rest, .conn c (.accept data))
      else some (.done .inboxFull, .nothing)
  | .closing e =>
      match e.next m c with
      | (some e, eff) => some (.closing e, eff)
      | (none, eff) => some (.done .eof, eff)
  | .done _ => none

/-- A step of `serveWebSocketUpgrade`. -/
def UpgradeStage.next (m : Memory) (n : RequestRef) (sid : String) (k : Choice) :
    UpgradeStage → Option (UpgradeStage × Effect)
  | .checking => some (if m.readyForUpgrade sid then .handshake else .failed, .nothing)
  | .handshake =>
      match k with
      | .go => some (.applying m.socketCount, .connect n)
      | .fail => some (.failed, .nothing)
      | _ => none
  | .applying w =>
      match m.sessions sid with
      | some ps =>
          if m.readyForUpgrade sid then some (.swapping ps.conn w, .mark sid w)
          else some (.refusing w, .nothing)
      | none => some (.refusing w, .nothing)
  | .swapping c w => some (.flushing c w .check, .conn c (.swap w))
  | .flushing c w e =>
      match e.next m n c (wire .noop []) with
      | (.more e, eff) => some (.flushing c w e, eff)
      | (.returned _, eff) => some (.signalling c w, eff)
  | .signalling c w => some (.upgraded c w, .conn c .signal)
  | .refusing w => some (.refused w, .closeRaw w)
  | .failed | .upgraded .. | .refused _ => none

/-- A step of a call through the `sessionTransport`.  `SendClose` on a closed transport is
not an error. -/
def SendStage.next (m : Memory) (n : RequestRef) (c : ConnRef) (o : Outgoing) (k : Choice) :
    SendStage → Option (SendStage × Effect)
  | .loading =>
      match (m.conn c).current with
      | .polling => some (.polling, .nothing)
      | .websocket w => some (.websocket w, .nothing)
  | .polling =>
      some (if (m.conn c).polling.closed then .done (o = .sendClose) else .enqueuing .check,
        .nothing)
  | .enqueuing e =>
      match e.next m n c (wire o.packet.type o.packet.data) with
      | (.more e, eff) => some (.enqueuing e, eff)
      | (.returned r, eff) => some (.done (r = .ok), eff)
  | .websocket w =>
      some (if (m.socket w).closed then .done (o = .sendClose) else .sending w, .nothing)
  | .sending w =>
      match k with
      | .go =>
          if (m.socket w).raw.closed then none
          else some (.done true, .send n c w (wire o.packet.type o.packet.data))
      | .fail => some (.done false, .nothing)
      | _ => none
  | .done _ => none

/-- A step of the read pump. -/
def PumpStage.next (m : Memory) (c : ConnRef) (k : Choice) :
    PumpStage → Option (PumpStage × Effect)
  | .idle =>
      match (m.conn c).current with
      | .polling => some (.polling, .nothing)
      | .websocket w => some (.websocket w, .nothing)
  | .polling =>
      if (m.conn c).polling.closed then some (.stopped, .conn c .eof)
      else some (.selecting, .nothing)
  | .selecting =>
      match k with
      | .go =>
          match (m.conn c).polling.inbox with
          | _ :: _ => some (.idle, .conn c .receive)
          | [] => if (m.conn c).polling.inboxClosed then some (.stopped, .conn c .eof) else none
      | .signal => if (m.conn c).polling.upgrade then some (.idle, .conn c .upgraded) else none
      | .timer => some (.idle, .nothing)
      | .fail => some (.stopped, .nothing)
      | .frame _ => none
  | .websocket w => some (if (m.socket w).closed then .stopped else .reading w, .nothing)
  | .reading w =>
      match k with
      | .frame body =>
          if (m.socket w).raw.closed then none
          else
            match decodeBatch body with
            | .ok packets => some (.frame w packets, .nothing)
            | .error _ => some (.stopped, .nothing)
      | .timer => some (.idle, .nothing)
      | .fail => some (.stopped, .nothing)
      | _ => none
  | .frame w [] => some (.reading w, .nothing)
  | .frame w (p :: rest) =>
      match p.type with
      | .message => some (.idle, .nothing)
      | .ping =>
          match k with
          | .go =>
              if (m.socket w).raw.closed then none
              else some (.frame w rest, .reply w (wire .pong p.data))
          | .timer => some (.idle, .nothing)
          | .fail => some (.stopped, .nothing)
          | _ => none
      | .close =>
          if (m.socket w).closed then some (.stopped, .nothing)
          else some (.closing w, .closeEio w)
      | _ => some (.frame w rest, .nothing)
  | .closing w => some (.stopped, .closeRaw w)
  | .stopped => none

/-- A step of `closeRaw`. -/
def CloserStage.next (m : Memory) (c : ConnRef) : CloserStage → Option (CloserStage × Effect)
  | .idle =>
      match (m.conn c).current with
      | .polling => some (.polling .swap, .nothing)
      | .websocket w => some (.websocket w, .nothing)
  | .polling e =>
      match e.next m c with
      | (some e, eff) => some (.polling e, eff)
      | (none, eff) => some (.done, eff)
  | .websocket w =>
      if (m.socket w).closed then some (.done, .nothing) else some (.raw w, .closeEio w)
  | .raw w => some (.done, .closeRaw w)
  | .done => none

/-- The goroutines. -/
inductive ThreadRef where
  | request (n : RequestRef)
  /-- The read pump of a connection. -/
  | pump (c : ConnRef)
  /-- The goroutine that runs the function of `shutdownOnce`. -/
  | closer (c : ConnRef)
  deriving DecidableEq

/-- Where a goroutine can be. -/
abbrev ThreadRef.Local : ThreadRef → Type
  | .request _ => Request
  | .pump _ => PumpStage
  | .closer _ => CloserStage

/-- A step of a request. -/
def Request.next (m : Memory) (n : RequestRef) (k : Choice) : Request → Option (Request × Effect)
  | .get c s => (s.next m n c k).map fun r => (.get c r.1, r.2)
  | .post sid c s => (s.next m n sid c).map fun r => (.post sid c r.1, r.2)
  | .upgrade sid s => (s.next m n sid k).map fun r => (.upgrade sid r.1, r.2)
  | .send c o s => (s.next m n c o k).map fun r => (.send c o r.1, r.2)
  | .absent | .unknown => none

/-- A step of a goroutine; the pumps of a connection are there once it is made. -/
def ThreadRef.next (m : Memory) (k : Choice) : (i : ThreadRef) → i.Local → Option (i.Local × Effect)
  | .request n, r => r.next m n k
  | .pump c, s => if c < m.connCount then s.next m c k else none
  | .closer c, s => if c < m.connCount then s.next m c else none

/-- The handler with its goroutines. -/
abbrev Machine := Pool Memory ThreadRef.Local

/-- One step. -/
inductive MachineOp where
  /-- `serveHandshake`. -/
  | create (sid : String)
  /-- A GET or a POST, up to the answer of `getPolling`. -/
  | get (sid : String)
  | post (sid : String) (body : Bytes)
  | upgrade (sid : String)
  | send (c : ConnRef) (o : Outgoing)
  | run (i : ThreadRef) (k : Choice)
  deriving DecidableEq

/-- `servePost` up to `handleInbound`: at most `MaxPayload+1` bytes are read, which is an
`int64`, and more than `MaxPayload` are refused. -/
def servePost (maxPayload : ℤ) (body : Bytes) : PostStage :=
  let raw := body.take ((maxPayload + 1).bmod (2 ^ 64)).toNat
  if maxPayload < raw.length then .done .tooLarge
  else
    match decodeBatch raw with
    | .ok packets => .packets packets
    | .error _ => .done .badBatch

namespace Machine

/-- A handler that has just started. -/
def init (maxPayload : ℤ) : Machine where
  shared := .init maxPayload
  thread
    | .request _ => Request.absent
    | .pump _ => PumpStage.idle
    | .closer _ => CloserStage.idle

def request (m : Machine) (n : RequestRef) : Request := m.thread (.request n)

def pump (m : Machine) (c : ConnRef) : PumpStage := m.thread (.pump c)

def closer (m : Machine) (c : ConnRef) : CloserStage := m.thread (.closer c)

/-- A new request. -/
def spawn (m : Machine) (r : Request) : Machine :=
  m.put (.request m.shared.requestCount)
    { m.shared with requestCount := m.shared.requestCount + 1 } r

/-- The request of a client that asks for the polling transport of `sid`. -/
def polling (m : Machine) (sid : String) (f : ConnRef → Request) : Request :=
  match m.shared.getPolling sid with
  | some c => f c
  | none => .unknown

def step (m : Machine) : MachineOp → Option Machine
  | .create sid =>
      if m.shared.Fresh sid then some { m with shared := m.shared.create sid } else none
  | .get sid => some (m.spawn (m.polling sid fun c => .get c .opened))
  | .post sid body =>
      some (m.spawn (m.polling sid fun c =>
        .post sid c (servePost (m.shared.conn c).polling.maxPayload body)))
  | .upgrade sid => some (m.spawn (.upgrade sid .checking))
  | .send c o => if c < m.shared.connCount then some (m.spawn (.send c o .loading)) else none
  | .run i k =>
      (i.next m.shared k (m.thread i)).map fun r => m.put i (m.shared.apply r.2) r.1

/-- `k` steps of one goroutine, with nothing in their way. -/
def advance (i : ThreadRef) (k : ℕ) : List MachineOp := List.replicate k (.run i .go)

/-- A session `s` whose POSTs, the requests `0` and `1`, have carried a probe and an
upgrade packet. -/
def readySession : List MachineOp :=
  .create "s" :: .post "s" (ascii "2probe") :: advance (.request 0) 6 ++
    .post "s" (ascii "5") :: advance (.request 1) 3

/-- The step relation of the machine. -/
def Step (m : Machine) (a : MachineOp) (m' : Machine) : Prop := m.step a = some m'

/-- The cases of `step`. -/
inductive Took (m : Machine) : MachineOp → Machine → Prop where
  | create {sid : String} : m.shared.Fresh sid →
      Took m (.create sid) { m with shared := m.shared.create sid }
  | get (sid : String) : Took m (.get sid) (m.spawn (m.polling sid fun c => .get c .opened))
  | post (sid : String) (body : Bytes) :
      Took m (.post sid body)
        (m.spawn (m.polling sid fun c =>
          .post sid c (servePost (m.shared.conn c).polling.maxPayload body)))
  | upgrade (sid : String) : Took m (.upgrade sid) (m.spawn (.upgrade sid .checking))
  | send {c : ConnRef} (o : Outgoing) : c < m.shared.connCount →
      Took m (.send c o) (m.spawn (.send c o .loading))
  | run {i : ThreadRef} {k : Choice} {l : i.Local} {e : Effect} :
      i.next m.shared k (m.thread i) = some (l, e) →
      Took m (.run i k) (m.put i (m.shared.apply e) l)

variable {m m' : Machine} {a : MachineOp}

/-- **Everything a step can be.** -/
theorem Step.took (hstep : m.Step a m') : Took m a m' := by
  unfold Step step at hstep
  cases a with
  | create sid =>
      obtain ⟨hfresh, hstep⟩ := Option.ite_none_right_eq_some.1 hstep
      exact Option.some.inj hstep ▸ .create hfresh
  | get sid => exact Option.some.inj hstep ▸ .get sid
  | post sid body => exact Option.some.inj hstep ▸ .post sid body
  | upgrade sid => exact Option.some.inj hstep ▸ .upgrade sid
  | send c o =>
      obtain ⟨hc, hstep⟩ := Option.ite_none_right_eq_some.1 hstep
      exact Option.some.inj hstep ▸ .send o hc
  | run i k =>
      obtain ⟨⟨l, e⟩, hnext, rfl⟩ := Option.map_eq_some_iff.1 hstep
      exact .run hnext

end Machine
end EngineIO
end GoSocket
