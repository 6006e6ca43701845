/-
# The transports of an Engine.IO session

`pollingTransport`, `eioWebSocketTransport` over a raw WebSocket, and the settings
a client pump makes on them.  A channel is the list of what is in it; a channel of
capacity one that only carries a signal is a `Bool`.  A handler is known by a
number.  What a raw WebSocket does with a read limit is gorilla's rule (and that of
`nativews`): a limit that is not positive is no limit.

Deadlines are kept because the calls that set them are modelled; when they expire
is the scheduler's choice.  `SetWriteDeadline` is left out.
-/

import GoSocket.EngineIO.Packet
import Mathlib.Algebra.Group.Nat.Defs

namespace GoSocket

open Lib

namespace EngineIO

/-- A `func()` registered as a handler. -/
abbrev Handler := ℕ

/-- The capacity of `inbox` and `outbox`. -/
def chanCapacity : ℕ := 64

/-- `pollingTransport`; its callbacks are the manager's, for its own `sid`. -/
structure PollingTransport where
  sid : String
  maxPayload : ℤ
  inbox : List Bytes
  /-- `close(t.inbox)` was called. -/
  inboxClosed : Bool
  outbox : List Bytes
  wake : Bool
  upgrade : Bool
  onPong : Option Handler
  /-- `none` is the zero time. -/
  readDeadline : Option ℤ
  closed : Bool
  deriving DecidableEq

def newPollingTransport (sid : String) (maxPayload : ℤ) : PollingTransport where
  sid := sid
  maxPayload := maxPayload
  inbox := []
  inboxClosed := false
  outbox := []
  wake := false
  upgrade := false
  onPong := none
  readDeadline := none
  closed := false

/-- The longest body `servePost` takes whole: it reads `MaxPayload+1` bytes at most, which
is an `int64`, and refuses more than `MaxPayload`. -/
def PollingTransport.bodyLimit (t : PollingTransport) : ℤ :=
  min t.maxPayload ((t.maxPayload + 1).bmod (2 ^ 64))

/-- `wsTransport`: the settings of a raw WebSocket, and what was written to it. -/
structure WsTransport where
  readLimit : ℤ
  pongHandler : Option Handler
  readDeadline : Option ℤ
  written : List Bytes
  closed : Bool
  deriving DecidableEq

/-- What `Upgrade` returns. -/
def newWsTransport : WsTransport where
  readLimit := 0
  pongHandler := none
  readDeadline := none
  written := []
  closed := false

/-- `eioWebSocketTransport`. -/
structure EioWebSocketTransport where
  raw : WsTransport
  readDeadline : Option ℤ
  onPong : Option Handler
  closed : Bool
  deriving DecidableEq

def newEIOWebSocketTransport (raw : WsTransport) : EioWebSocketTransport where
  raw := raw
  readDeadline := none
  onPong := none
  closed := false

/-- What a `sessionTransport` may have as its current transport. -/
inductive Transport where
  | polling (t : PollingTransport)
  | websocket (t : EioWebSocketTransport)
  deriving DecidableEq

/-- A call of the write pump. -/
inductive Outgoing where
  | write (data : Bytes)
  | ping
  | sendClose
  deriving DecidableEq

/-- The packet a call sends. -/
def Outgoing.packet : Outgoing → Packet
  | .write data => ⟨.message, data⟩
  | .ping => ⟨.ping, []⟩
  | .sendClose => ⟨.close, []⟩

namespace Transport

/-- `SetReadLimit`; on the polling side it does nothing. -/
def setReadLimit (limit : ℤ) : Transport → Transport
  | .polling t => .polling t
  | .websocket t => .websocket { t with raw.readLimit := limit }

/-- `SetReadDeadline`. -/
def setReadDeadline (deadline : ℤ) : Transport → Transport
  | .polling t => .polling { t with readDeadline := some deadline }
  | .websocket t =>
      .websocket { t with readDeadline := some deadline, raw.readDeadline := some deadline }

/-- `OnPong`. -/
def onPong (handler : Handler) : Transport → Transport
  | .polling t => .polling { t with onPong := some handler }
  | .websocket t => .websocket { t with onPong := some handler, raw.pongHandler := some handler }

/-- A message of `size` bytes, which is one byte more as a packet, is taken from the
peer: in a POST body or in a WebSocket frame of its own. -/
def Admits (size : ℕ) : Transport → Prop
  | .polling t => (size : ℤ) + 1 ≤ t.bodyLimit
  | .websocket t => 0 < t.raw.readLimit → (size : ℤ) + 1 ≤ t.raw.readLimit

/-- Nothing over the limit is taken from the peer; a limit that is not positive is none. -/
def Enforces (limit : ℤ) (t : Transport) : Prop :=
  0 < limit → ∀ size, t.Admits size → (size : ℤ) ≤ limit

/-- Every pong runs the handler: on the polling side and after an upgrade a pong packet,
and on a WebSocket a pong control frame. -/
def Runs (handler : Handler) : Transport → Prop
  | .polling t => t.onPong = some handler
  | .websocket t => t.onPong = some handler ∧ t.raw.pongHandler = some handler

end Transport

end EngineIO
end GoSocket
