/-
# A client connection

The part of `Client` (`internal/client.go`) that session recovery works with:
the outbound queue, the pre-queue `replay` that `WritePump` writes first, and
the flags.

The send channel is the list of frames it holds, its capacity `sendBuffer`, and
whether it has been closed; `closeRaw` closes the transport and the channel
together (`shutdownOnce`).  `written` is what `WritePump` has handed to
`transport.Write` without an error, in order; nothing in the source reads it.
`carried` is everything the connection was given to write, in wire order, and
`WritePump` does not change it (`carried_writeNext`).
-/

import GoSocket.Lib.Decimal

namespace GoSocket

open Lib

/-- A `*Client`. -/
abbrev ClientRef := ℕ

/-- A `*Session`. -/
abbrev SessionRef := ℕ

/-- `Client`. -/
structure Client where
  send : List Bytes
  sendBuffer : ℕ
  closed : Bool
  session : Option SessionRef
  replay : List Bytes
  parked : Bool
  noResume : Bool
  dropped : ℕ
  written : List Bytes
  deriving DecidableEq

/-- `NewClient`, whose option `SendBuffer` defaults to 256. -/
def newClient (sendBuffer : ℤ) : Client where
  send := []
  sendBuffer := if sendBuffer ≤ 0 then 256 else sendBuffer.toNat
  closed := false
  session := none
  replay := []
  parked := false
  noResume := false
  dropped := 0
  written := []

/-- `enqueueResult`. -/
inductive EnqueueResult where
  | ok
  | full
  | closed
  deriving DecidableEq, Repr

namespace Client

/-- `enqueue`: a non-blocking send.  Sending on a closed channel panics, full or
not, and the recovered panic reads as `enqClosed`. -/
def enqueue (c : Client) (frame : Bytes) : Client × EnqueueResult :=
  if c.closed then (c, .closed)
  else if c.send.length < c.sendBuffer then ({ c with send := c.send ++ [frame] }, .ok)
  else (c, .full)

/-- `closeRaw`. -/
def closeRaw (c : Client) : Client := { c with closed := true }

/-- `Shutdown`: a terminal close. -/
def shutdown (c : Client) : Client := { c.closeRaw with noResume := true }

/-- One write of `WritePump`: the pre-queue goes first, then the send channel.
`none` when there is nothing to write or the transport is closed. -/
def writeNext (c : Client) : Option Client :=
  if c.closed then none
  else
    match c.replay, c.send with
    | frame :: replay, _ => some { c with replay := replay, written := c.written ++ [frame] }
    | [], frame :: send => some { c with send := send, written := c.written ++ [frame] }
    | [], [] => none

/-- Everything handed to the write side so far, in wire order. -/
def carried (c : Client) : List Bytes := c.written ++ c.replay ++ c.send

/-- A closed client takes no frame. -/
theorem enqueue_of_closed {c : Client} (h : c.closed = true) (frame : Bytes) :
    c.enqueue frame = (c, .closed) := if_pos h

/-- A frame that fits joins the back of the send queue. -/
theorem enqueue_of_room {c : Client} (h : c.closed = false) (hr : c.send.length < c.sendBuffer)
    (frame : Bytes) : c.enqueue frame = ({ c with send := c.send ++ [frame] }, .ok) := by
  simp [enqueue, h, hr]

/-- A full send queue takes no frame. -/
theorem enqueue_of_full {c : Client} (h : c.closed = false) (hr : c.sendBuffer ≤ c.send.length)
    (frame : Bytes) : c.enqueue frame = (c, .full) := by
  simp [enqueue, h, hr]

/-- The send channel takes the frame, or stays as it is. -/
theorem enqueue_cases (c : Client) (frame : Bytes) :
    ((c.enqueue frame).2 = .ok ∧ (c.enqueue frame).1.send = c.send ++ [frame]) ∨
      ((c.enqueue frame).2 ≠ .ok ∧ (c.enqueue frame).1.send = c.send) := by
  unfold enqueue
  split_ifs
  · exact Or.inr ⟨nofun, rfl⟩
  · exact Or.inl ⟨rfl, rfl⟩
  · exact Or.inr ⟨nofun, rfl⟩

/-- The write pump only moves frames along. -/
theorem writeNext_carried {c c' : Client} (h : c.writeNext = some c') : c'.carried = c.carried := by
  unfold writeNext at h
  split_ifs at h with hclosed
  split at h
  · obtain rfl := Option.some.inj h
    simp_all [carried]
  · obtain rfl := Option.some.inj h
    simp_all [carried]
  · cases h

/-- Everything but the queues is left alone by the write pump. -/
theorem writeNext_frame {c c' : Client} (h : c.writeNext = some c') :
    c'.session = c.session ∧ c'.closed = c.closed ∧ c'.noResume = c.noResume ∧
      c'.parked = c.parked ∧ c.written <+: c'.written := by
  unfold writeNext at h
  split_ifs at h with hclosed
  split at h
  · obtain rfl := Option.some.inj h
    exact ⟨rfl, rfl, rfl, rfl, List.prefix_append ..⟩
  · obtain rfl := Option.some.inj h
    exact ⟨rfl, rfl, rfl, rfl, List.prefix_append ..⟩
  · cases h

end Client
end GoSocket
