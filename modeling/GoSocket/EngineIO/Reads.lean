/-
# The packets of a WebSocket frame

`eioWebSocketTransport.Read` takes a raw frame, decodes it as a batch and goes through the
packets: a ping is answered, and at the first message it returns.  The packets behind that
message are in a local variable and are gone; the next `Read` takes the next frame.

`Read` is given here by the frames `raw.Read` is to return, after which it fails; `raw.Write`
is taken to succeed, and `firePong` is left out.  `trace` is what successive calls do, until one
of them fails: the pongs they write and the messages they return, in order.  The read pump of
the machine, left alone with such frames, writes just these pongs (`Machine.pump_alone`).

No packet is lost exactly when in no frame a message or a ping comes behind a message
(`trace_complete_iff`).
-/

import GoSocket.EngineIO.Inversion

namespace GoSocket

open Lib

namespace EngineIO

/-- What the loop over the packets of a frame comes to. -/
inductive FrameEnd where
  | message (data : Bytes)
  | close
  /-- All packets were handled. -/
  | next
  deriving DecidableEq

/-- The loop over the packets of a frame: the pongs it writes, and where it ends. -/
def readPackets : List Packet → List Bytes × FrameEnd
  | [] => ([], .next)
  | p :: rest =>
      match p.type with
      | .message => ([], .message p.data)
      | .ping => (wire .pong p.data :: (readPackets rest).1, (readPackets rest).2)
      | .close => ([], .close)
      | _ => readPackets rest

/-- What `Read` returns. -/
inductive ReadResult where
  | message (data : Bytes)
  /-- A close packet was read. -/
  | eof
  | badBatch (e : PacketError)
  /-- `raw.Read` has failed. -/
  | raw
  deriving DecidableEq

/-- `Read` on an open transport: the pongs it writes, what it returns, and the frames that are
still to be read. -/
def read : List Bytes → List Bytes × ReadResult × List Bytes
  | [] => ([], .raw, [])
  | frame :: frames =>
      match decodeBatch frame with
      | .error e => ([], .badBatch e, frames)
      | .ok packets =>
          match readPackets packets with
          | (pongs, .message data) => (pongs, .message data, frames)
          | (pongs, .close) => (pongs, .eof, frames)
          | (pongs, .next) => (pongs ++ (read frames).1, (read frames).2)

/-- What the other side and the caller see of `Read`. -/
inductive ReadEvent where
  | wrote (pong : Bytes)
  | returned (data : Bytes)
  deriving DecidableEq

/-- A message costs a frame. -/
theorem read_length {frames rest : List Bytes} {pongs : List Bytes} {data : Bytes}
    (h : read frames = (pongs, .message data, rest)) : rest.length < frames.length := by
  induction frames generalizing pongs with
  | nil => cases h
  | cons frame frames ih =>
      rw [read] at h
      split at h
      next => cases h
      next =>
        split at h
        next =>
          cases h
          exact Nat.lt_succ_self _
        next => cases h
        next =>
          obtain ⟨-, h⟩ := Prod.mk.inj h
          exact (ih (Prod.ext rfl h)).trans (Nat.lt_succ_self _)

/-- Successive calls of `Read`, until one of them returns no message. -/
def trace (frames : List Bytes) : List ReadEvent :=
  match hread : read frames with
  | (pongs, .message data, rest) =>
      have : rest.length < frames.length := read_length hread
      pongs.map .wrote ++ .returned data :: trace rest
  | (pongs, _, _) => pongs.map .wrote
termination_by frames.length
decreasing_by assumption

/-- What is to come of a packet. -/
def event (p : Packet) : Option ReadEvent :=
  match p.type with
  | .message => some (.returned p.data)
  | .ping => some (.wrote (wire .pong p.data))
  | _ => none

/-- What is to come of a frame. -/
def frameEvents (frame : Bytes) : List ReadEvent :=
  match decodeBatch frame with
  | .ok packets => packets.filterMap event
  | .error _ => []

/-- The packets behind the first message. -/
def behind (packets : List Packet) : List Packet :=
  (packets.dropWhile fun p => p.type ≠ .message).tail

/-- What comes of a frame. -/
def readEvents : List Bytes × FrameEnd → List ReadEvent
  | (pongs, .message data) => pongs.map .wrote ++ [.returned data]
  | (pongs, .close) | (pongs, .next) => pongs.map .wrote

section trace

variable {frames rest pongs : List Bytes}

/-- A read that returns a message is followed by the next. -/
theorem trace_of_message {data : Bytes} (h : read frames = (pongs, .message data, rest)) :
    trace frames = pongs.map .wrote ++ .returned data :: trace rest := by
  rw [trace]
  split
  next heq =>
    cases h.symm.trans heq
    rfl
  next hno heq => exact absurd (h.symm.trans heq) (by rintro ⟨⟩; exact hno _ rfl)

/-- A read that fails is the last. -/
theorem trace_of_failed {r : ReadResult} (h : read frames = (pongs, r, rest))
    (hr : ∀ data, r ≠ .message data) : trace frames = pongs.map .wrote := by
  rw [trace]
  split
  next heq =>
    cases h.symm.trans heq
    exact absurd rfl (hr _)
  next heq =>
    cases h.symm.trans heq
    rfl

/-- Nothing is done without a frame. -/
theorem trace_nil : trace [] = [] := by
  rw [trace_of_failed (r := .raw) rfl nofun]
  rfl

end trace

/-- Packets without a close do not close. -/
theorem readPackets_ne_close {packets : List Packet} (hclose : ∀ p ∈ packets, p.type ≠ .close) :
    (readPackets packets).2 ≠ .close := by
  induction packets with
  | nil => exact nofun
  | cons p packets ih =>
      obtain ⟨hp, hclose⟩ := List.forall_mem_cons.1 hclose
      rw [readPackets]
      split
      next => exact nofun
      next => exact ih hclose
      next htype => exact absurd htype hp
      next => exact ih hclose

/-- **One frame after the other**: what `Read` does with a frame does not depend on the others. -/
theorem trace_cons {frame : Bytes} {packets : List Packet}
    (hdecode : decodeBatch frame = .ok packets) (hclose : ∀ p ∈ packets, p.type ≠ .close)
    (frames : List Bytes) :
    trace (frame :: frames) = readEvents (readPackets packets) ++ trace frames := by
  have hne := readPackets_ne_close hclose
  have hread := read.eq_2 frame frames
  rw [hdecode] at hread
  dsimp only at hread
  rcases hp : readPackets packets with ⟨pongs, e⟩
  rw [hp] at hread hne
  cases e with
  | message data =>
      rw [trace_of_message hread, readEvents, List.append_assoc]
      rfl
  | close => exact absurd rfl hne
  | next =>
      rcases hrest : read frames with ⟨pongs', r, rest⟩
      rw [hrest] at hread
      by_cases hr : ∃ data, r = .message data
      · obtain ⟨data, rfl⟩ := hr
        rw [trace_of_message hread, trace_of_message hrest, readEvents, List.map_append,
          List.append_assoc]
      · have hr : ∀ data, r ≠ .message data := fun data h => hr ⟨data, h⟩
        rw [trace_of_failed hread hr, trace_of_failed hrest hr, readEvents, List.map_append]

/-- The pong that is written first comes first. -/
theorem readEvents_cons (pong : Bytes) (pongs : List Bytes) (e : FrameEnd) :
    readEvents (pong :: pongs, e) = .wrote pong :: readEvents (pongs, e) := by
  cases e <;> rfl

/-- What is to come of the packets of a frame: what comes of them, and what is lost behind the
first message. -/
theorem filterMap_event {packets : List Packet} (hclose : ∀ p ∈ packets, p.type ≠ .close) :
    packets.filterMap event =
      readEvents (readPackets packets) ++ (behind packets).filterMap event := by
  induction packets with
  | nil => rfl
  | cons p packets ih =>
      obtain ⟨hp, hrest⟩ := List.forall_mem_cons.1 hclose
      obtain ⟨type, data⟩ := p
      cases type with
      | message => simp [event, readPackets, readEvents, behind]
      | ping =>
          have hbehind : behind (⟨.ping, data⟩ :: packets) = behind packets := by simp [behind]
          rw [hbehind, readPackets]
          dsimp only
          rw [readEvents_cons, List.cons_append, ← ih hrest]
          rfl
      | close => exact absurd rfl hp
      | _ => exact ih hrest

/-- Nothing is lost behind the first message exactly when there is no message and no ping. -/
theorem filterMap_event_eq_nil_iff (packets : List Packet) :
    packets.filterMap event = [] ↔ ∀ q ∈ packets, q.type ≠ .message ∧ q.type ≠ .ping := by
  rw [List.filterMap_eq_nil_iff]
  refine forall₂_congr fun q _ => ?_
  obtain ⟨type, data⟩ := q
  cases type <;> simp [event]

/-- `DecodeBatch` accepts the frame, and it has no close packet. -/
def Plain (frame : Bytes) : Prop :=
  ∃ packets, decodeBatch frame = .ok packets ∧ ∀ p ∈ packets, p.type ≠ .close

/-- What is lost of a frame. -/
def lost (frame : Bytes) : List ReadEvent :=
  match decodeBatch frame with
  | .ok packets => (behind packets).filterMap event
  | .error _ => []

/-- What comes of a frame, and what is lost of it. -/
theorem trace_plain {frame : Bytes} (h : Plain frame) (frames : List Bytes) :
    ∃ seen, trace (frame :: frames) = seen ++ trace frames ∧
      frameEvents frame = seen ++ lost frame := by
  obtain ⟨packets, hdecode, hclose⟩ := h
  refine ⟨readEvents (readPackets packets), trace_cons hdecode hclose frames, ?_⟩
  rw [frameEvents, lost, hdecode]
  exact filterMap_event hclose

/-- No more comes of the frames than is to come of them. -/
theorem length_trace_le {frames : List Bytes} (h : ∀ frame ∈ frames, Plain frame) :
    (trace frames).length ≤ (frames.flatMap frameEvents).length := by
  induction frames with
  | nil => rw [trace_nil]; rfl
  | cons frame frames ih =>
      obtain ⟨hframe, hframes⟩ := List.forall_mem_cons.1 h
      obtain ⟨seen, htrace, hevents⟩ := trace_plain hframe frames
      rw [htrace, List.flatMap_cons, hevents, List.length_append, List.length_append,
        List.length_append]
      have := ih hframes
      omega

/-- The trace is that of the frames one by one exactly when none of them loses a packet. -/
theorem trace_eq_iff_lost {frames : List Bytes} (h : ∀ frame ∈ frames, Plain frame) :
    trace frames = frames.flatMap frameEvents ↔ ∀ frame ∈ frames, lost frame = [] := by
  induction frames with
  | nil => exact iff_of_true trace_nil (by simp)
  | cons frame frames ih =>
      obtain ⟨hframe, hframes⟩ := List.forall_mem_cons.1 h
      obtain ⟨seen, htrace, hevents⟩ := trace_plain hframe frames
      rw [htrace, List.flatMap_cons, hevents, List.append_assoc, List.append_cancel_left_eq,
        List.forall_mem_cons, ← ih hframes]
      constructor
      · intro heq
        have hle := length_trace_le hframes
        have hlen := congrArg List.length heq
        rw [List.length_append] at hlen
        have hnil : lost frame = [] := List.length_eq_zero_iff.1 (by omega)
        exact ⟨hnil, by rwa [hnil] at heq⟩
      · rintro ⟨hnil, heq⟩
        rw [hnil, heq]
        rfl

/-- **When Engine.IO over a WebSocket loses nothing.**  For every sequence of frames that
`DecodeBatch` accepts and that have no close packet: successive calls of `Read` return the data
of all messages in order and answer every ping in its place, if and only if no frame has a
message or a ping behind its first message. -/
theorem trace_complete_iff (frames : List Bytes)
    (hframes : ∀ frame ∈ frames, ∃ packets, decodeBatch frame = .ok packets ∧
      ∀ p ∈ packets, p.type ≠ .close) :
    trace frames = frames.flatMap frameEvents ↔
      ∀ frame ∈ frames, ∀ packets, decodeBatch frame = .ok packets →
        ∀ q ∈ behind packets, q.type ≠ .message ∧ q.type ≠ .ping := by
  rw [trace_eq_iff_lost hframes]
  refine forall₂_congr fun frame hmem => ?_
  obtain ⟨packets, hdecode, -⟩ := hframes frame hmem
  rw [lost, hdecode]
  dsimp only
  rw [filterMap_event_eq_nil_iff]
  constructor
  · rintro hnone packets' heq
    obtain rfl := Except.ok.inj heq
    exact hnone
  · exact fun hnone => hnone packets rfl

/-- A ping and a message in one frame, and a message in the next. -/
theorem trace_complete_ping :
    trace [joinWires [ascii "2x", ascii "4a"], ascii "4b"] =
      [.wrote (ascii "3x"), .returned (ascii "a"), .returned (ascii "b")] := by
  have hfirst : decodeBatch (joinWires [ascii "2x", ascii "4a"]) =
      .ok [⟨.ping, ascii "x"⟩, ⟨.message, ascii "a"⟩] := by decide +kernel
  have hsecond : decodeBatch (ascii "4b") = .ok [⟨.message, ascii "b"⟩] := by decide +kernel
  refine ((trace_complete_iff _ ?_).2 ?_).trans (by decide +kernel)
  · simp [hfirst, hsecond]
  · simp [hfirst, hsecond, behind]

/-- **Counterexample.**  Two messages and a ping in one frame: the first message is returned, and
the other two packets are lost. -/
theorem packets_lost :
    trace [joinWires [ascii "4a", ascii "4b", ascii "2x"]] = [.returned (ascii "a")] ∧
      frameEvents (joinWires [ascii "4a", ascii "4b", ascii "2x"]) =
        [.returned (ascii "a"), .returned (ascii "b"), .wrote (ascii "3x")] := by
  decide +kernel

/-- The pong of an event. -/
def ReadEvent.pong : ReadEvent → Option Bytes
  | .wrote pong => some pong
  | .returned _ => none

/-- The pongs among the events of a frame are those it wrote. -/
theorem filterMap_pong_readEvents (pongs : List Bytes) (e : FrameEnd) :
    (readEvents (pongs, e)).filterMap ReadEvent.pong = pongs := by
  have hmap : (pongs.map ReadEvent.wrote).filterMap ReadEvent.pong = pongs := by
    rw [List.filterMap_map]
    exact List.filterMap_some
  cases e with
  | message data => rw [readEvents, List.filterMap_append, hmap]; exact List.append_nil _
  | close => exact hmap
  | next => exact hmap

namespace Machine

variable {m m' : Machine} {c : ConnRef} {w : SockRef}

/-- The WebSocket is the current transport of the connection and is open. -/
structure OnSocket (m : Machine) (c : ConnRef) (w : SockRef) : Prop where
  lt : c < m.shared.connCount
  current : (m.shared.conn c).current = .websocket w
  opened : (m.shared.socket w).closed = false
  raw : (m.shared.socket w).raw.closed = false

/-- Only the read pump of the connection takes steps. -/
def PumpAlone (c : ConnRef) (_ : Machine) (a : MachineOp) : Prop := ∃ k, a = .run (.pump c) k

/-- Left alone, the pump comes to where it reads the next frame, having written these pongs. -/
def Pumps (m : Machine) (c : ConnRef) (w : SockRef) (pongs : List Bytes) : Prop :=
  ∃ m', Reachable (Guarded (PumpAlone c) Step) m m' ∧ m'.OnSocket c w ∧
    m'.pump c = .reading w ∧
    (m'.shared.socket w).raw.written = (m.shared.socket w).raw.written ++ pongs

/-- A pump that is reading has written nothing yet. -/
theorem Pumps.refl (h : m.OnSocket c w) (hs : m.pump c = .reading w) : m.Pumps c w [] :=
  ⟨m, .refl m, h, hs, (List.append_nil _).symm⟩

/-- Pongs written in two parts of a run. -/
theorem Pumps.trans {m' : Machine} (pongs : List Bytes) {pongs' : List Bytes}
    (h : Reachable (Guarded (PumpAlone c) Step) m m')
    (hwritten : (m'.shared.socket w).raw.written = (m.shared.socket w).raw.written ++ pongs)
    (h' : m'.Pumps c w pongs') : m.Pumps c w (pongs ++ pongs') := by
  obtain ⟨m'', hm, hon, hs, hwritten'⟩ := h'
  refine ⟨m'', h.trans hm, hon, hs, ?_⟩
  rw [hwritten', hwritten, List.append_assoc]

variable {s s' : PumpStage} {k : Choice} {pongs : List Bytes}

/-- The pump takes a step. -/
theorem OnSocket.step (h : m.OnSocket c w) {e : Effect} (hs : m.pump c = s)
    (hnext : s.next m.shared c k = some (s', e)) :
    Guarded (PumpAlone c) Step m (.run (.pump c) k) (m.put (.pump c) (m.shared.apply e) s') := by
  refine ⟨⟨k, rfl⟩, ?_⟩
  simp only [Step, Machine.step, ThreadRef.next, show m.thread (.pump c) = _ from hs, if_pos h.lt,
    hnext, Option.map_some]

/-- The pump takes a step that does nothing to the memory. -/
theorem OnSocket.silent (h : m.OnSocket c w) (hs : m.pump c = s)
    (hnext : s.next m.shared c k = some (s', .nothing))
    (hrest : ∀ m' : Machine, m'.OnSocket c w → m'.pump c = s' → m'.Pumps c w pongs) :
    m.Pumps c w pongs := by
  have hstep : Reachable (Guarded (PumpAlone c) Step) m _ :=
    (Reachable.refl _).head (h.step hs hnext)
  exact Pumps.trans [] hstep (List.append_nil _).symm
    (hrest _ ⟨h.lt, h.current, h.opened, h.raw⟩ (pump_put_self ..))

/-- The pump writes a pong. -/
theorem OnSocket.reply (h : m.OnSocket c w) {pong : Bytes} (hs : m.pump c = s)
    (hnext : s.next m.shared c k = some (s', .reply w pong))
    (hrest : ∀ m' : Machine, m'.OnSocket c w → m'.pump c = s' → m'.Pumps c w pongs) :
    m.Pumps c w (pong :: pongs) := by
  have hstep : Reachable (Guarded (PumpAlone c) Step) m _ :=
    (Reachable.refl _).head (h.step hs hnext)
  refine Pumps.trans [pong] hstep (by simp [Memory.apply, Memory.setSocket])
    (hrest _ ⟨h.lt, h.current, ?_, ?_⟩ (pump_put_self ..))
  · simp [Memory.apply, Memory.setSocket, h.opened]
  · simp [Memory.apply, Memory.setSocket, h.raw]

/-- `Read` is called and comes to `raw.Read`. -/
theorem pumps_idle (h : m.OnSocket c w) (hs : m.pump c = .idle)
    (hrest : ∀ m' : Machine, m'.OnSocket c w → m'.pump c = .reading w → m'.Pumps c w pongs) :
    m.Pumps c w pongs := by
  have hload : PumpStage.idle.next m.shared c .go = some (.websocket w, .nothing) := by
    simp [PumpStage.next, h.current]
  refine h.silent hs hload fun m₁ h₁ hs₁ => ?_
  exact h₁.silent (k := .go) hs₁ (by simp [PumpStage.next, h₁.opened]) hrest

/-- The loop over the packets of a frame. -/
theorem pumps_frame {packets : List Packet} (hclose : ∀ p ∈ packets, p.type ≠ .close)
    (h : m.OnSocket c w) (hs : m.pump c = .frame w packets)
    (hrest : ∀ m' : Machine, m'.OnSocket c w → m'.pump c = .reading w → m'.Pumps c w pongs) :
    m.Pumps c w ((readPackets packets).1 ++ pongs) := by
  induction packets generalizing m with
  | nil => exact h.silent (k := .go) hs rfl hrest
  | cons p packets ih =>
      obtain ⟨hp, hrest'⟩ := List.forall_mem_cons.1 hclose
      obtain ⟨type, data⟩ := p
      cases type with
      | message => exact h.silent (k := .go) hs rfl fun m' h' hs' => pumps_idle h' hs' hrest
      | ping =>
          have hreply : (PumpStage.frame w (⟨.ping, data⟩ :: packets)).next m.shared c .go =
              some (.frame w packets, .reply w (wire .pong data)) := by
            simp [PumpStage.next, h.raw]
          exact h.reply hs hreply fun m' => ih hrest'
      | close => exact absurd rfl hp
      | _ => exact h.silent (k := .go) hs rfl fun m' => ih hrest'

/-- **`Read` is what the read pump does** after an upgrade, if it is left alone: fed with frames
that `DecodeBatch` accepts and that have no close packet, it writes the pongs of `trace`. -/
theorem pump_alone (h : m.OnSocket c w) (hs : m.pump c = .reading w) (frames : List Bytes)
    (hframes : ∀ frame ∈ frames, Plain frame) :
    m.Pumps c w ((trace frames).filterMap ReadEvent.pong) := by
  induction frames generalizing m with
  | nil =>
      rw [trace_nil]
      exact .refl h hs
  | cons frame frames ih =>
      obtain ⟨⟨packets, hdecode, hclose⟩, hframes⟩ := List.forall_mem_cons.1 hframes
      rw [trace_cons hdecode hclose, List.filterMap_append, filterMap_pong_readEvents]
      have hread : (PumpStage.reading w).next m.shared c (.frame frame) =
          some (.frame w packets, .nothing) := by
        simp [PumpStage.next, h.raw, hdecode]
      exact h.silent hs hread fun m' h' hs' =>
        pumps_frame hclose h' hs' fun m'' h'' hs'' => ih h'' hs'' hframes

end Machine

end EngineIO
end GoSocket
