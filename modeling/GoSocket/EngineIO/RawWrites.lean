/-
# Two writers on one socket

After an upgrade the read pump and the write pump share one
`eioWebSocketTransport`.  `Write`, `Ping` and `SendClose` of the write pump and the
answer to a ping inside `Read` all end in `raw.Write`, and nothing serialises them:
`mu` guards the handler and the deadline only.  The default raw transport, a
gorilla connection, allows one writer at a time.

A raw write is two steps here, its begin and its end.  The pumps are given by
what they are fed: the frames the peer sends, and the calls the write pump makes.
Two raw writes can overlap exactly when the peer gets a ping answered and the write
pump makes a call at all (`serialised_iff`).
-/

import GoSocket.EngineIO.Transport
import GoSocket.Lib.Steps

namespace GoSocket

open Lib

namespace EngineIO

/-- Where the read pump is. -/
inductive ReadStage where
  /-- `Read` is to be called. -/
  | idle
  /-- `Read` has found the transport open; `raw.Read` is to be called. -/
  | reading
  /-- The packets of the frame that are still to be handled. -/
  | frame (rest : List Packet)
  /-- `raw.Write` of a pong is in progress. -/
  | writing (rest : List Packet)
  /-- `Read` has returned an error and the pump has ended. -/
  | stopped
  deriving DecidableEq

/-- Where the write pump is. -/
inductive WriteStage where
  | idle
  /-- The call has found the transport open. -/
  | checked (o : Outgoing)
  /-- `raw.Write` is in progress. -/
  | writing (o : Outgoing)
  deriving DecidableEq

/-- How a raw call ends. -/
inductive RawResult where
  | ok
  /-- A timeout, after which the read pump goes on. -/
  | timeout
  | fail
  deriving DecidableEq

/-- The two pumps over one `eioWebSocketTransport`. -/
structure Pumps where
  closed : Bool
  reader : ReadStage
  writer : WriteStage
  /-- What the peer has still to send. -/
  frames : List Bytes
  /-- What the write pump has still to call. -/
  calls : List Outgoing
  deriving DecidableEq

/-- A step of one of the pumps, with the result of the raw call that ends with it. -/
inductive PumpOp where
  | reader (r : RawResult)
  | writer
  deriving DecidableEq

namespace Pumps

/-- `applyUpgrade` has just put the transport in place. -/
def init (frames : List Bytes) (calls : List Outgoing) : Pumps where
  closed := false
  reader := .idle
  writer := .idle
  frames := frames
  calls := calls

/-- Where the read pump goes when `Read` returns an error. -/
def afterError : RawResult → ReadStage
  | .timeout => .idle
  | _ => .stopped

/-- The next step of `Read`. -/
def stepReader (s : Pumps) (r : RawResult) : Option Pumps :=
  match s.reader with
  | .idle => some { s with reader := if s.closed then .stopped else .reading }
  | .reading =>
      if r = .ok then
        match s.frames with
        | [] => none
        | frame :: frames =>
            match decodeBatch frame with
            | .error _ => some { s with reader := .stopped, frames := frames }
            | .ok packets => some { s with reader := .frame packets, frames := frames }
      else some { s with reader := afterError r }
  | .frame [] => some { s with reader := .reading }
  | .frame (p :: rest) =>
      match p.type with
      -- `Read` returns the message; what is left of the frame is dropped
      | .message => some { s with reader := .idle }
      | .ping => some { s with reader := .writing rest }
      | .close => some { s with closed := true, reader := .stopped }
      | _ => some { s with reader := .frame rest }
  | .writing rest => some { s with reader := if r = .ok then .frame rest else afterError r }
  | .stopped => none

/-- The next step of the write pump. -/
def stepWriter (s : Pumps) : Option Pumps :=
  match s.writer with
  | .idle =>
      match s.calls with
      | [] => none
      | o :: calls =>
          some { s with writer := if s.closed then .idle else .checked o, calls := calls }
  | .checked o => some { s with writer := .writing o }
  | .writing _ => some { s with writer := .idle }

def step (s : Pumps) : PumpOp → Option Pumps
  | .reader r => s.stepReader r
  | .writer => s.stepWriter

/-- The step relation of the pumps. -/
def Step (s : Pumps) (a : PumpOp) (s' : Pumps) : Prop := s.step a = some s'

/-- Two raw writes are in progress. -/
def Overlap (s : Pumps) : Prop := (∃ rest, s.reader = .writing rest) ∧ ∃ o, s.writer = .writing o

/-- What `Read` finds first in the packets of a frame. -/
inductive Scan where
  /-- A ping, which it answers. -/
  | ping
  /-- A close packet. -/
  | close
  /-- A message, or the end of the frame. -/
  | next
  deriving DecidableEq

def scan : List Packet → Scan
  | [] => .next
  | p :: rest =>
      match p.type with
      | .message => .next
      | .ping => .ping
      | .close => .close
      | _ => scan rest

/-- The peer gets a ping answered, if `Read` is called as long as it returns no error. -/
def answersPing : List Bytes → Bool
  | [] => false
  | frame :: frames =>
      match decodeBatch frame with
      | .error _ => false
      | .ok packets =>
          match scan packets with
          | .ping => true
          | .close => false
          | .next => answersPing frames

variable {s s' : Pumps} {a : PumpOp}

/-- No ping is answered any more. -/
def Quiet (s : Pumps) : Prop :=
  match s.reader with
  | .idle | .reading => answersPing s.frames = false
  | .frame rest => scan rest = .close ∨ (scan rest = .next ∧ answersPing s.frames = false)
  | .writing _ => False
  | .stopped => True

/-- A frame that is not answered has no ping before its end. -/
theorem scan_of_quiet {frame : Bytes} {frames : List Bytes} {packets : List Packet}
    (h : answersPing (frame :: frames) = false) (hd : decodeBatch frame = .ok packets) :
    scan packets = .close ∨ (scan packets = .next ∧ answersPing frames = false) := by
  unfold answersPing at h
  rw [hd] at h
  dsimp only at h
  cases hs : scan packets with
  | ping => simp [hs] at h
  | close => exact Or.inl rfl
  | next => exact Or.inr ⟨rfl, by simpa [hs] using h⟩

/-- A reader with no ping left to answer comes to none. -/
theorem Quiet.step_reader (h : s.Quiet) {r : RawResult} (hstep : s.stepReader r = some s') :
    s'.Quiet := by
  obtain ⟨closed, reader, writer, frames, calls⟩ := s
  cases reader with
  | idle =>
      obtain rfl := Option.some.inj hstep
      cases closed
      · exact h
      · trivial
  | reading =>
      simp only [stepReader] at hstep
      split_ifs at hstep with hr
      · cases frames with
        | nil => cases hstep
        | cons frame frames =>
            dsimp only at hstep
            cases hd : decodeBatch frame with
            | error e =>
                rw [hd] at hstep
                obtain rfl := Option.some.inj hstep
                trivial
            | ok packets =>
                rw [hd] at hstep
                obtain rfl := Option.some.inj hstep
                exact scan_of_quiet h hd
      · obtain rfl := Option.some.inj hstep
        cases r
        · exact absurd rfl hr
        · exact h
        · trivial
  | frame rest =>
      have h : scan rest = .close ∨ (scan rest = .next ∧ answersPing frames = false) := h
      cases rest with
      | nil =>
          obtain rfl := Option.some.inj hstep
          rcases h with h | h
          · cases h
          · exact h.2
      | cons p rest =>
          obtain ⟨type, data⟩ := p
          cases type with
          | message =>
              obtain rfl := Option.some.inj hstep
              rcases h with h | h
              · cases h
              · exact h.2
          | ping => rcases h with h | ⟨h, -⟩ <;> cases h
          | close =>
              obtain rfl := Option.some.inj hstep
              trivial
          | _ =>
              obtain rfl := Option.some.inj hstep
              exact h
  | writing => exact absurd h id
  | stopped => cases hstep

/-- Once no ping is answered any more, none is later. -/
theorem Quiet.step (h : s.Quiet) (hstep : s.Step a s') : s'.Quiet := by
  cases a with
  | reader r => exact h.step_reader hstep
  | writer =>
      obtain ⟨closed, reader, writer, frames, calls⟩ := s
      cases writer with
      | idle =>
          cases calls with
          | nil => cases hstep
          | cons o calls =>
              obtain rfl := Option.some.inj hstep
              exact h
      | checked o =>
          obtain rfl := Option.some.inj hstep
          exact h
      | writing o =>
          obtain rfl := Option.some.inj hstep
          exact h

/-- A write pump with nothing to do does nothing. -/
theorem Step.no_calls (hstep : s.Step a s') (h : s.calls = [] ∧ s.writer = .idle) :
    s'.calls = [] ∧ s'.writer = .idle := by
  obtain ⟨closed, reader, writer, frames, calls⟩ := s
  obtain ⟨rfl, rfl⟩ := h
  cases a with
  | writer => cases hstep
  | reader r =>
      simp only [Step, step, stepReader] at hstep
      split at hstep
      · exact Option.some.inj hstep ▸ ⟨rfl, rfl⟩
      · split_ifs at hstep
        · split at hstep
          · cases hstep
          · split at hstep <;> exact Option.some.inj hstep ▸ ⟨rfl, rfl⟩
        · exact Option.some.inj hstep ▸ ⟨rfl, rfl⟩
      · exact Option.some.inj hstep ▸ ⟨rfl, rfl⟩
      · split at hstep <;> exact Option.some.inj hstep ▸ ⟨rfl, rfl⟩
      · exact Option.some.inj hstep ▸ ⟨rfl, rfl⟩
      · cases hstep

section reach

variable (writer : WriteStage) (frames : List Bytes) (calls : List Outgoing)

/-- `Read` comes to the ping of a frame. -/
theorem reach_ping_frame {rest : List Packet} (h : scan rest = .ping) :
    ∃ rest', Reachable Step ⟨false, .frame rest, writer, frames, calls⟩
      ⟨false, .writing rest', writer, frames, calls⟩ := by
  induction rest with
  | nil => cases h
  | cons p rest ih =>
      obtain ⟨type, data⟩ := p
      cases type with
      | ping => exact ⟨rest, .head (a := .reader .ok) rfl (.refl _)⟩
      | message => cases h
      | close => cases h
      | _ =>
          obtain ⟨rest', hr⟩ := ih h
          exact ⟨rest', .head (a := .reader .ok) rfl hr⟩

/-- `Read` comes to the next frame. -/
theorem reach_next_frame {rest : List Packet} (h : scan rest = .next) {s : Pumps}
    (hs : Reachable Step ⟨false, .reading, writer, frames, calls⟩ s) :
    Reachable Step ⟨false, .frame rest, writer, frames, calls⟩ s := by
  induction rest with
  | nil => exact .head (a := .reader .ok) rfl hs
  | cons p rest ih =>
      obtain ⟨type, data⟩ := p
      cases type with
      | message => exact .head (a := .reader .ok) rfl (.head (a := .reader .ok) rfl hs)
      | ping => cases h
      | close => cases h
      | _ => exact .head (a := .reader .ok) rfl (ih h)

/-- `Read` comes to a ping. -/
theorem reach_ping (h : answersPing frames = true) :
    ∃ rest frames', Reachable Step ⟨false, .reading, writer, frames, calls⟩
      ⟨false, .writing rest, writer, frames', calls⟩ := by
  induction frames with
  | nil => cases h
  | cons frame frames ih =>
      unfold answersPing at h
      cases hd : decodeBatch frame with
      | error e => simp [hd] at h
      | ok packets =>
          have hread : Step ⟨false, .reading, writer, frame :: frames, calls⟩ (.reader .ok)
              ⟨false, .frame packets, writer, frames, calls⟩ := by
            simp [Step, step, stepReader, hd]
          simp only [hd] at h
          cases hs : scan packets with
          | ping =>
              obtain ⟨rest, hr⟩ := reach_ping_frame writer frames calls hs
              exact ⟨rest, frames, hr.head hread⟩
          | close => simp [hs] at h
          | next =>
              obtain ⟨rest, frames', hr⟩ := ih (by simpa [hs] using h)
              exact ⟨rest, frames', (reach_next_frame writer frames calls hs hr).head hread⟩

end reach

/-- **When raw writes are serialised.**  In every interleaving of the two pumps no two
raw writes overlap, if and only if the peer gets no ping answered or the write pump makes
no call. -/
theorem serialised_iff (frames : List Bytes) (calls : List Outgoing) :
    (∀ s, Reachable Step (init frames calls) s → ¬ s.Overlap) ↔
      answersPing frames = false ∨ calls = [] := by
  constructor
  · intro h
    rw [or_iff_not_imp_left]
    intro hping
    by_contra hcalls
    obtain ⟨o, calls, rfl⟩ := List.exists_cons_of_ne_nil hcalls
    -- the write pump calls first, and begins its write while a pong is being written
    obtain ⟨rest, frames', hr⟩ := reach_ping (.checked o) frames calls (by simpa using hping)
    have hcall : Step (init frames (o :: calls)) .writer
        ⟨false, .idle, .checked o, frames, calls⟩ := rfl
    have hread : Step ⟨false, .idle, .checked o, frames, calls⟩ (.reader .ok)
        ⟨false, .reading, .checked o, frames, calls⟩ := rfl
    have hwrite : Step ⟨false, .writing rest, .checked o, frames', calls⟩ .writer
        ⟨false, .writing rest, .writing o, frames', calls⟩ := rfl
    exact h _ (.head hcall (.head hread (hr.trans (.head hwrite (.refl _)))))
      ⟨⟨rest, rfl⟩, o, rfl⟩
  · rintro (hping | rfl) s hs ⟨⟨rest, hreader⟩, o, hwriter⟩
    · have hquiet : s.Quiet := hs.invariant (P := Quiet) hping fun _ _ _ hq hstep => hq.step hstep
      unfold Quiet at hquiet
      rw [hreader] at hquiet
      exact hquiet
    · have hidle := hs.invariant (P := fun s => s.calls = [] ∧ s.writer = .idle) ⟨rfl, rfl⟩
        fun _ _ _ hq hstep => hstep.no_calls hq
      rw [hidle.2] at hwriter
      cases hwriter

/-- **Counterexample.**  The peer sends a ping packet while the write pump sends a
message. -/
theorem raw_writes_overlap :
    ∃ s, Reachable Step (init [ascii "2"] [.write (ascii "hi")]) s ∧ s.Overlap := by
  obtain ⟨s, hs, hp⟩ := Reachable.of_exec step (s := init [ascii "2"] [.write (ascii "hi")])
    [.reader .ok, .reader .ok, .reader .ok, .writer, .writer]
    (p := fun s => s.reader = .writing [] ∧ s.writer = .writing (.write (ascii "hi")))
    (by decide +kernel)
  obtain ⟨hreader, hwriter⟩ := of_decide_eq_true hp
  exact ⟨s, hs, ⟨_, hreader⟩, _, hwriter⟩

end Pumps
end EngineIO
end GoSocket
