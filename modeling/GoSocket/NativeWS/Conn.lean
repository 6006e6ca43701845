/-
# The native WebSocket connection

`internal/nativews/conn.go`, the server side of RFC 6455.  `readFrame` takes a frame
from the connection, `ReadMessage` puts the fragments of a message together and answers
control frames as they come, `writeFrame` writes a header and then its payload, two
`Write` calls of the connection.

What the connection gives is a feed: bytes, and read timeouts between them.  The feed
ends where the connection ends.  What `readFrame` and `ReadMessage` have taken from it
when they fail is in their locals and is lost.

The length of a payload is assembled in an `int64`, so it may come out negative.  `make`
panics on such a length, and on a length above what it can allocate, `maxAlloc` (`2^48`
bytes on most machines).  What `append` puts together has been received, and no bound is
set to it.  A `Write` that fails writes nothing.  The pong handler is left out:
`ReadMessage` ignores what it returns.
-/

import GoSocket.Lib.Decimal
import GoSocket.Lib.Reader
import Mathlib.Data.Int.Notation

namespace GoSocket

open Lib

namespace NativeWS

def opcodeContinuation : ℕ := 0x0
def opcodeText : ℕ := 0x1
def opcodeBinary : ℕ := 0x2
def opcodeClose : ℕ := 0x8
def opcodePing : ℕ := 0x9
def opcodePong : ℕ := 0xA

def maxControlPayload : ℕ := 125

/-- The errors of `ReadMessage`. -/
inductive ReadError where
  /-- `io.EOF`: the end of the connection, or a close frame. -/
  | eof
  /-- `io.ErrUnexpectedEOF`. -/
  | unexpectedEOF
  /-- The read deadline has passed. -/
  | timeout
  /-- `nativews: client frame must be masked`. -/
  | unmasked
  /-- `nativews: unexpected opcode %d during fragmentation`. -/
  | unexpectedOpcode (op : ℕ)
  /-- `nativews: message exceeds read limit`. -/
  | limit
  /-- `nativews: fragmented control frame`. -/
  | fragmentedControl
  /-- The answer to a ping could not be written. -/
  | write
  deriving DecidableEq

/-- How a function stops that does not return a result. -/
inductive Halt where
  | error (e : ReadError)
  /-- `make` was called with a length that is negative or too large. -/
  | panic
  deriving DecidableEq

/-- `c.br.ReadByte`. -/
def readByte : Reader UInt8 Halt UInt8 := Reader.item (.error .eof) (.error .timeout)

/-- `io.ReadFull(c.br, …)` into an array of `n` bytes. -/
def readFull (n : ℕ) : Reader UInt8 Halt {l : Bytes // l.length = n} :=
  Reader.exactly (.error .eof) (.error .unexpectedEOF) (.error .timeout) n

/-- How many bytes of extended length follow the second byte. -/
def extSize (b2 : UInt8) : ℕ :=
  if b2 &&& 0x7F = 126 then 2 else if b2 &&& 0x7F = 127 then 8 else 0

/-- `length<<8 | int64(b)`. -/
def shift (length : BitVec 64) (b : UInt8) : BitVec 64 := length <<< 8 ||| b.toBitVec.setWidth 64

/-- The `int64` of an extended length. -/
def shiftIn (ext : Bytes) : BitVec 64 := ext.foldl shift 0

/-- The header of a frame as it was read. -/
structure Header where
  b1 : UInt8
  b2 : UInt8
  ext : {l : Bytes // l.length = extSize b2}
  maskKey : {l : Bytes // l.length = 4}
  deriving DecidableEq

namespace Header

variable (h : Header)

def fin : Bool := h.b1 &&& 0x80 ≠ 0

def opcode : ℕ := (h.b1 &&& 0x0F).toNat

/-- The `int64` that is passed to `make`. -/
def length : ℤ := if extSize h.b2 = 0 then (h.b2 &&& 0x7F).toNat else (shiftIn h.ext.1).toInt

end Header

/-- A frame that was read. -/
structure Frame where
  fin : Bool
  opcode : ℕ
  data : Bytes
  deriving DecidableEq

/-- `readFrame`, up to the mask key. -/
def readHeader : Reader UInt8 Halt Header := do
  let b1 ← readByte
  let b2 ← readByte
  let ext ← readFull (extSize b2)
  if b2 &&& 0x80 = 0 then Reader.fail (.error .unmasked)
  else do
    let maskKey ← readFull 4
    return ⟨b1, b2, ext, maskKey⟩

/-- `payload[i] ^= maskKey[i%4]`. -/
def unmask (maskKey payload : Bytes) : Bytes :=
  payload.mapIdx fun i b => b ^^^ maskKey.getD (i % 4) 0

/-- `readFrame`, from `make` on, where `make` can allocate `maxAlloc` bytes. -/
def readPayload (maxAlloc : ℕ) (h : Header) : Reader UInt8 Halt Bytes :=
  if h.length < 0 ∨ maxAlloc < h.length then Reader.fail .panic
  else do
    let payload ← readFull h.length.toNat
    return unmask h.maskKey.1 payload.1

/-- Unmasking keeps the length. -/
@[simp] theorem length_unmask (maskKey payload : Bytes) :
    (unmask maskKey payload).length = payload.length :=
  List.length_mapIdx

/-- A payload that was read has the length of the header. -/
theorem length_of_readPayload {maxAlloc : ℕ} {h : Header} {s rest : Feed UInt8} {data : Bytes}
    (hread : readPayload maxAlloc h s = (.ok data, rest)) : (data.length : ℤ) = h.length := by
  unfold readPayload at hread
  split_ifs at hread with hpanics
  · cases hread
  · rcases Reader.bind_cases (readFull h.length.toNat)
      (fun payload => Reader.ret (unmask h.maskKey.1 payload.1)) s with
      ⟨payload, t, -, hbind⟩ | ⟨e, t, -, hbind⟩
    · cases hread.symm.trans hbind
      rw [length_unmask, payload.2]
      omega
    · cases hread.symm.trans hbind

def readFrame (maxAlloc : ℕ) : Reader UInt8 Halt Frame := do
  let h ← readHeader
  let data ← readPayload maxAlloc h
  return ⟨h.fin, h.opcode, data⟩

/-- The header `readFrame` comes to, if the feed has one: its length is passed to `make`. -/
def headerOf (s : Feed UInt8) : Option Header :=
  match readHeader s with
  | (.ok h, _) => some h
  | (.error _, _) => none

section readers

theorem regular_readByte : readByte.Regular (.error .timeout) := Reader.regular_item (by simp)

/-- Reading bytes notices a timeout only by failing with it. -/
theorem regular_readFull (n : ℕ) : (readFull n).Regular (.error .timeout) :=
  Reader.regular_exactly (by simp) (by simp) n

/-- What `readHeader` does after its second byte. -/
theorem regular_readHeader_tail (b1 b2 : UInt8) :
    Reader.Regular (.error .timeout) (do
      let ext ← readFull (extSize b2)
      if b2 &&& 0x80 = 0 then Reader.fail (.error .unmasked)
      else do
        let maskKey ← readFull 4
        return Header.mk b1 b2 ext maskKey) := by
  refine (regular_readFull _).bind fun ext => ?_
  split_ifs
  · exact Reader.regular_fail (by simp)
  · exact (regular_readFull 4).bind fun maskKey => Reader.regular_ret _

/-- Reading a header notices a timeout only by failing with it. -/
theorem regular_readHeader : readHeader.Regular (.error .timeout) :=
  regular_readByte.bind fun b1 => regular_readByte.bind fun b2 => regular_readHeader_tail b1 b2

/-- A header that is read has taken bytes. -/
theorem takes_readHeader : readHeader.Takes :=
  (Reader.takes_item _ _).bind fun b1 => regular_readByte.bind fun b2 =>
    regular_readHeader_tail b1 b2

/-- Reading a payload notices a timeout only by failing with it. -/
theorem regular_readPayload (maxAlloc : ℕ) (h : Header) :
    (readPayload maxAlloc h).Regular (.error .timeout) := by
  unfold readPayload
  split_ifs
  · exact Reader.regular_fail (by simp)
  · exact (regular_readFull _).bind fun payload => Reader.regular_ret _

/-- Reading a frame notices a timeout only by failing with it. -/
theorem regular_readFrame (maxAlloc : ℕ) : (readFrame maxAlloc).Regular (.error .timeout) :=
  regular_readHeader.bind fun h =>
    (regular_readPayload maxAlloc h).bind fun _ => Reader.regular_ret _

/-- **A frame that was read took something from the feed.** -/
theorem takes_readFrame (maxAlloc : ℕ) : (readFrame maxAlloc).Takes :=
  takes_readHeader.bind fun h =>
    (regular_readPayload maxAlloc h).bind fun _ => Reader.regular_ret _

end readers

section writeFrame

/-- The header `writeFrame` makes for a payload of `n` bytes. -/
def header (fin : Bool) (opcode : ℤ) (n : ℕ) : Bytes :=
  let b0 := if fin then UInt8.ofInt opcode ||| 0x80 else UInt8.ofInt opcode
  if n ≤ 125 then [b0, n.toUInt8]
  else if n ≤ 65535 then [b0, 126, (n >>> 8).toUInt8, n.toUInt8]
  else
    [b0, 127, 0, 0, 0, 0,
      (n >>> 24).toUInt8, (n >>> 16).toUInt8, (n >>> 8).toUInt8, n.toUInt8]

end writeFrame

/-- A connection. -/
structure Conn where
  input : Feed UInt8
  /-- How the coming calls of `w.Write` end; the ones after them succeed. -/
  writes : List Bool
  /-- What was written. -/
  written : Bytes
  /-- The headers that were read: their lengths are what `make` was called with. -/
  headers : List Header

namespace Conn

/-- `c.w.Write`. -/
def write (c : Conn) (bytes : Bytes) : Bool × Conn :=
  match c.writes with
  | [] => (true, { c with written := c.written ++ bytes })
  | true :: writes => (true, { c with writes := writes, written := c.written ++ bytes })
  | false :: writes => (false, { c with writes := writes })

def writeFrame (c : Conn) (fin : Bool) (opcode : ℤ) (payload : Bytes) : Bool × Conn :=
  match c.write (header fin opcode payload.length) with
  | (false, c) => (false, c)
  | (true, c) => if 0 < payload.length then c.write payload else (true, c)

end Conn

/-- What is left of the coming `Write` calls after a frame with this payload, if it can be
written: one call for the header, and one for the payload if there is any. -/
def writesAfter (writes : List Bool) (payload : Bytes) : Option (List Bool) :=
  let n := if payload = [] then 1 else 2
  if (writes.take n).all id then some (writes.drop n) else none

namespace Conn

/-- The connection after `readFrame`. -/
def after (c : Conn) (rest : Feed UInt8) : Conn :=
  { c with input := rest, headers := c.headers ++ (headerOf c.input).toList }

/-- What a write leaves alone, `writeFrame` leaves alone. -/
theorem writeFrame_frame {α : Type*} {f : Conn → α}
    (hwrite : ∀ (c : Conn) (bytes : Bytes), f (c.write bytes).2 = f c) (c : Conn) (fin : Bool)
    (opcode : ℤ) (payload : Bytes) : f (c.writeFrame fin opcode payload).2 = f c := by
  have hhead := hwrite c (header fin opcode payload.length)
  unfold writeFrame
  split
  · rename_i d h
    rwa [h] at hhead
  · rename_i d h
    rw [h] at hhead
    split_ifs
    · exact (hwrite d payload).trans hhead
    · exact hhead

/-- Whether `writeFrame` succeeds depends on the coming `Write` calls only. -/
theorem writesAfter_of_writeFrame {c d : Conn} {fin ok : Bool} {opcode : ℤ} {payload : Bytes}
    (h : c.writeFrame fin opcode payload = (ok, d)) :
    writesAfter c.writes payload = if ok then some d.writes else none := by
  obtain ⟨input, writes, written, headers⟩ := c
  cases payload with
  | nil =>
      match writes with
      | [] | true :: _ | false :: _ =>
          obtain ⟨rfl, rfl⟩ := Prod.mk.inj h
          rfl
  | cons b payload =>
      match writes with
      | [] | [true] | true :: true :: _ | true :: false :: _ | false :: _ =>
          obtain ⟨rfl, rfl⟩ := Prod.mk.inj h
          simp [writesAfter]

/-- A write reads nothing. -/
theorem write_input (c : Conn) (bytes : Bytes) : (c.write bytes).2.input = c.input := by
  unfold write
  split <;> rfl

/-- Writing a frame reads nothing. -/
@[simp] theorem writeFrame_input (c : Conn) (fin : Bool) (opcode : ℤ) (payload : Bytes) :
    (c.writeFrame fin opcode payload).2.input = c.input :=
  writeFrame_frame write_input c fin opcode payload

/-- A write leaves the log of headers alone. -/
theorem write_headers (c : Conn) (bytes : Bytes) : (c.write bytes).2.headers = c.headers := by
  unfold write
  split <;> rfl

/-- Writing a frame leaves the log of headers alone. -/
theorem writeFrame_headers (c : Conn) (fin : Bool) (opcode : ℤ) (payload : Bytes) :
    (c.writeFrame fin opcode payload).2.headers = c.headers :=
  writeFrame_frame write_headers c fin opcode payload

/-- The same for a frame that is written with this outcome. -/
theorem headers_of_writeFrame {c d : Conn} {fin ok : Bool} {opcode : ℤ} {payload : Bytes}
    (h : c.writeFrame fin opcode payload = (ok, d)) : d.headers = c.headers := by
  rw [← c.writeFrame_headers fin opcode payload, h]

end Conn

/-- The locals of `ReadMessage`. -/
structure Partial where
  msgOpcode : ℕ
  buf : Bytes
  deriving DecidableEq

/-- Nothing is collected yet. -/
def Partial.fresh : Partial := ⟨0, []⟩

/-- What `ReadMessage` does with a frame. -/
inductive Next where
  /-- It goes on to the next frame. -/
  | again (s : Partial)
  /-- It answers a ping and goes on. -/
  | pong (data : Bytes)
  /-- It answers a close and returns `io.EOF`. -/
  | close
  | message (opcode : ℕ) (payload : Bytes)
  | error (e : ReadError)
  deriving DecidableEq

/-- The body of the loop of `ReadMessage`, after `readFrame`. -/
def Partial.next (s : Partial) (readLimit : GoInt) (f : Frame) : Next :=
  if f.opcode = opcodePing then .pong f.data
  else if f.opcode = opcodePong then .again s
  else if f.opcode = opcodeClose then .close
  else if s.msgOpcode ≠ 0 ∧ f.opcode ≠ opcodeContinuation then .error (.unexpectedOpcode f.opcode)
  else
    let msgOpcode := if s.msgOpcode = 0 then f.opcode else s.msgOpcode
    let buf := s.buf ++ f.data
    if 0 < readLimit.1 ∧ readLimit.1 < buf.length then .error .limit
    else if f.fin then
      if msgOpcode ≠ opcodeText ∧ msgOpcode ≠ opcodeBinary then .error .fragmentedControl
      else .message msgOpcode buf
    else .again ⟨msgOpcode, buf⟩

/-- A frame that is no control frame. -/
def Frame.IsData (f : Frame) : Prop :=
  f.opcode ≠ opcodePing ∧ f.opcode ≠ opcodePong ∧ f.opcode ≠ opcodeClose

/-- The opcode of the message after a data frame. -/
def Partial.opcodeWith (s : Partial) (f : Frame) : ℕ :=
  if s.msgOpcode = 0 then f.opcode else s.msgOpcode

/-- The cases of `Partial.next`. -/
inductive Partial.Took (s : Partial) (readLimit : GoInt) (f : Frame) : Next → Prop where
  | ping : f.opcode = opcodePing → Took s readLimit f (.pong f.data)
  | pong : f.opcode = opcodePong → Took s readLimit f (.again s)
  | close : f.opcode = opcodeClose → Took s readLimit f .close
  | unexpected : f.IsData → s.msgOpcode ≠ 0 → f.opcode ≠ opcodeContinuation →
      Took s readLimit f (.error (.unexpectedOpcode f.opcode))
  | limit : f.IsData → Took s readLimit f (.error .limit)
  | fragmentedControl : f.IsData → f.fin = true → Took s readLimit f (.error .fragmentedControl)
  | message : f.IsData → f.fin = true →
      Took s readLimit f (.message (s.opcodeWith f) (s.buf ++ f.data))
  | more : f.IsData → f.fin = false →
      Took s readLimit f (.again ⟨s.opcodeWith f, s.buf ++ f.data⟩)

/-- **Everything `ReadMessage` can do with a frame.** -/
theorem Partial.took (s : Partial) (readLimit : GoInt) (f : Frame) :
    s.Took readLimit f (s.next readLimit f) := by
  by_cases hping : f.opcode = opcodePing
  · rw [Partial.next, if_pos hping]
    exact .ping hping
  by_cases hpong : f.opcode = opcodePong
  · rw [Partial.next, if_neg hping, if_pos hpong]
    exact .pong hpong
  by_cases hclose : f.opcode = opcodeClose
  · rw [Partial.next, if_neg hping, if_neg hpong, if_pos hclose]
    exact .close hclose
  have hdata : f.IsData := ⟨hping, hpong, hclose⟩
  rw [Partial.next, if_neg hping, if_neg hpong, if_neg hclose]
  by_cases hop : s.msgOpcode ≠ 0 ∧ f.opcode ≠ opcodeContinuation
  · rw [if_pos hop]
    exact .unexpected hdata hop.1 hop.2
  rw [if_neg hop]
  by_cases hlimit : 0 < readLimit.1 ∧ readLimit.1 < (s.buf ++ f.data).length
  · rw [if_pos hlimit]
    exact .limit hdata
  rw [if_neg hlimit]
  cases hfin : f.fin with
  | false => exact .more hdata hfin
  | true =>
      by_cases hmsg : s.opcodeWith f ≠ opcodeText ∧ s.opcodeWith f ≠ opcodeBinary
      · rw [if_pos rfl, show (if s.msgOpcode = 0 then f.opcode else s.msgOpcode) =
          s.opcodeWith f from rfl, if_pos hmsg]
        exact .fragmentedControl hdata hfin
      · rw [if_pos rfl, show (if s.msgOpcode = 0 then f.opcode else s.msgOpcode) =
          s.opcodeWith f from rfl, if_neg hmsg]
        exact .message hdata hfin

/-- What `ReadMessage` returns. -/
inductive Outcome where
  | message (opcode : ℕ) (payload : Bytes)
  | halt (h : Halt)
  deriving DecidableEq

/-- The loop of `ReadMessage`. -/
def readLoop (maxAlloc : ℕ) (readLimit : GoInt) (s : Partial) (c : Conn) : Outcome × Conn :=
  match hread : readFrame maxAlloc c.input with
  | (.error e, rest) => (.halt e, c.after rest)
  | (.ok f, rest) =>
      have hlt : rest.length < c.input.length := takes_readFrame maxAlloc _ _ _ hread
      match s.next readLimit f with
      | .again s => readLoop maxAlloc readLimit s (c.after rest)
      | .pong data =>
          match (c.after rest).writeFrame true opcodePong data,
              (c.after rest).writeFrame_input true opcodePong data with
          | (false, d), _ => (.halt (.error .write), d)
          | (true, d), hinput =>
              have : d.input.length < c.input.length := hinput ▸ hlt
              readLoop maxAlloc readLimit s d
      | .close => (.halt (.error .eof), ((c.after rest).writeFrame true opcodeClose []).2)
      | .message opcode payload => (.message opcode payload, c.after rest)
      | .error e => (.halt (.error e), c.after rest)
termination_by c.input.length
decreasing_by all_goals assumption

section readLoop

variable {maxAlloc : ℕ} {readLimit : GoInt} {s : Partial} {c : Conn} {rest : Feed UInt8}

/-- A frame that fails ends the loop with its error. -/
theorem readLoop_of_error {e : Halt} (hread : readFrame maxAlloc c.input = (.error e, rest)) :
    readLoop maxAlloc readLimit s c = (.halt e, c.after rest) := by
  rw [readLoop]
  split
  · rename_i h
    cases hread.symm.trans h
    rfl
  · rename_i h
    cases hread.symm.trans h

/-- One turn of the loop. -/
theorem readLoop_of_ok {f : Frame} (hread : readFrame maxAlloc c.input = (.ok f, rest)) :
    readLoop maxAlloc readLimit s c =
      match s.next readLimit f with
      | .again s => readLoop maxAlloc readLimit s (c.after rest)
      | .pong data =>
          match (c.after rest).writeFrame true opcodePong data with
          | (false, d) => (.halt (.error .write), d)
          | (true, d) => readLoop maxAlloc readLimit s d
      | .close => (.halt (.error .eof), ((c.after rest).writeFrame true opcodeClose []).2)
      | .message opcode payload => (.message opcode payload, c.after rest)
      | .error e => (.halt (.error e), c.after rest) := by
  rw [readLoop]
  split
  · rename_i h
    cases hread.symm.trans h
  · rename_i h
    cases hread.symm.trans h
    cases s.next readLimit f with
    | pong data =>
        dsimp only
        split
        · rename_i d _ hd _
          rw [hd]
        · rename_i d _ hd _
          rw [hd]
    | _ => rfl

variable {f : Frame} (hread : readFrame maxAlloc c.input = (.ok f, rest))

include hread

/-- A frame that ends nothing sends the loop round with what it collected. -/
theorem readLoop_again {s' : Partial} (hnext : s.next readLimit f = .again s') :
    readLoop maxAlloc readLimit s c = readLoop maxAlloc readLimit s' (c.after rest) := by
  rw [readLoop_of_ok hread, hnext]

/-- A ping whose answer cannot be written ends the loop. -/
theorem readLoop_pong_failed {data : Bytes} {d : Conn} (hnext : s.next readLimit f = .pong data)
    (hwrite : (c.after rest).writeFrame true opcodePong data = (false, d)) :
    readLoop maxAlloc readLimit s c = (.halt (.error .write), d) := by
  rw [readLoop_of_ok hread, hnext]
  dsimp only
  rw [hwrite]

/-- A ping that is answered sends the loop round. -/
theorem readLoop_pong {data : Bytes} {d : Conn} (hnext : s.next readLimit f = .pong data)
    (hwrite : (c.after rest).writeFrame true opcodePong data = (true, d)) :
    readLoop maxAlloc readLimit s c = readLoop maxAlloc readLimit s d := by
  rw [readLoop_of_ok hread, hnext]
  dsimp only
  rw [hwrite]

/-- A close frame is answered and ends the loop with EOF, whether or not the answer goes out. -/
theorem readLoop_close (hnext : s.next readLimit f = .close) :
    readLoop maxAlloc readLimit s c =
      (.halt (.error .eof), ((c.after rest).writeFrame true opcodeClose []).2) := by
  rw [readLoop_of_ok hread, hnext]

/-- A frame that completes a message ends the loop with it. -/
theorem readLoop_message {opcode : ℕ} {payload : Bytes}
    (hnext : s.next readLimit f = .message opcode payload) :
    readLoop maxAlloc readLimit s c = (.message opcode payload, c.after rest) := by
  rw [readLoop_of_ok hread, hnext]

/-- A frame that breaks the rules ends the loop with its error. -/
theorem readLoop_failed {e : ReadError} (hnext : s.next readLimit f = .error e) :
    readLoop maxAlloc readLimit s c = (.halt (.error e), c.after rest) := by
  rw [readLoop_of_ok hread, hnext]

end readLoop

/-- `ReadMessage`. -/
def readMessage (maxAlloc : ℕ) (readLimit : GoInt) (c : Conn) : Outcome × Conn :=
  readLoop maxAlloc readLimit .fresh c

end NativeWS
end GoSocket
