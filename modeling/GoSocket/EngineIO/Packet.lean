/-
# Engine.IO packets

The codec of `internal/engineio`: a packet is a type and its payload, and it is
written as one digit followed by the payload (`packet.go`).  Several packets are
one HTTP body or one WebSocket frame when they are joined by the record separator
(`batch.go`); a payload is not escaped.

`PacketType` is an `int` in the source, so there are values beyond the seven
kinds; they cannot be encoded and no digit stands for them.

`decode_encode` is what the transports use: a queued wire is read back as the
packet it was made from, so that what sits in an outbox can be told by its kind
(`messageOf`).
-/

import GoSocket.Lib.Decimal
import Mathlib.Data.Int.Notation

namespace GoSocket

open Lib

namespace EngineIO

/-- `PacketType`; `other` is an `int` that is none of the kinds. -/
inductive PacketType where
  | «open»
  | close
  | ping
  | pong
  | message
  | upgrade
  | noop
  | other (n : {n : ℤ // n < 0 ∨ 6 < n})
  deriving DecidableEq

/-- A single Engine.IO frame. -/
structure Packet where
  type : PacketType
  data : Bytes
  deriving DecidableEq

/-- The errors of the codec. -/
inductive PacketError where
  /-- `engineio: invalid packet type %d`, from `Encode`. -/
  | invalidType (n : ℤ)
  /-- `ErrEmptyPacket`. -/
  | emptyPacket
  /-- `engineio: invalid packet type %q`, from `Decode`. -/
  | invalidDigit (digit : UInt8)
  /-- `engineio: decode batch segment: %w`. -/
  | segment (e : PacketError)
  deriving DecidableEq

/-- The digit of a type, if it is one of the kinds. -/
def PacketType.digit : PacketType → Except PacketError UInt8
  | .open => .ok 48
  | .close => .ok 49
  | .ping => .ok 50
  | .pong => .ok 51
  | .message => .ok 52
  | .upgrade => .ok 53
  | .noop => .ok 54
  | .other n => .error (.invalidType n)

/-- The type a digit names. -/
def PacketType.ofDigit : UInt8 → Except PacketError PacketType
  | 48 => .ok .open
  | 49 => .ok .close
  | 50 => .ok .ping
  | 51 => .ok .pong
  | 52 => .ok .message
  | 53 => .ok .upgrade
  | 54 => .ok .noop
  | digit => .error (.invalidDigit digit)

/-- `Encode`. -/
def encode (p : Packet) : Except PacketError Bytes :=
  p.type.digit.map fun digit => digit :: p.data

/-- `Decode`. -/
def decode : Bytes → Except PacketError Packet
  | [] => .error .emptyPacket
  | digit :: data => (PacketType.ofDigit digit).map fun type => ⟨type, data⟩

/-- `RecordSeparator`. -/
def recordSeparator : UInt8 := 0x1e

/-- Wires joined by the record separator. -/
def joinWires (wires : List Bytes) : Bytes := [recordSeparator].intercalate wires

/-- `EncodeBatch`. -/
def encodeBatch (packets : List Packet) : Except PacketError Bytes :=
  (packets.mapM encode).map joinWires

/-- `DecodeBatch`: empty segments are skipped. -/
def decodeBatch (body : Bytes) : Except PacketError (List Packet) :=
  ((body.splitOn recordSeparator).filter (· ≠ [])).mapM fun part => (decode part).mapError .segment

/-- `IsProbe`. -/
def isProbe (data : Bytes) : Bool := data = ascii "probe"

/-- The packet of a kind that `Encode` accepts. -/
def wire (type : PacketType) (data : Bytes) : Bytes :=
  match encode ⟨type, data⟩ with
  | .ok bytes => bytes
  | .error _ => []

/-- A packet type is read back from its digit. -/
theorem ofDigit_digit {type : PacketType} {digit : UInt8} (h : type.digit = .ok digit) :
    PacketType.ofDigit digit = .ok type := by
  cases type with
  | other n => cases h
  | _ =>
      obtain rfl := Except.ok.inj h
      rfl

/-- **`Decode` undoes `Encode`.** -/
theorem decode_encode {p : Packet} {bytes : Bytes} (h : encode p = .ok bytes) :
    decode bytes = .ok p := by
  unfold encode at h
  cases hd : p.type.digit with
  | error e =>
      rw [hd] at h
      cases h
  | ok digit =>
      rw [hd] at h
      obtain rfl := Except.ok.inj h
      rw [decode, ofDigit_digit hd]
      rfl

/-- The payload of a wire, if it is a message. -/
def messageOf (bytes : Bytes) : Option Bytes :=
  match decode bytes with
  | .ok ⟨.message, data⟩ => some data
  | _ => none

end EngineIO
end GoSocket
