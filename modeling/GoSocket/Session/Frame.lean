/-
# Frames and their sequence numbers

`stamp`, `sessionFrame` and the resume refusal reasons of
`internal/session.go`, and the frame a peer reads.

A reliable frame goes out as `{"seq":N, …}`: `stamp` splices the number in
front of the members of a JSON object that was marshalled once and is shared
by all recipients.  The documented client algorithm (`docs/RECOVERY.md`) needs
only `frame.seq`, which `frameSeq` reads off the front of the frame, where the
server puts it.  Frames that reach `deliver` are `json.Marshal` of a
`ServerWireMessage` whose `Seq` no sender sets (`types.go`), so they are
objects without a number of their own: `IsEvent`.  On those, `frameSeq` finds
exactly the number `stamp` put there (`frameSeq_stamp`), and none in the
`$session` control frame (`frameSeq_sessionFrame`).
-/

import GoSocket.Lib.Decimal

namespace GoSocket

open Lib

/-- `ReasonUnknownSession` … `ReasonBadRequest`. -/
inductive Reason where
  | unknownSession
  | expired
  | ownerMismatch
  | gap
  | badSeq
  | badRequest
  deriving DecidableEq, Repr

/-- The constant as it appears in the `$session` frame. -/
def Reason.text : Reason → String
  | .unknownSession => "unknown_session"
  | .expired => "expired"
  | .ownerMismatch => "owner_mismatch"
  | .gap => "gap_exceeded"
  | .badSeq => "bad_seq"
  | .badRequest => "bad_request"

/-- `stamp`: splice `"seq"` into a JSON object frame.  A frame that is no
object passes through unchanged. -/
def stamp (data : Bytes) (seq : ℕ) : Bytes :=
  match data with
  | b₀ :: b₁ :: rest =>
      if b₀ ≠ 0x7b then data
      else
        ascii "\x7b\"seq\":" ++ decimal seq ++ (if b₁ ≠ 0x7d then ascii "," else []) ++ b₁ :: rest
  | _ => data

/-- `sessionFrame`: the control frame sent first on every connection with
recovery.  `reason` is omitted when empty.  Session ids are hexadecimal and the
reasons are constants, so no character needs escaping. -/
def sessionFrame (id : String) (resumed : Bool) (replayed lastSeq : ℕ) (reason : Option Reason) :
    Bytes :=
  ascii "\x7b\"event\":\"$session\",\"payload\":\x7b\"sessionId\":\"" ++ ascii id ++
    ascii "\",\"resumed\":" ++ ascii (if resumed then "true" else "false") ++
    ascii ",\"replayed\":" ++ decimal replayed ++
    ascii ",\"lastSeq\":" ++ decimal lastSeq ++
    (match reason with
      | none => []
      | some r => ascii ",\"reason\":\"" ++ ascii r.text ++ ascii "\"") ++
    ascii "\x7d\x7d"

/-- `ServerWireMessage`, each field as `encoding/json` encodes it; the fields
marked `omitempty` are `none` when empty. -/
structure ServerWireMessage where
  event : Bytes
  payload : Bytes
  ackID : Option Bytes
  seq : Option ℕ
  idempotencyKey : Option Bytes

/-- `json.Marshal` of a `ServerWireMessage`: the members in field order. -/
def ServerWireMessage.marshal (msg : ServerWireMessage) : Bytes :=
  ascii "\x7b\"event\":" ++ msg.event ++ ascii ",\"payload\":" ++ msg.payload ++
    (msg.ackID.elim [] fun v => ascii ",\"ackId\":" ++ v) ++
    (msg.seq.elim [] fun n => ascii ",\"seq\":" ++ decimal n) ++
    (msg.idempotencyKey.elim [] fun v => ascii ",\"idempotencyKey\":" ++ v) ++
    ascii "\x7d"

/-- `frame.seq` as the peer reads it: the number the frame starts with, `none`
for a frame without one. -/
def frameSeq (frame : Bytes) : Option ℕ :=
  if (ascii "\x7b\"seq\":").isPrefixOf frame then some (readDecimal (frame.drop 7)) else none

/-- A frame as senders hand it to `deliver`: a JSON object that carries no
sequence number of its own. -/
structure IsEvent (data : Bytes) : Prop where
  object : data.head? = some 0x7b
  two : 2 ≤ data.length
  unnumbered : frameSeq data = none

instance (data : Bytes) : Decidable (IsEvent data) :=
  decidable_of_iff (data.head? = some 0x7b ∧ 2 ≤ data.length ∧ frameSeq data = none)
    ⟨fun h => ⟨h.1, h.2.1, h.2.2⟩, fun h => ⟨h.object, h.two, h.unnumbered⟩⟩

/-- A frame that starts with another member is not numbered. -/
theorem frameSeq_event (rest : Bytes) : frameSeq (ascii "\x7b\"event\":" ++ rest) = none := by
  have : (ascii "\x7b\"seq\":").isPrefixOf (ascii "\x7b\"event\":" ++ rest) = false := rfl
  simp [frameSeq, this]

/-- The control frame carries no sequence number: it is never replayed. -/
@[simp] theorem frameSeq_sessionFrame (id : String) (resumed : Bool) (replayed lastSeq : ℕ)
    (reason : Option Reason) :
    frameSeq (sessionFrame id resumed replayed lastSeq reason) = none := rfl

/-- What the emit functions marshal is an event frame. -/
theorem ServerWireMessage.isEvent_marshal (msg : ServerWireMessage) : IsEvent msg.marshal where
  object := rfl
  two := by simp [ServerWireMessage.marshal, ascii]
  unnumbered := by
    simp only [ServerWireMessage.marshal, List.append_assoc]
    exact frameSeq_event _

/-- An object frame is a brace and at least one more byte. -/
theorem IsEvent.eq_cons {data : Bytes} (h : IsEvent data) :
    ∃ b rest, data = 0x7b :: b :: rest := by
  obtain ⟨hobj, htwo, -⟩ := h
  match data, hobj, htwo with
  | b₀ :: b :: rest, hobj, _ =>
      obtain rfl : b₀ = 0x7b := by simpa using hobj
      exact ⟨b, rest, rfl⟩

/-- **The peer reads the number the server stamped.** -/
theorem frameSeq_stamp {data : Bytes} (h : IsEvent data) (seq : ℕ) :
    frameSeq (stamp data seq) = some seq := by
  obtain ⟨b, rest, rfl⟩ := h.eq_cons
  have hcomma : isDigit 0x2c = false := by decide
  -- the numeral ends at the comma, or at the brace that closes an empty object
  obtain ⟨c, tail, hc, hshape⟩ : ∃ c tail, isDigit c = false ∧
      (if b ≠ 0x7d then ascii "," else []) ++ b :: rest = c :: tail := by
    by_cases hb : b = 0x7d
    · exact ⟨b, rest, by rw [hb]; decide, by simp [hb]⟩
    · exact ⟨0x2c, b :: rest, hcomma, by simp [hb]; rfl⟩
  have hstamp : stamp (0x7b :: b :: rest) seq =
      ascii "\x7b\"seq\":" ++ (decimal seq ++ c :: tail) := by
    rw [← hshape]
    simp [stamp]
  have hprefix :
      (ascii "\x7b\"seq\":").isPrefixOf (ascii "\x7b\"seq\":" ++ (decimal seq ++ c :: tail)) :=
    List.isPrefixOf_iff_prefix.2 (List.prefix_append ..)
  have hdrop : (ascii "\x7b\"seq\":" ++ (decimal seq ++ c :: tail)).drop 7 =
      decimal seq ++ c :: tail := rfl
  rw [hstamp, frameSeq, if_pos hprefix, hdrop, readDecimal_decimal_append seq hc]

example : stamp (ascii "\x7b\"a\":1\x7d") 7 = ascii "\x7b\"seq\":7,\"a\":1\x7d" ∧
    stamp (ascii "\x7b\x7d") 7 = ascii "\x7b\"seq\":7\x7d" ∧
    stamp (ascii "[1]") 7 = ascii "[1]" ∧ stamp (ascii "x") 7 = ascii "x" := by decide

end GoSocket
