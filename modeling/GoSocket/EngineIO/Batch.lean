/-
# Batches of packets

Three writers join packets with the record separator: `EncodeBatch` (`batch.go`) for
a polling body, `writeEIOBatch` (`eio_ws_transport.go`) for a WebSocket frame, and
`collectBatch` (`polling_transport.go`), which joins the wires it finds in the outbox
of a transport.  `DecodeBatch` is the one reader; it skips empty segments.

A payload is not escaped, so a batch is read back as it was written only if no payload
holds a separator.  JSON text has none.
-/

import GoSocket.EngineIO.Packet
import GoSocket.Lib.Delimited

namespace GoSocket

open Lib

namespace EngineIO

/-- `valid`. -/
def PacketType.valid : PacketType → Bool
  | .other _ => false
  | _ => true

/-- The loop of `writeEIOBatch`. -/
def writeEIOBatchLoop (i : ℕ) (buf : Bytes) : List Packet → Except PacketError Bytes
  | [] => .ok buf
  | p :: packets =>
      match encode p with
      | .error e => .error e
      | .ok wire =>
          let buf := if i > 0 then buf ++ [recordSeparator] else buf
          writeEIOBatchLoop (i + 1) (buf ++ wire) packets

/-- `writeEIOBatch`. -/
def writeEIOBatch (packets : List Packet) : Except PacketError Bytes :=
  if packets.length = 0 then .ok [] else writeEIOBatchLoop 0 [] packets

/-- `collectBatch`: `outbox` is what can be received without waiting. -/
def collectBatch (first : Bytes) (outbox : List Bytes) : Bytes :=
  outbox.foldl (fun buf wire => buf ++ recordSeparator :: wire) first

/-- A body without its empty segments. -/
def withoutEmpty (body : Bytes) : Bytes := joinWires (segments recordSeparator body)

/-- A valid packet type has a digit. -/
theorem exists_digit {type : PacketType} (h : type.valid = true) :
    ∃ digit, type.digit = .ok digit := by
  cases type with
  | other n => cases h
  | _ => exact ⟨_, rfl⟩

/-- No digit is the separator. -/
theorem digit_ne_recordSeparator {type : PacketType} {digit : UInt8}
    (h : type.digit = .ok digit) : digit ≠ recordSeparator := by
  cases type with
  | other n => cases h
  | _ =>
      obtain rfl := Except.ok.inj h
      decide

/-- A digit that is read as a packet type is the type's digit. -/
theorem digit_ofDigit {digit : UInt8} {type : PacketType}
    (h : PacketType.ofDigit digit = .ok type) : type.digit = .ok digit := by
  unfold PacketType.ofDigit at h
  split at h
  all_goals
    first
    | obtain rfl := Except.ok.inj h
      rfl
    | cases h

/-- The digits `Decode` knows. -/
theorem ofDigit_isOk {digit : UInt8} :
    (∃ type, PacketType.ofDigit digit = .ok type) ↔ 48 ≤ digit ∧ digit ≤ 54 := by
  constructor
  · rintro ⟨type, h⟩
    unfold PacketType.ofDigit at h
    split at h
    all_goals
      first
      | decide
      | cases h
  · rintro ⟨hlo, hhi⟩
    have hcases : digit = 48 ∨ digit = 49 ∨ digit = 50 ∨ digit = 51 ∨ digit = 52 ∨ digit = 53 ∨
        digit = 54 := by
      simp only [UInt8.le_iff_toNat_le, ← UInt8.toNat_inj] at hlo hhi ⊢
      simp only [UInt8.reduceToNat] at hlo hhi ⊢
      omega
    rcases hcases with rfl | rfl | rfl | rfl | rfl | rfl | rfl <;> exact ⟨_, rfl⟩

/-- A wire is its digit and its payload. -/
theorem encode_eq_ok {p : Packet} {bytes : Bytes} :
    encode p = .ok bytes ↔ ∃ digit, p.type.digit = .ok digit ∧ bytes = digit :: p.data := by
  unfold encode
  cases hd : p.type.digit with
  | error e => simp [Except.map]
  | ok digit => simp [Except.map, eq_comm]

/-- **`Encode` undoes `Decode`.** -/
theorem encode_decode {bytes : Bytes} {p : Packet} (h : decode bytes = .ok p) :
    encode p = .ok bytes := by
  cases bytes with
  | nil => cases h
  | cons digit data =>
      rw [decode] at h
      cases ht : PacketType.ofDigit digit with
      | error e =>
          rw [ht] at h
          cases h
      | ok type =>
          rw [ht] at h
          obtain rfl := Except.ok.inj h
          exact encode_eq_ok.2 ⟨digit, digit_ofDigit ht, rfl⟩

/-- A segment is decoded as its packet, or its error is wrapped. -/
theorem mapError_decode {part : Bytes} {p : Packet} :
    (decode part).mapError PacketError.segment = .ok p ↔ decode part = .ok p := by
  cases decode part <;> simp [Except.mapError]

section roundTrip

variable {packets : List Packet} {body : Bytes}

/-- A batch is encoded when each packet is, and then is the wires joined. -/
theorem encodeBatch_eq_ok :
    encodeBatch packets = .ok body ↔
      ∃ wires, packets.mapM encode = .ok wires ∧ body = joinWires wires := by
  unfold encodeBatch
  cases packets.mapM encode with
  | error e => simp [Except.map]
  | ok wires => simp [Except.map, eq_comm]

/-- A body is decoded when each segment of it is. -/
theorem decodeBatch_eq_ok :
    decodeBatch body = .ok packets ↔
      List.Forall₂ (fun part p => decode part = .ok p) (segments recordSeparator body) packets := by
  constructor
  · intro h
    exact (forall₂_of_mapM h).imp fun _ _ hp => mapError_decode.1 hp
  · intro h
    exact mapM_of_forall₂ (h.imp fun _ _ hp => mapError_decode.2 hp)

/-- The packets of a batch that can be written. -/
theorem exists_wires (h : ∀ p ∈ packets, p.type.valid = true) :
    ∃ wires, List.Forall₂ (fun p bytes => encode p = .ok bytes) packets wires := by
  induction packets with
  | nil => exact ⟨[], .nil⟩
  | cons p packets ih =>
      obtain ⟨digit, hdigit⟩ := exists_digit (h p (List.mem_cons_self ..))
      obtain ⟨wires, hwires⟩ := ih fun q hq => h q (List.mem_cons_of_mem _ hq)
      exact ⟨_, .cons (encode_eq_ok.2 ⟨digit, hdigit, rfl⟩) hwires⟩

/-- Wires have a digit, and no separator unless their payload has one. -/
theorem wires_clean {wires : List Bytes}
    (hwires : List.Forall₂ (fun p bytes => encode p = .ok bytes) packets wires)
    (hsep : ∀ p ∈ packets, recordSeparator ∉ p.data) :
    ∀ bytes ∈ wires, recordSeparator ∉ bytes ∧ bytes ≠ [] := by
  induction hwires with
  | nil => simp
  | cons hp _ ih =>
      obtain ⟨digit, hdigit, rfl⟩ := encode_eq_ok.1 hp
      rw [List.forall_mem_cons] at hsep ⊢
      refine ⟨⟨?_, List.cons_ne_nil _ _⟩, ih hsep.2⟩
      rw [List.mem_cons, not_or]
      exact ⟨(digit_ne_recordSeparator hdigit).symm, hsep.1⟩

/-- Wires that are joined are read back as their packets. -/
theorem decodeBatch_joinWires {wires : List Bytes}
    (hwires : List.Forall₂ (fun p bytes => encode p = .ok bytes) packets wires)
    (hsep : ∀ p ∈ packets, recordSeparator ∉ p.data) :
    decodeBatch (joinWires wires) = .ok packets := by
  have hclean := wires_clean hwires hsep
  rw [decodeBatch_eq_ok, joinWires, segments_intercalate _ (fun r hr => (hclean r hr).1)
    fun r hr => (hclean r hr).2]
  exact hwires.flip.imp fun _ _ hp => decode_encode hp

/-- **`DecodeBatch` undoes `EncodeBatch`** when no payload holds a separator. -/
theorem decodeBatch_encodeBatch (hvalid : ∀ p ∈ packets, p.type.valid = true)
    (hsep : ∀ p ∈ packets, recordSeparator ∉ p.data) :
    ∃ body, encodeBatch packets = .ok body ∧ decodeBatch body = .ok packets := by
  obtain ⟨wires, hwires⟩ := exists_wires hvalid
  exact ⟨joinWires wires, encodeBatch_eq_ok.2 ⟨wires, mapM_of_forall₂ hwires, rfl⟩,
    decodeBatch_joinWires hwires hsep⟩

/-- **`EncodeBatch` undoes `DecodeBatch`** up to empty segments. -/
theorem encodeBatch_decodeBatch (h : decodeBatch body = .ok packets) :
    encodeBatch packets = .ok (withoutEmpty body) := by
  have hwires := (decodeBatch_eq_ok.1 h).imp fun _ _ hp => encode_decode hp
  exact encodeBatch_eq_ok.2 ⟨_, mapM_of_forall₂ hwires.flip, rfl⟩

/-- **What `DecodeBatch` accepts.** -/
theorem decodeBatch_isOk :
    (∃ packets, decodeBatch body = .ok packets) ↔
      ∀ part ∈ body.splitOn recordSeparator, part ≠ [] →
        ∃ digit, part.head? = some digit ∧ 48 ≤ digit ∧ digit ≤ 54 := by
  have hpart : ∀ part : Bytes, (∃ p, decode part = .ok p) ↔
      ∃ digit, part.head? = some digit ∧ 48 ≤ digit ∧ digit ≤ 54 := by
    intro part
    cases part with
    | nil => simp [decode]
    | cons digit data =>
        simp only [List.head?_cons, Option.some.injEq, exists_eq_left', ← ofDigit_isOk, decode]
        cases PacketType.ofDigit digit <;> simp [Except.map]
  have hall : ∀ parts : List Bytes,
      (∃ packets, List.Forall₂ (fun part p => decode part = .ok p) parts packets) ↔
        ∀ part ∈ parts, ∃ p, decode part = .ok p := by
    intro parts
    induction parts with
    | nil => simp
    | cons part parts ih =>
        rw [List.forall_mem_cons, ← ih]
        simp only [List.forall₂_cons_left_iff]
        constructor
        · rintro ⟨_, p, packets, hp, hrest, rfl⟩
          exact ⟨⟨p, hp⟩, packets, hrest⟩
        · rintro ⟨⟨p, hp⟩, packets, hrest⟩
          exact ⟨_, p, packets, hp, hrest, rfl⟩
  simp only [decodeBatch_eq_ok, hall, hpart, mem_segments, and_imp]

end roundTrip

section writers

/-- What the loop of `writeEIOBatch` adds after the first packet. -/
theorem writeEIOBatchLoop_pos (packets : List Packet) {i : ℕ} (hi : 0 < i) (buf : Bytes) :
    writeEIOBatchLoop i buf packets = (packets.mapM encode).map (collectBatch buf) := by
  induction packets generalizing i buf with
  | nil => rfl
  | cons p packets ih =>
      rw [List.mapM_cons]
      unfold writeEIOBatchLoop
      cases hp : encode p with
      | error e => rfl
      | ok wire =>
          dsimp only
          rw [if_pos hi, ih (Nat.succ_pos i), List.append_assoc, List.singleton_append]
          cases packets.mapM encode <;> rfl

/-- What a poll collects is the wires joined. -/
theorem collectBatch_eq (first : Bytes) (outbox : List Bytes) :
    collectBatch first outbox = joinWires (first :: outbox) :=
  foldl_append_sep recordSeparator first outbox

/-- **The two batch encoders agree**, errors included. -/
theorem writeEIOBatch_eq (packets : List Packet) : writeEIOBatch packets = encodeBatch packets := by
  cases packets with
  | nil => rfl
  | cons p packets =>
      unfold writeEIOBatch encodeBatch writeEIOBatchLoop
      rw [if_neg (by simp), List.mapM_cons]
      cases hp : encode p with
      | error e => rfl
      | ok wire =>
          dsimp only
          rw [if_neg (by omega), List.nil_append, writeEIOBatchLoop_pos packets (Nat.succ_pos 0)]
          cases packets.mapM encode with
          | error e => rfl
          | ok wires => exact congrArg Except.ok (collectBatch_eq wire wires)

end writers

/-- **The batch codec.**  A batch whose payloads hold no separator is read back; what is
read from a body is written as that body without its empty segments; a body is accepted
when each of its segments that is not empty starts with one of the seven digits; and the
three writers write the same bytes. -/
theorem batch_codec (packets : List Packet) (body : Bytes) :
    ((∀ p ∈ packets, p.type.valid = true ∧ recordSeparator ∉ p.data) →
      ∃ bytes, encodeBatch packets = .ok bytes ∧ decodeBatch bytes = .ok packets) ∧
    (decodeBatch body = .ok packets → encodeBatch packets = .ok (withoutEmpty body)) ∧
    ((∃ read, decodeBatch body = .ok read) ↔
      ∀ part ∈ body.splitOn recordSeparator, part ≠ [] →
        ∃ digit, part.head? = some digit ∧ 48 ≤ digit ∧ digit ≤ 54) ∧
    writeEIOBatch packets = encodeBatch packets ∧
    ∀ first outbox, packets.mapM encode = .ok (first :: outbox) →
      encodeBatch packets = .ok (collectBatch first outbox) := by
  refine ⟨?_, encodeBatch_decodeBatch, decodeBatch_isOk, writeEIOBatch_eq packets, ?_⟩
  · intro h
    exact decodeBatch_encodeBatch (fun p hp => (h p hp).1) fun p hp => (h p hp).2
  · intro first outbox h
    exact encodeBatch_eq_ok.2 ⟨_, h, collectBatch_eq first outbox⟩

/-- A message and a ping, and a body with empty segments around them. -/
theorem batch_codec_message_ping :
    (∃ bytes, encodeBatch [⟨.message, ascii "hi"⟩, ⟨.ping, []⟩] = .ok bytes ∧
      decodeBatch bytes = .ok [⟨.message, ascii "hi"⟩, ⟨.ping, []⟩]) ∧
    encodeBatch [⟨.message, ascii "hi"⟩, ⟨.ping, []⟩] =
      .ok (withoutEmpty ([0x1e] ++ ascii "4hi" ++ [0x1e, 0x1e] ++ ascii "2" ++ [0x1e])) ∧
    encodeBatch [⟨.message, ascii "hi"⟩, ⟨.ping, []⟩] =
      .ok (collectBatch (ascii "4hi") [ascii "2"]) := by
  obtain ⟨hread, hwrite, -, -, hcollect⟩ := batch_codec [⟨.message, ascii "hi"⟩, ⟨.ping, []⟩]
    ([0x1e] ++ ascii "4hi" ++ [0x1e, 0x1e] ++ ascii "2" ++ [0x1e])
  exact ⟨hread (by decide +kernel), hwrite (by decide +kernel),
    hcollect (ascii "4hi") [ascii "2"] (by decide +kernel)⟩

end EngineIO
end GoSocket
