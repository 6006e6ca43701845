/-
# Socket.IO packets

The text codec of `internal/socketio/packet.go`.  A packet is written as

    <type>[<#attachments>-][<namespace>,][<ackId>]<payload>

and `Decode` scans the parts one after the other; each scan takes the text that is
left and returns what it leaves.  The default namespace `/` is not written, so what
follows it may be taken for a namespace, and a payload that starts with a digit is
taken for an ack id.

`decode_encode_iff` says exactly which packets are read back, `reencode_iff` exactly
which texts `Decode` turns into such a packet.

A Go string is a byte string here.  A nil payload is the empty one.
-/

import GoSocket.Lib.Decimal
import Mathlib.Data.Int.Notation

namespace GoSocket

open Lib

namespace SocketIO

/-- `PacketType`; `other` is an `int` that is none of the kinds. -/
inductive PacketType where
  | connect
  | disconnect
  | event
  | ack
  | connectError
  | binaryEvent
  | binaryAck
  | other (n : {n : ℤ // n < 0 ∨ 6 < n})
  deriving DecidableEq

/-- The errors of the codec. -/
inductive PacketError where
  /-- `socketio: invalid packet type %d`, from `Encode`. -/
  | invalidType (n : ℤ)
  /-- `socketio: attachments set on a non-binary packet`. -/
  | attachmentsSet
  /-- `socketio: negative attachment count`. -/
  | negativeCount
  /-- `socketio: namespace %q must start with '/'`. -/
  | badNamespace (ns : Bytes)
  /-- `ErrEmptyPacket`. -/
  | emptyPacket
  /-- `socketio: invalid packet type %q`, from `Decode`. -/
  | invalidDigit (digit : UInt8)
  /-- `socketio: malformed binary attachment header`. -/
  | malformedHeader
  /-- `socketio: bad attachment count: %w`. -/
  | badCount
  /-- `socketio: bad ack id: %w`. -/
  | badAckID
  deriving DecidableEq

namespace PacketType

/-- The digit of a type, if it is `valid`. -/
def digit : PacketType → Except PacketError UInt8
  | connect => .ok 48
  | disconnect => .ok 49
  | event => .ok 50
  | ack => .ok 51
  | connectError => .ok 52
  | binaryEvent => .ok 53
  | binaryAck => .ok 54
  | other n => .error (.invalidType n)

/-- The type a digit names. -/
def ofDigit : UInt8 → Except PacketError PacketType
  | 48 => .ok connect
  | 49 => .ok disconnect
  | 50 => .ok event
  | 51 => .ok ack
  | 52 => .ok connectError
  | 53 => .ok binaryEvent
  | 54 => .ok binaryAck
  | digit => .error (.invalidDigit digit)

def isBinary (t : PacketType) : Bool := t = binaryEvent ∨ t = binaryAck

/-- A packet type is read back from its digit. -/
theorem ofDigit_digit {t : PacketType} {b : UInt8} (h : t.digit = .ok b) : ofDigit b = .ok t := by
  cases t with
  | other n => cases h
  | _ =>
      obtain rfl := Except.ok.inj h
      rfl

/-- A digit that is read as a packet type is the type's digit. -/
theorem digit_ofDigit {b : UInt8} {t : PacketType} (h : ofDigit b = .ok t) : t.digit = .ok b := by
  unfold ofDigit at h
  split at h
  all_goals
    first
    | obtain rfl := Except.ok.inj h
      rfl
    | cases h

end PacketType

/-- A Socket.IO frame. -/
structure Packet where
  type : PacketType
  /-- `Namespace`. -/
  ns : Bytes
  ackID : Option GoInt
  data : Bytes
  attachments : GoInt
  deriving DecidableEq

/-- `'/'`. -/
def slash : UInt8 := 47

/-- `','`. -/
def comma : UInt8 := 44

/-- `'-'`. -/
def hyphen : UInt8 := 45

/-- `defaultNamespace`. -/
def defaultNamespace : Bytes := [slash]

namespace Packet

variable (p : Packet)

/-- The namespace is left off the wire. -/
def IsDefault : Prop := p.ns = [] ∨ p.ns = defaultNamespace

instance : Decidable p.IsDefault := inferInstanceAs (Decidable (_ ∨ _))

/-- The attachment header. -/
def countPart : Bytes := if p.type.isBinary then itoa p.attachments ++ [hyphen] else []

def nsPart : Bytes := if p.IsDefault then [] else p.ns ++ [comma]

def ackPart : Bytes :=
  match p.ackID with
  | some n => itoa n
  | none => []

end Packet

/-- `Encode`. -/
def encode (p : Packet) : Except PacketError Bytes :=
  match p.type.digit with
  | .error e => .error e
  | .ok digit =>
      if p.type.isBinary = false ∧ p.attachments.1 ≠ 0 then .error .attachmentsSet
      else if p.type.isBinary = true ∧ p.attachments.1 < 0 then .error .negativeCount
      else if ¬ p.IsDefault ∧ p.ns.head? ≠ some slash then .error (.badNamespace p.ns)
      else .ok (digit :: (p.countPart ++ (p.nsPart ++ (p.ackPart ++ p.data))))

/-- The attachment header of a binary packet. -/
def readCount (type : PacketType) (raw : Bytes) : Except PacketError (GoInt × Bytes) :=
  if type.isBinary then
    let digits := raw.takeWhile isDigit
    let rest := raw.dropWhile isDigit
    if digits = [] ∨ rest.head? ≠ some hyphen then .error .malformedHeader
    else
      match atoi digits with
      | none => .error .badCount
      | some n => .ok (n, rest.tail)
  else .ok (⟨0, by decide⟩, raw)

/-- A leading `/` marks a namespace that runs until the next comma, or to the end. -/
def readNamespace (raw : Bytes) : Bytes × Bytes :=
  if raw.head? = some slash then
    (raw.takeWhile (· ≠ comma), (raw.dropWhile (· ≠ comma)).tail)
  else (defaultNamespace, raw)

/-- A run of digits is the ack id. -/
def readAckID (raw : Bytes) : Except PacketError (Option GoInt × Bytes) :=
  let digits := raw.takeWhile isDigit
  if digits = [] then .ok (none, raw)
  else
    match atoi digits with
    | none => .error .badAckID
    | some n => .ok (some n, raw.dropWhile isDigit)

/-- `Decode`. -/
def decode : Bytes → Except PacketError Packet
  | [] => .error .emptyPacket
  | digit :: raw =>
      match PacketType.ofDigit digit with
      | .error e => .error e
      | .ok type =>
          match readCount type raw with
          | .error e => .error e
          | .ok (attachments, raw) =>
              match readAckID (readNamespace raw).2 with
              | .error e => .error e
              | .ok (ackID, data) =>
                  .ok
                    { type := type
                      ns := (readNamespace raw).1
                      ackID := ackID
                      data := data
                      attachments := attachments }

namespace Packet

/-- What `Encode` checks, besides the type. -/
structure Accepted (p : Packet) : Prop where
  noCount : p.type.isBinary = false → p.attachments.1 = 0
  count : p.type.isBinary = true → 0 ≤ p.attachments.1
  ns : p.IsDefault ∨ p.ns.head? = some slash

/-- A packet as `Decode` gives it: the namespace is filled in. -/
def filled (p : Packet) : Packet := { p with ns := if p.ns = [] then defaultNamespace else p.ns }

/-- No part of the wire can be taken for another part. -/
def Unambiguous (p : Packet) : Prop :=
  (p.IsDefault ∨ comma ∉ p.ns) ∧ (∀ n ∈ p.ackID, 0 ≤ n.1) ∧
    (∀ b ∈ p.data.head?, isDigit b = false) ∧
    ¬ (p.IsDefault ∧ p.ackID = none ∧ p.data.head? = some slash)

end Packet

section readers

variable {p : Packet} {raw rest : Bytes}

/-- The attachment count of an accepted packet is read back. -/
theorem readCount_countPart (h : p.Accepted) (rest : Bytes) :
    readCount p.type (p.countPart ++ rest) = .ok (p.attachments, rest) := by
  unfold readCount Packet.countPart
  cases hb : p.type.isBinary with
  | false =>
      have hzero : p.attachments = ⟨0, by decide⟩ := Subtype.ext (h.noCount hb)
      simp [hzero]
  | true =>
      have hcount := h.count hb
      have hend : ∀ b ∈ (hyphen :: rest).head?, isDigit b = false := by simp; decide
      simp only [if_true, itoa_of_nonneg hcount, List.append_assoc, List.singleton_append,
        takeWhile_decimal_append hend, dropWhile_decimal_append hend, List.head?_cons,
        decimal_ne_nil, ne_eq, not_true_eq_false, or_self, if_false, atoi_decimal hcount,
        List.tail_cons]

/-- What a count that was read is. -/
theorem readCount_eq_ok {type : PacketType} {n : GoInt} (h : readCount type raw = .ok (n, rest)) :
    (type.isBinary = false ∧ n.1 = 0 ∧ rest = raw) ∨
      (type.isBinary = true ∧ 0 ≤ n.1 ∧ rest = (raw.dropWhile isDigit).tail) := by
  unfold readCount at h
  cases hb : type.isBinary with
  | false =>
      simp only [hb, Bool.false_eq_true, if_false, Except.ok.injEq, Prod.mk.injEq] at h
      exact Or.inl ⟨rfl, by rw [← h.1], h.2.symm⟩
  | true =>
      simp only [hb, if_true] at h
      split_ifs at h
      cases hn : atoi (raw.takeWhile isDigit) with
      | none =>
          rw [hn] at h
          cases h
      | some m =>
          rw [hn] at h
          obtain ⟨rfl, rfl⟩ := Prod.mk.inj (Except.ok.inj h)
          exact Or.inr ⟨rfl, atoi_nonneg hn, rfl⟩

/-- Without a slash the namespace is the default one. -/
theorem readNamespace_of_ne (h : raw.head? ≠ some slash) :
    readNamespace raw = (defaultNamespace, raw) :=
  if_neg h

/-- A namespace is read up to its comma. -/
theorem readNamespace_append {ns : Bytes} (hslash : ns.head? = some slash) (hcomma : comma ∉ ns)
    (rest : Bytes) :
    readNamespace (ns ++ comma :: rest) = (ns, rest) := by
  have hall : ∀ b ∈ ns, decide (b ≠ comma) = true := by
    intro b hb
    rw [decide_eq_true_eq]
    rintro rfl
    exact hcomma hb
  have hhead : (ns ++ comma :: rest).head? = some slash := by simp [hslash]
  rw [readNamespace, if_pos hhead, List.takeWhile_append_of_pos hall,
    List.dropWhile_append_of_pos hall]
  simp

/-- No namespace that is read has a comma. -/
theorem comma_notMem_readNamespace (raw : Bytes) : comma ∉ (readNamespace raw).1 := by
  unfold readNamespace
  split_ifs
  · intro h
    simpa using List.mem_takeWhile_imp h
  · show comma ∉ defaultNamespace
    decide

/-- Every namespace that is read begins with a slash. -/
theorem head_readNamespace (raw : Bytes) : (readNamespace raw).1.head? = some slash := by
  unfold readNamespace
  split_ifs with h
  · cases raw with
    | nil => cases h
    | cons b raw =>
        obtain rfl := Option.some.inj h
        rfl
  · rfl

/-- A namespace takes at least its slash. -/
theorem length_readNamespace_lt (h : raw.head? = some slash) :
    (readNamespace raw).2.length < raw.length := by
  rw [readNamespace, if_pos h]
  cases raw with
  | nil => cases h
  | cons b raw =>
      have hdrop := List.length_dropWhile_le (fun c => decide (c ≠ comma)) (b :: raw)
      have htail := List.length_tail (l := (b :: raw).dropWhile fun c => decide (c ≠ comma))
      simp only [List.length_cons] at hdrop ⊢
      omega

/-- An ack id is read back before data that does not begin with a digit. -/
theorem readAckID_ackPart (hack : ∀ n ∈ p.ackID, 0 ≤ n.1)
    (hdata : ∀ b ∈ p.data.head?, isDigit b = false) :
    readAckID (p.ackPart ++ p.data) = .ok (p.ackID, p.data) := by
  unfold readAckID Packet.ackPart
  cases hid : p.ackID with
  | none =>
      have hdigits : p.data.takeWhile isDigit = [] := by
        cases hd : p.data with
        | nil => rfl
        | cons b data => exact List.takeWhile_cons_of_neg (by simp [hdata b (by simp [hd])])
      simp [hdigits]
  | some n =>
      have hn := hack n hid
      simp only [itoa_of_nonneg hn, takeWhile_decimal_append hdata,
        dropWhile_decimal_append hdata, decimal_ne_nil, if_false, atoi_decimal hn]

/-- What an ack id that was read is, and what is left. -/
theorem readAckID_eq_ok {id : Option GoInt} (h : readAckID raw = .ok (id, rest)) :
    (∀ n ∈ id, 0 ≤ n.1) ∧ rest = raw.dropWhile isDigit ∧ (id = none → rest = raw) := by
  unfold readAckID at h
  dsimp only at h
  split_ifs at h with hdigits
  · obtain ⟨rfl, rfl⟩ := Prod.mk.inj (Except.ok.inj h)
    have hall := List.takeWhile_append_dropWhile (p := isDigit) (l := raw)
    rw [hdigits, List.nil_append] at hall
    exact ⟨by simp, hall.symm, fun _ => rfl⟩
  · cases hn : atoi (raw.takeWhile isDigit) with
    | none =>
        rw [hn] at h
        cases h
    | some m =>
        rw [hn] at h
        obtain ⟨rfl, rfl⟩ := Prod.mk.inj (Except.ok.inj h)
        exact ⟨by simpa using atoi_nonneg hn, rfl, by simp⟩

/-- What is left after the digits starts with none. -/
theorem head_dropWhile_isDigit (raw : Bytes) :
    ∀ b ∈ (raw.dropWhile isDigit).head?, isDigit b = false := by
  intro b hb
  have h := List.head?_dropWhile_not isDigit raw
  rw [Option.mem_def.1 hb] at h
  simpa using h

end readers

section codec

variable {p : Packet} {raw bytes : Bytes}

/-- The packets that are encoded, and their bytes part by part. -/
theorem encode_eq_ok :
    encode p = .ok bytes ↔ p.Accepted ∧ ∃ digit, p.type.digit = .ok digit ∧
      bytes = digit :: (p.countPart ++ (p.nsPart ++ (p.ackPart ++ p.data))) := by
  unfold encode
  cases hd : p.type.digit with
  | error e => simp
  | ok digit =>
      dsimp only
      split_ifs with hset hneg hns
      · refine iff_of_false (by simp) ?_
        rintro ⟨hacc, -⟩
        exact hset.2 (hacc.noCount hset.1)
      · refine iff_of_false (by simp) ?_
        rintro ⟨hacc, -⟩
        exact absurd (hacc.count hneg.1) (Int.not_le.2 hneg.2)
      · refine iff_of_false (by simp) ?_
        rintro ⟨hacc, -⟩
        exact hacc.ns.elim hns.1 hns.2
      · have hacc : p.Accepted :=
          { noCount := fun hb => by_contra fun hne => hset ⟨hb, hne⟩
            count := fun hb => Int.not_lt.1 fun hlt => hneg ⟨hb, hlt⟩
            ns := or_iff_not_imp_left.2 fun hd => by_contra fun hne => hns ⟨hd, hne⟩ }
        simp [hacc, eq_comm]

/-- The bytes that are decoded, part by part. -/
theorem decode_eq_ok :
    decode raw = .ok p ↔ ∃ digit rest body, raw = digit :: rest ∧
      PacketType.ofDigit digit = .ok p.type ∧ readCount p.type rest = .ok (p.attachments, body) ∧
      (readNamespace body).1 = p.ns ∧ readAckID (readNamespace body).2 = .ok (p.ackID, p.data) := by
  constructor
  · intro h
    unfold decode at h
    split at h
    · cases h
    · split at h
      · cases h
      · rename_i digit rest _ type htype
        split at h
        · cases h
        · rename_i n body hcount
          split at h
          · cases h
          · rename_i id data hid
            obtain rfl := Except.ok.inj h
            exact ⟨digit, rest, body, rfl, htype, hcount, rfl, hid⟩
  · rintro ⟨digit, rest, body, rfl, htype, hcount, hns, hid⟩
    simp only [decode, htype, hcount, hid, hns]

/-- What `Decode` gives is what `Encode` accepts, with a namespace, an ack id and a payload
that can be told apart. -/
theorem decode_wellFormed (h : decode raw = .ok p) :
    p.Accepted ∧ p.filled = p ∧ comma ∉ p.ns ∧ (∀ n ∈ p.ackID, 0 ≤ n.1) ∧
      ∀ b ∈ p.data.head?, isDigit b = false := by
  obtain ⟨digit, rest, body, -, -, hcount, hns, hid⟩ := decode_eq_ok.1 h
  have hslash : p.ns.head? = some slash := hns ▸ head_readNamespace body
  have hne : p.ns ≠ [] := by
    intro hnil
    rw [hnil] at hslash
    cases hslash
  obtain ⟨hack, hdata, -⟩ := readAckID_eq_ok hid
  refine ⟨⟨?_, ?_, Or.inr hslash⟩, ?_, hns ▸ comma_notMem_readNamespace body, hack, ?_⟩
  · intro hb
    rcases readCount_eq_ok hcount with ⟨-, hzero, -⟩ | ⟨hb', -⟩
    · exact hzero
    · simp [hb] at hb'
  · intro hb
    rcases readCount_eq_ok hcount with ⟨hb', -⟩ | ⟨-, hnonneg, -⟩
    · simp [hb] at hb'
    · exact hnonneg
  · simp [Packet.filled, hne]
  · rw [hdata]
    exact head_dropWhile_isDigit _

/-- The rest of the wire after the attachment header is read back. -/
theorem readNamespace_nsPart (hacc : p.Accepted) (h : p.Unambiguous) :
    readNamespace (p.nsPart ++ (p.ackPart ++ p.data)) = (p.filled.ns, p.ackPart ++ p.data) := by
  obtain ⟨hcomma, hack, -, hslash⟩ := h
  unfold Packet.nsPart
  split_ifs with hdef
  · have hfill : p.filled.ns = defaultNamespace := by
      rcases hdef with hns | hns <;> simp [Packet.filled, hns, defaultNamespace]
    have hhead : (p.ackPart ++ p.data).head? ≠ some slash := by
      unfold Packet.ackPart
      cases hid : p.ackID with
      | none => exact fun hd => hslash ⟨hdef, hid, hd⟩
      | some n =>
          -- an ack id starts with a digit
          dsimp only
          rw [itoa_of_nonneg (hack n hid)]
          cases hdec : decimal n.1.natAbs with
          | nil => exact absurd hdec (decimal_ne_nil _)
          | cons b digits =>
              have hb : isDigit b = true := isDigit_of_mem_decimal (hdec ▸ List.mem_cons_self ..)
              rintro ⟨⟩
              cases hb
    rw [List.nil_append, readNamespace_of_ne hhead, hfill]
  · have hne : p.ns ≠ [] := fun hnil => hdef (Or.inl hnil)
    rw [List.append_assoc, List.singleton_append,
      readNamespace_append (hacc.ns.resolve_left hdef) (hcomma.resolve_left hdef)]
    simp [Packet.filled, hne]

/-- **Which packets are read back.**  `Decode` gives back a packet that was encoded, with its
namespace filled in, if and only if no part of the wire can be taken for another one. -/
theorem decode_encode_iff (h : encode p = .ok bytes) :
    decode bytes = .ok p.filled ↔ p.Unambiguous := by
  obtain ⟨hacc, digit, hdigit, rfl⟩ := encode_eq_ok.1 h
  have hcount := readCount_countPart hacc (p.nsPart ++ (p.ackPart ++ p.data))
  constructor
  · intro hdec
    have hwf := decode_wellFormed hdec
    obtain ⟨-, -, hcomma, hack, hdata⟩ := hwf
    refine ⟨?_, hack, hdata, ?_⟩
    · rw [or_iff_not_imp_left]
      intro hdef
      have hne : p.ns ≠ [] := fun hnil => hdef (Or.inl hnil)
      simpa [Packet.filled, hne] using hcomma
    · rintro ⟨hdef, hnone, hslash⟩
      -- the payload is taken for a namespace, so less than the payload is left
      obtain ⟨_, _, body, hraw, -, hread, -, hid⟩ := decode_eq_ok.1 hdec
      obtain ⟨-, rfl⟩ := List.cons.inj hraw
      have hbody : body = p.data := by
        have hpair := hcount.symm.trans hread
        simp only [Packet.nsPart, if_pos hdef, Packet.ackPart, hnone, List.nil_append] at hpair
        exact (Prod.mk.inj (Except.ok.inj hpair)).2.symm
      have hlt := length_readNamespace_lt (hbody ▸ hslash)
      have hle := (readAckID_eq_ok hid).2.1 ▸
        List.length_dropWhile_le isDigit (readNamespace body).2
      have hlen : p.filled.data.length = body.length := by rw [hbody]; rfl
      omega
  · intro hun
    refine decode_eq_ok.2 ⟨digit, _, _, rfl, PacketType.ofDigit_digit hdigit, hcount, ?_⟩
    rw [readNamespace_nsPart hacc hun]
    exact ⟨rfl, readAckID_ackPart hun.2.1 hun.2.2.1⟩

/-- The text after the type and the attachment header. -/
def headerless : Bytes → Bytes
  | [] => []
  | digit :: rest =>
      if digit = 53 ∨ digit = 54 then (rest.dropWhile isDigit).tail else rest

/-- What follows the type and the count. -/
theorem headerless_eq {digit : UInt8} {type : PacketType} {n : GoInt} {rest body : Bytes}
    (htype : PacketType.ofDigit digit = .ok type) (hcount : readCount type rest = .ok (n, body)) :
    headerless (digit :: rest) = body := by
  have hbinary : (digit = 53 ∨ digit = 54) ↔ type.isBinary = true := by
    have hdigit := PacketType.digit_ofDigit htype
    cases type with
    | other n => cases hdigit
    | _ =>
        obtain rfl := Except.ok.inj hdigit
        decide
  rw [headerless]
  rcases readCount_eq_ok hcount with ⟨hb, -, rfl⟩ | ⟨hb, -, rfl⟩
  · rw [if_neg (by simp [hbinary, hb])]
  · rw [if_pos (hbinary.2 hb)]

/-- When a payload that starts with a slash follows the default namespace. -/
theorem default_slash_iff {body : Bytes} {id : Option GoInt} {data : Bytes}
    (h : readAckID (readNamespace body).2 = .ok (id, data)) :
    ((readNamespace body).1 = defaultNamespace ∧ id = none ∧ data.head? = some slash) ↔
      ascii "/,/" <+: body := by
  constructor
  · rintro ⟨hns, hid, hslash⟩
    rw [(readAckID_eq_ok h).2.2 hid] at hslash
    by_cases hbody : body.head? = some slash
    · rw [readNamespace, if_pos hbody] at hns hslash
      dsimp only at hns hslash
      have hsplit := List.takeWhile_append_dropWhile (p := fun c => decide (c ≠ comma)) (l := body)
      have hhead := List.head?_dropWhile_not (fun c => decide (c ≠ comma)) body
      cases hdrop : body.dropWhile fun c => decide (c ≠ comma) with
      | nil =>
          rw [hdrop] at hslash
          cases hslash
      | cons c tail =>
          rw [hdrop] at hslash hsplit hhead
          have hc : c = comma := by simpa using hhead
          cases tail with
          | nil => cases hslash
          | cons b tail =>
              obtain rfl := Option.some.inj hslash
              rw [← hsplit, hns, hc]
              exact ⟨tail, rfl⟩
    · rw [readNamespace_of_ne hbody] at hslash
      exact absurd hslash hbody
  · rintro ⟨tail, rfl⟩
    have hcomma : comma ∉ defaultNamespace := by decide
    have hread : readNamespace (ascii "/,/" ++ tail) = (defaultNamespace, slash :: tail) :=
      readNamespace_append rfl hcomma (slash :: tail)
    rw [hread] at h ⊢
    have hnone : readAckID (slash :: tail) = .ok (none, slash :: tail) := rfl
    obtain ⟨rfl, rfl⟩ := Prod.mk.inj (Except.ok.inj (hnone.symm.trans h))
    exact ⟨rfl, rfl, rfl⟩

end codec

/-- **Which packets make the round trip.**  For a packet that `Encode` accepts, `Decode` gives
it back exactly when its namespace is the default one or has no comma, its ack id is absent or
not negative, its payload does not start with a digit, and the payload is not a slash right
after a default namespace.  A payload of JSON and a namespace without commas are enough. -/
theorem round_trip_domain {p : Packet} {bytes : Bytes} (h : encode p = .ok bytes) :
    (decode bytes = .ok p.filled ↔
      (p.IsDefault ∨ comma ∉ p.ns) ∧ (∀ n ∈ p.ackID, 0 ≤ n.1) ∧
        (∀ b ∈ p.data.head?, isDigit b = false) ∧
        ¬ (p.IsDefault ∧ p.ackID = none ∧ p.data.head? = some slash)) ∧
    (p.ns.head? = some slash → comma ∉ p.ns → (∀ n ∈ p.ackID, 0 ≤ n.1) →
      (p.data = [] ∨ p.data.head? = some 91 ∨ p.data.head? = some 123) →
      decode bytes = .ok p) := by
  refine ⟨decode_encode_iff h, fun hslash hcomma hack hdata => ?_⟩
  have hne : p.ns ≠ [] := by
    intro hnil
    rw [hnil] at hslash
    cases hslash
  have hfilled : p.filled = p := by simp [Packet.filled, hne]
  have hhead : ∀ b ∈ p.data.head?, isDigit b = false ∧ b ≠ slash := by
    intro b hb
    rcases hdata with hd | hd | hd <;> rw [hd] at hb
    · cases hb
    · obtain rfl := Option.some.inj hb
      decide
    · obtain rfl := Option.some.inj hb
      decide
  have hun : p.Unambiguous :=
    ⟨Or.inr hcomma, hack, fun b hb => (hhead b hb).1, fun hd => (hhead slash hd.2.2).2 rfl⟩
  have hdec := (decode_encode_iff h).2 hun
  rwa [hfilled] at hdec

/-- An event on `/admin` with ack id 7. -/
theorem round_trip_domain_admin :
    decode (ascii "2/admin,7[\"kick\"]") =
      .ok ⟨.event, ascii "/admin", some ⟨7, by decide⟩, ascii "[\"kick\"]", ⟨0, by decide⟩⟩ :=
  (round_trip_domain (p := ⟨.event, ascii "/admin", some ⟨7, by decide⟩, ascii "[\"kick\"]",
    ⟨0, by decide⟩⟩) (by decide +kernel)).2 (by decide) (by decide) (by decide) (by decide)

/-- **Which texts have a stable form.**  What `Decode` makes of a text can be encoded and is
decoded as the same packet, unless the text spells out the default namespace and the payload
after it starts with a slash. -/
theorem reencode_iff {raw : Bytes} {p : Packet} (h : decode raw = .ok p) :
    (∃ bytes, encode p = .ok bytes ∧ decode bytes = .ok p) ↔ ¬ ascii "/,/" <+: headerless raw := by
  obtain ⟨digit, rest, body, rfl, htype, hcount, hns, hid⟩ := decode_eq_ok.1 h
  obtain ⟨hacc, hfilled, hcomma, hack, hdata⟩ := decode_wellFormed h
  have henc := encode_eq_ok.2 ⟨hacc, digit, PacketType.digit_ofDigit htype, rfl⟩
  have hiff := decode_encode_iff henc
  rw [hfilled] at hiff
  have hdef : p.IsDefault ↔ (readNamespace body).1 = defaultNamespace := by
    rw [hns]
    refine ⟨fun hd => hd.resolve_left ?_, Or.inr⟩
    intro hnil
    have hslash := head_readNamespace body
    rw [hns, hnil] at hslash
    cases hslash
  rw [headerless_eq htype hcount, ← default_slash_iff hid, ← hdef]
  constructor
  · rintro ⟨bytes, hbytes, hdec⟩
    obtain rfl := Except.ok.inj (henc.symm.trans hbytes)
    exact (hiff.1 hdec).2.2.2
  · intro hun
    exact ⟨_, henc, hiff.2 ⟨Or.inr hcomma, hack, hdata, hun⟩⟩

/-- A namespace that ends with the text, which is written with a comma. -/
theorem reencode_iff_admin :
    ∃ bytes, encode ⟨.connect, ascii "/admin", none, [], ⟨0, by decide⟩⟩ = .ok bytes ∧
      decode bytes = .ok ⟨.connect, ascii "/admin", none, [], ⟨0, by decide⟩⟩ :=
  have hdec : decode (ascii "0/admin") =
      .ok ⟨.connect, ascii "/admin", none, [], ⟨0, by decide⟩⟩ := by
    decide +kernel
  (reencode_iff hdec).2 (by decide +kernel)

/-- **Counterexample.**  `2/,/x` is an event on the default namespace with the payload `/x`;
it is encoded as `2/x`, which is an event on the namespace `/x`. -/
theorem reencode_not_stable :
    decode (ascii "2/,/x") = .ok ⟨.event, ascii "/", none, ascii "/x", ⟨0, by decide⟩⟩ ∧
      encode ⟨.event, ascii "/", none, ascii "/x", ⟨0, by decide⟩⟩ = .ok (ascii "2/x") ∧
      decode (ascii "2/x") = .ok ⟨.event, ascii "/x", none, [], ⟨0, by decide⟩⟩ ∧
      decode (ascii "2/x") ≠ .ok ⟨.event, ascii "/", none, ascii "/x", ⟨0, by decide⟩⟩ := by
  decide +kernel

end SocketIO
end GoSocket
