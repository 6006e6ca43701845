/-
# Messages in fragments

A client may cut a message into fragments of any size, each with a mask of its own and its
length in any of the three forms that can hold it, and may put pings and pongs before any
of them.  `ReadMessage` puts the message together, answers each ping as it comes, and takes
from the connection the frames of the message and nothing behind them
(`readMessage_wire`).
-/

import GoSocket.NativeWS.Written

namespace GoSocket

open Lib

namespace NativeWS

/-- How the length of a payload is written. -/
inductive LengthForm where
  | short
  | medium
  | long
  deriving DecidableEq

namespace LengthForm

/-- The lengths a form can hold; the long one is an `int64`. -/
def Holds (n : ℕ) : LengthForm → Prop
  | .short => n ≤ 125
  | .medium => n ≤ 65535
  | .long => n < 9223372036854775808

instance (n : ℕ) : (form : LengthForm) → Decidable (form.Holds n)
  | .short => inferInstanceAs (Decidable (n ≤ 125))
  | .medium => inferInstanceAs (Decidable (n ≤ 65535))
  | .long => inferInstanceAs (Decidable (n < 9223372036854775808))

/-- The second byte of a masked frame. -/
def second (n : ℕ) : LengthForm → UInt8
  | .short => 0x80 ||| n.toUInt8
  | .medium => 0xFE
  | .long => 0xFF

/-- The extended length. -/
def ext (n : ℕ) : LengthForm → Bytes
  | .short => []
  | .medium => bigEndianBytes 2 n
  | .long => bigEndianBytes 8 n

variable {n : ℕ}

/-- The second byte of a length below 126. -/
theorem short_second (n : Fin 126) :
    extSize (second n .short) = 0 ∧ second n .short &&& 0x80 ≠ 0 ∧
      (second n .short &&& 0x7F).toNat = n := by
  revert n
  decide

/-- A length form has the extended bytes its second byte announces. -/
theorem length_ext {form : LengthForm} (h : form.Holds n) :
    (form.ext n).length = extSize (form.second n) := by
  cases form with
  | short => exact (short_second ⟨n, Nat.lt_succ_of_le h⟩).1.symm
  | medium => exact (length_bigEndianBytes 2 n).trans (show 2 = extSize 0xFE by decide)
  | long => exact (length_bigEndianBytes 8 n).trans (show 8 = extSize 0xFF by decide)

/-- The second byte of every form has the mask bit. -/
theorem second_masked {form : LengthForm} (h : form.Holds n) : form.second n &&& 0x80 ≠ 0 := by
  cases form with
  | short => exact (short_second ⟨n, Nat.lt_succ_of_le h⟩).2.1
  | medium => exact show (0xFE : UInt8) &&& 0x80 ≠ 0 by decide
  | long => exact show (0xFF : UInt8) &&& 0x80 ≠ 0 by decide

/-- **A length is read back** from each form that can hold it. -/
theorem length_header {form : LengthForm} (h : form.Holds n) (b1 : UInt8)
    (maskKey : {l : Bytes // l.length = 4}) :
    (Header.mk b1 (form.second n) ⟨form.ext n, length_ext h⟩ maskKey).length = n := by
  cases form with
  | short =>
      obtain ⟨hext, -, hval⟩ := short_second ⟨n, Nat.lt_succ_of_le h⟩
      rw [Header.length, if_pos hext]
      exact congrArg Nat.cast hval
  | medium =>
      have hlt : n ≤ 65535 := h
      refine Header.length_of_ext (show extSize 0xFE ≠ 0 by decide) ?_ (by omega)
      exact (bigEndian_bigEndianBytes 2 n).trans (Nat.mod_eq_of_lt (by omega))
  | long =>
      have hlt : n < 9223372036854775808 := h
      refine Header.length_of_ext (show extSize 0xFF ≠ 0 by decide) ?_ hlt
      exact (bigEndian_bigEndianBytes 8 n).trans (Nat.mod_eq_of_lt (by omega))

end LengthForm

/-- The payload of a client's frame, with how it is masked and how its length is written. -/
structure Masked where
  data : Bytes
  maskKey : {l : Bytes // l.length = 4}
  form : LengthForm
  holds : form.Holds data.length

/-- The frame of a client. -/
def Masked.bytes (p : Masked) (fin : Bool) (opcode : Fin 16) : Bytes :=
  (if fin then opcode.1.toUInt8 ||| 0x80 else opcode.1.toUInt8) :: p.form.second p.data.length ::
    (p.form.ext p.data.length ++ (p.maskKey.1 ++ unmask p.maskKey.1 p.data))

/-- Masking twice does nothing. -/
theorem unmask_unmask (maskKey payload : Bytes) :
    unmask maskKey (unmask maskKey payload) = payload := by
  unfold unmask
  rw [List.mapIdx_mapIdx]
  refine List.ext_getElem (by simp) fun i hi hi' => ?_
  simp only [List.getElem_mapIdx, Function.comp, UInt8.xor_assoc, UInt8.xor_self, UInt8.xor_zero]

section read

variable (rest : Feed UInt8)

/-- A header that is there is read. -/
theorem readHeader_append (b1 : UInt8) {b2 : UInt8} {ext maskKey : Bytes}
    (hext : ext.length = extSize b2) (hkey : maskKey.length = 4) (hmask : b2 &&& 0x80 ≠ 0) :
    readHeader (some b1 :: some b2 :: (ext.map some ++ (maskKey.map some ++ rest))) =
      (.ok ⟨b1, b2, ⟨ext, hext⟩, ⟨maskKey, hkey⟩⟩, rest) := by
  refine (Reader.bind_of_ok (m := readFull (extSize b2)) (f := fun ext =>
    if b2 &&& 0x80 = 0 then Reader.fail (.error .unmasked)
    else do
      let maskKey ← readFull 4
      return Header.mk b1 b2 ext maskKey) (Reader.exactly_append hext _)).trans ?_
  rw [if_neg hmask]
  exact Reader.bind_of_ok (Reader.exactly_append hkey rest)

/-- A payload that is there is read and unmasked. -/
theorem readPayload_append {maxAlloc : ℕ} {h : Header} {payload : Bytes}
    (hlen : h.length = payload.length) (hmake : payload.length ≤ maxAlloc) :
    readPayload maxAlloc h (payload.map some ++ rest) =
      (.ok (unmask h.maskKey.1 payload), rest) := by
  have hsize : payload.length = h.length.toNat := by rw [hlen, Int.toNat_natCast]
  rw [readPayload, if_neg (by rw [hlen]; omega)]
  exact Reader.bind_of_ok (Reader.exactly_append hsize rest)

/-- The first byte gives back the final bit and the opcode. -/
theorem firstByte_of (fin : Bool) (opcode : Fin 16) :
    decide ((if fin then opcode.1.toUInt8 ||| 0x80 else opcode.1.toUInt8) &&& 0x80 ≠ 0) = fin ∧
      ((if fin then opcode.1.toUInt8 ||| 0x80 else opcode.1.toUInt8) &&& 0x0F).toNat = opcode := by
  revert fin opcode
  decide

/-- **A client's frame is read back.** -/
theorem readFrame_bytes {maxAlloc : ℕ} (p : Masked) (hmake : p.data.length ≤ maxAlloc) (fin : Bool)
    (opcode : Fin 16) :
    readFrame maxAlloc ((p.bytes fin opcode).map some ++ rest) =
      (.ok ⟨fin, opcode, p.data⟩, rest) := by
  obtain ⟨hfin, hopcode⟩ := firstByte_of fin opcode
  simp only [Masked.bytes, List.map_cons, List.map_append, List.cons_append, List.append_assoc]
  refine (Reader.bind_of_ok (readHeader_append _ _ (LengthForm.length_ext p.holds) p.maskKey.2
    (LengthForm.second_masked p.holds))).trans ?_
  refine (Reader.bind_of_ok (readPayload_append rest ?_ ?_)).trans ?_
  · rw [length_unmask]
    exact LengthForm.length_header p.holds _ _
  · rwa [length_unmask]
  · rw [unmask_unmask, Header.fin, Header.opcode, hfin, hopcode]
    rfl

end read

/-- A ping or a pong of a client. -/
structure Control where
  isPing : Bool
  payload : Masked
  small : payload.data.length ≤ maxControlPayload

def Control.bytes (k : Control) : Bytes := k.payload.bytes true (if k.isPing then 9 else 10)

/-- What `ReadMessage` writes for a control frame. -/
def Control.answer (k : Control) : Bytes :=
  if k.isPing then header true opcodePong k.payload.data.length ++ k.payload.data else []

/-- A fragment of a message, with the control frames before it. -/
structure Fragment where
  controls : List Control
  payload : Masked

/-- No frame is larger than what `make` can allocate. -/
def Fragment.Allocable (maxAlloc : ℕ) (f : Fragment) : Prop :=
  f.payload.data.length ≤ maxAlloc ∧ ∀ k ∈ f.controls, k.payload.data.length ≤ maxAlloc

instance (maxAlloc : ℕ) (f : Fragment) : Decidable (f.Allocable maxAlloc) :=
  inferInstanceAs (Decidable (_ ∧ _))

/-- The frames of fragments: the first one has the opcode, and the last one is final. -/
def fragmentBytes (opcode : Fin 16) (f : Fragment) : List Fragment → Bytes
  | [] => f.controls.flatMap Control.bytes ++ f.payload.bytes true opcode
  | g :: rest =>
      f.controls.flatMap Control.bytes ++ (f.payload.bytes false opcode ++ fragmentBytes 0 g rest)

/-- A message of a client. -/
structure ClientMessage where
  isText : Bool
  first : Fragment
  rest : List Fragment

namespace ClientMessage

variable (msg : ClientMessage)

def opcode : Fin 16 := if msg.isText then 1 else 2

def fragments : List Fragment := msg.first :: msg.rest

def bytes : Bytes := fragmentBytes msg.opcode msg.first msg.rest

def payload : Bytes := msg.fragments.flatMap fun f => f.payload.data

/-- One pong for each ping, with its payload. -/
def answers : Bytes := msg.fragments.flatMap fun f => f.controls.flatMap Control.answer

end ClientMessage

/-- A connection whose `Write` calls succeed. -/
def Conn.Sends (c : Conn) : Prop := ∀ ok ∈ c.writes, ok = true

/-- A connection that can send takes the bytes. -/
theorem Conn.Sends.write {c : Conn} (h : c.Sends) (bytes : Bytes) :
    ∃ d, c.write bytes = (true, d) ∧ d.Sends ∧ d.input = c.input ∧
      d.written = c.written ++ bytes := by
  obtain ⟨input, writes, written, headers⟩ := c
  cases writes with
  | nil => exact ⟨_, rfl, h, rfl, rfl⟩
  | cons ok writes =>
      obtain rfl : ok = true := h ok List.mem_cons_self
      exact ⟨_, rfl, fun ok hok => h ok (List.mem_cons_of_mem _ hok), rfl, rfl⟩

/-- A connection that can send takes the frame. -/
theorem Conn.Sends.writeFrame {c : Conn} (h : c.Sends) (opcode : ℤ) (payload : Bytes) :
    ∃ d, c.writeFrame true opcode payload = (true, d) ∧ d.Sends ∧ d.input = c.input ∧
      d.written = c.written ++ (header true opcode payload.length ++ payload) := by
  obtain ⟨d, hd, hsends, hinput, hwritten⟩ := h.write (header true opcode payload.length)
  rw [Conn.writeFrame, hd]
  dsimp only
  split_ifs with hlen
  · obtain ⟨e, he, hsends', hinput', hwritten'⟩ := hsends.write payload
    refine ⟨e, he, hsends', hinput'.trans hinput, ?_⟩
    rw [hwritten', hwritten, List.append_assoc]
  · obtain rfl : payload = [] := List.length_eq_zero_iff.1 (by omega)
    exact ⟨d, rfl, hsends, hinput, by rw [hwritten, List.append_nil]⟩

section loop

variable {maxAlloc : ℕ} {readLimit : GoInt} {s : Partial} {c : Conn} {rest : Feed UInt8}

/-- A control frame is answered, if it is a ping, and changes nothing else. -/
theorem readLoop_control (k : Control) (hmake : k.payload.data.length ≤ maxAlloc)
    (hsends : c.Sends) (hinput : c.input = k.bytes.map some ++ rest) :
    ∃ d, readLoop maxAlloc readLimit s c = readLoop maxAlloc readLimit s d ∧ d.Sends ∧
      d.input = rest ∧ d.written = c.written ++ k.answer := by
  have hread := readFrame_bytes rest k.payload hmake true (if k.isPing then 9 else 10)
  rw [show Masked.bytes _ _ _ = k.bytes from rfl, ← hinput] at hread
  unfold Control.answer
  cases hping : k.isPing with
  | true =>
      rw [hping] at hread
      obtain ⟨d, hd, hsends', hinput', hwritten⟩ :=
        Conn.Sends.writeFrame (c := c.after rest) hsends opcodePong k.payload.data
      exact ⟨d, readLoop_pong hread rfl hd, hsends', hinput', hwritten⟩
  | false =>
      rw [hping] at hread
      exact ⟨c.after rest, readLoop_again hread rfl, hsends, rfl, (List.append_nil _).symm⟩

/-- So do several of them. -/
theorem readLoop_controls (ks : List Control)
    (hmake : ∀ k ∈ ks, k.payload.data.length ≤ maxAlloc) (hsends : c.Sends)
    (hinput : c.input = (ks.flatMap Control.bytes).map some ++ rest) :
    ∃ d, readLoop maxAlloc readLimit s c = readLoop maxAlloc readLimit s d ∧ d.Sends ∧
      d.input = rest ∧ d.written = c.written ++ ks.flatMap Control.answer := by
  induction ks generalizing c with
  | nil => exact ⟨c, rfl, hsends, hinput, (List.append_nil _).symm⟩
  | cons k ks ih =>
      rw [List.flatMap_cons, List.map_append, List.append_assoc] at hinput
      rw [List.forall_mem_cons] at hmake
      obtain ⟨d, hd, hsends, hinput, hwritten⟩ :=
        readLoop_control (s := s) k hmake.1 hsends hinput
      obtain ⟨e, he, hsends, hinput, hwritten'⟩ := ih hmake.2 hsends hinput
      refine ⟨e, hd.trans he, hsends, hinput, ?_⟩
      rw [hwritten', hwritten, List.flatMap_cons, List.append_assoc]

/-- What `ReadMessage` does with the next fragment of a message with this opcode. -/
theorem Partial.next_fragment {opcode : ℕ} (hop : opcode = opcodeText ∨ opcode = opcodeBinary)
    {f : Frame}
    (hs : s.msgOpcode = 0 ∧ f.opcode = opcode ∨ s.msgOpcode = opcode ∧ f.opcode = 0)
    (hlimit : 0 < readLimit.1 → (s.buf ++ f.data).length ≤ readLimit.1) :
    s.next readLimit f = if f.fin then .message opcode (s.buf ++ f.data)
      else .again ⟨opcode, s.buf ++ f.data⟩ := by
  have hwithin : ¬ (0 < readLimit.1 ∧ readLimit.1 < (s.buf ++ f.data).length) := by
    rintro ⟨hpos, hlt⟩
    exact absurd (hlimit hpos) (Int.not_le.2 hlt)
  rcases hop with rfl | rfl <;> rcases hs with ⟨hs, hf⟩ | ⟨hs, hf⟩ <;>
    simp only [Partial.next, hs, hf, if_neg hwithin] <;> rfl

/-- **Fragments are put together**, after what is there, and nothing behind them is taken. -/
theorem readLoop_fragments {opcode : ℕ} (hop : opcode = opcodeText ∨ opcode = opcodeBinary)
    (o : Fin 16) (f : Fragment) (fs : List Fragment)
    (hs : s.msgOpcode = 0 ∧ o.1 = opcode ∨ s.msgOpcode = opcode ∧ o.1 = 0)
    (hmake : ∀ g ∈ f :: fs, g.Allocable maxAlloc)
    (hlimit : 0 < readLimit.1 →
      ((s.buf ++ (f :: fs).flatMap fun f => f.payload.data).length : ℤ) ≤ readLimit.1)
    (hsends : c.Sends) (hinput : c.input = (fragmentBytes o f fs).map some ++ rest) :
    ∃ d, readLoop maxAlloc readLimit s c =
        (.message opcode (s.buf ++ (f :: fs).flatMap fun f => f.payload.data), d) ∧
      d.input = rest ∧
      d.written = c.written ++ (f :: fs).flatMap fun f => f.controls.flatMap Control.answer := by
  induction fs generalizing o f s c with
  | nil =>
      rw [fragmentBytes, List.map_append, List.append_assoc] at hinput
      obtain ⟨hmake, hcontrols⟩ := hmake f List.mem_cons_self
      obtain ⟨d, hd, -, hinput, hwritten⟩ :=
        readLoop_controls (s := s) f.controls hcontrols hsends hinput
      have hread := readFrame_bytes rest f.payload hmake true o
      rw [← hinput] at hread
      have hnext := Partial.next_fragment hop (f := ⟨true, o, f.payload.data⟩) hs
        (by simpa using hlimit)
      refine ⟨d.after rest, ?_, rfl, ?_⟩
      · rw [hd, readLoop_message hread hnext, List.flatMap_singleton]
      · rw [List.flatMap_singleton]
        exact hwritten
  | cons g fs ih =>
      rw [fragmentBytes, List.map_append, List.map_append, List.append_assoc,
        List.append_assoc] at hinput
      obtain ⟨⟨hmake, hcontrols⟩, hmakes⟩ := List.forall_mem_cons.1 hmake
      obtain ⟨d, hd, hsends, hinput, hwritten⟩ :=
        readLoop_controls (s := s) f.controls hcontrols hsends hinput
      have hread :=
        readFrame_bytes ((fragmentBytes 0 g fs).map some ++ rest) f.payload hmake false o
      rw [← hinput] at hread
      rw [List.flatMap_cons, ← List.append_assoc] at hlimit
      have hnext := Partial.next_fragment hop (f := ⟨false, o, f.payload.data⟩) hs
        fun hpos => Int.le_trans (Int.ofNat_le.2 (List.prefix_append _ _).length_le) (hlimit hpos)
      obtain ⟨e, he, hinput', hwritten'⟩ := ih (s := ⟨opcode, s.buf ++ f.payload.data⟩)
        (c := d.after _) 0 g (Or.inr ⟨rfl, rfl⟩) hmakes hlimit hsends rfl
      refine ⟨e, ?_, hinput', ?_⟩
      · rw [hd, readLoop_again hread hnext, he]
        exact congrArg (fun payload => (Outcome.message opcode payload, e)) (List.append_assoc ..)
      · rw [hwritten', show (d.after _).written = _ from hwritten]
        exact List.append_assoc ..

end loop

/-- **`ReadMessage` puts a message together.**  For every message of a client, whatever follows
it, if the message is within the read limit, or there is none, if `make` can allocate each of its
frames, and no `Write` fails, `ReadMessage` returns its opcode and payload, has taken its frames
and nothing behind them, and has written one pong for each ping, with the same payload and in
order. -/
theorem readMessage_wire (msg : ClientMessage) (maxAlloc : ℕ)
    (hmake : ∀ f ∈ msg.fragments, f.Allocable maxAlloc) (readLimit : GoInt)
    (hlimit : 0 < readLimit.1 → (msg.payload.length : ℤ) ≤ readLimit.1) (rest : Feed UInt8)
    (c : Conn) (hinput : c.input = msg.bytes.map some ++ rest)
    (hsends : ∀ ok ∈ c.writes, ok = true) :
    (readMessage maxAlloc readLimit c).1 = .message msg.opcode msg.payload ∧
      (readMessage maxAlloc readLimit c).2.input = rest ∧
      (readMessage maxAlloc readLimit c).2.written = c.written ++ msg.answers := by
  have hop : (msg.opcode : ℕ) = opcodeText ∨ (msg.opcode : ℕ) = opcodeBinary := by
    unfold ClientMessage.opcode
    cases msg.isText
    · exact Or.inr rfl
    · exact Or.inl rfl
  obtain ⟨d, hd, hrest, hwritten⟩ := readLoop_fragments (s := .fresh) hop msg.opcode msg.first
    msg.rest (Or.inl ⟨rfl, rfl⟩) hmake hlimit hsends hinput
  rw [readMessage, hd]
  exact ⟨rfl, hrest, hwritten⟩

/-- A text in two fragments, the second with a longer form than it needs, with a ping between
them and a byte behind them. -/
theorem readMessage_wire_fragmented :
    (readMessage (2 ^ 48) ⟨3, by decide⟩
      ⟨[0x01, 0x81, 1, 2, 3, 4, 0x49, 0x89, 0x81, 0, 0, 0, 0, 0x70, 0x80, 0xFE, 0, 2, 5, 6, 7, 8,
        0x6C, 0x27].map some ++ [some 0x81], [true], [], []⟩).1 =
        .message opcodeText (ascii "Hi!") ∧
    (readMessage (2 ^ 48) ⟨3, by decide⟩
      ⟨[0x01, 0x81, 1, 2, 3, 4, 0x49, 0x89, 0x81, 0, 0, 0, 0, 0x70, 0x80, 0xFE, 0, 2, 5, 6, 7, 8,
        0x6C, 0x27].map some ++ [some 0x81], [true], [], []⟩).2.input = [some 0x81] ∧
    (readMessage (2 ^ 48) ⟨3, by decide⟩
      ⟨[0x01, 0x81, 1, 2, 3, 4, 0x49, 0x89, 0x81, 0, 0, 0, 0, 0x70, 0x80, 0xFE, 0, 2, 5, 6, 7, 8,
        0x6C, 0x27].map some ++ [some 0x81], [true], [], []⟩).2.written = [0x8A, 1, 0x70] :=
  readMessage_wire
    ⟨true, ⟨[], ⟨ascii "H", ⟨[1, 2, 3, 4], rfl⟩, .short, by decide⟩⟩,
      [⟨[⟨true, ⟨ascii "p", ⟨[0, 0, 0, 0], rfl⟩, .short, by decide⟩, by decide⟩],
        ⟨ascii "i!", ⟨[5, 6, 7, 8], rfl⟩, .medium, by decide⟩⟩]⟩
    (2 ^ 48) (by decide) ⟨3, by decide⟩ (by decide) [some 0x81] _ (by decide) (by decide)

end NativeWS
end GoSocket
