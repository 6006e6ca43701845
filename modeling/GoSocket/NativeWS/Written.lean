/-
# The frames `writeFrame` writes

A frame of the server has two bytes, an extended length and its payload; it is not
masked.  The peer reads it by the rules `readFrame` has for a header and its length
(`readUnmasked`).

`writeFrame` has three forms for the length:

| payload | second byte | extended length |
| --- | ---: | --- |
| up to 125 | the length | none |
| up to 65535 | 126 | two bytes |
| longer | 127 | four zero bytes and the low four bytes of the length |

The last one is right as long as the length has 32 bits.  From `2^32` bytes on the peer
takes the length modulo `2^32`, and what is left of the payload is read as further frames
(`readUnmasked_writeFrame_iff`).
-/

import GoSocket.NativeWS.Limit
import Mathlib.Algebra.Group.Nat.Defs

namespace GoSocket

open Lib

namespace NativeWS

/-- The low `k` bytes of a number, most significant byte first. -/
def bigEndianBytes : ℕ → ℕ → Bytes
  | 0, _ => []
  | k + 1, n => bigEndianBytes k (n / 256) ++ [n.toUInt8]

/-- A length in big-endian bytes has as many bytes as asked for. -/
@[simp] theorem length_bigEndianBytes (k n : ℕ) : (bigEndianBytes k n).length = k := by
  induction k generalizing n with
  | zero => rfl
  | succ k ih => rw [bigEndianBytes, List.length_append, ih, List.length_singleton]

/-- The last byte is the lowest. -/
theorem bigEndian_append (l : Bytes) (b : UInt8) :
    bigEndian (l ++ [b]) = 256 * bigEndian l + b.toNat := by
  rw [bigEndian, List.foldl_append]
  rfl

/-- **Bytes stand for the number they were made from**, modulo what they can hold. -/
theorem bigEndian_bigEndianBytes (k n : ℕ) : bigEndian (bigEndianBytes k n) = n % 256 ^ k := by
  induction k generalizing n with
  | zero => rw [Nat.pow_zero, Nat.mod_one]; rfl
  | succ k ih =>
      rw [bigEndianBytes, bigEndian_append, ih, Nat.pow_succ', Nat.mod_mul, UInt8.toNat_ofNat']
      omega

/-- The length of a header with an extended length. -/
theorem Header.length_of_ext {h : Header} {n : ℕ} (hext : extSize h.b2 ≠ 0)
    (hval : bigEndian h.ext.1 = n) (hlt : n < 9223372036854775808) : h.length = n := by
  have hdeclared : h.declared = n := by rw [Header.declared, if_neg hext, hval]
  rw [← hdeclared] at hlt ⊢
  exact Header.length_eq_declared hlt

/-- How a peer reads the payload of a frame of the server, which is not masked. -/
def readUnmaskedPayload (h : Header) : Reader UInt8 Unit Frame :=
  if h.b2 &&& 0x80 ≠ 0 ∨ h.length < 0 then Reader.fail ()
  else do
    let payload ← Reader.exactly () () () h.length.toNat
    return ⟨h.fin, h.opcode, payload.1⟩

/-- How a peer reads a frame of the server: by the header and length rules of `readFrame`.
There is no mask key. -/
def readUnmasked : Reader UInt8 Unit Frame := do
  let b1 ← Reader.item () ()
  let b2 ← Reader.item () ()
  let ext ← Reader.exactly () () () (extSize b2)
  readUnmaskedPayload ⟨b1, b2, ext, ⟨[0, 0, 0, 0], rfl⟩⟩

/-- A payload that is there is read, and nothing behind it. -/
theorem readUnmaskedPayload_append {h : Header} {payload : Bytes} (hmask : h.b2 &&& 0x80 = 0)
    (hlen : h.length = payload.length) (rest : Feed UInt8) :
    readUnmaskedPayload h (payload.map some ++ rest) = (.ok ⟨h.fin, h.opcode, payload⟩, rest) := by
  have hsize : payload.length = h.length.toNat := by rw [hlen, Int.toNat_natCast]
  rw [readUnmaskedPayload, if_neg (by rw [hmask, hlen]; simp)]
  exact Reader.bind_of_ok (Reader.exactly_append hsize rest)

/-- A header that is there is read. -/
theorem readUnmasked_append (b1 : UInt8) {b2 : UInt8} {ext : Bytes} (hext : ext.length = extSize b2)
    (rest : Feed UInt8) :
    readUnmasked ((b1 :: b2 :: ext).map some ++ rest) =
      readUnmaskedPayload ⟨b1, b2, ⟨ext, hext⟩, ⟨[0, 0, 0, 0], rfl⟩⟩ rest :=
  Reader.bind_of_ok (m := Reader.exactly () () () (extSize b2))
    (f := fun ext => readUnmaskedPayload ⟨b1, b2, ext, ⟨[0, 0, 0, 0], rfl⟩⟩)
    (Reader.exactly_append hext rest)

/-- What `writeFrame(true, opcode, payload)` writes if no `Write` fails. -/
def frameBytes (opcode : Fin 16) (payload : Bytes) : Bytes :=
  (Conn.writeFrame ⟨[], [], [], []⟩ true opcode payload).2.written

/-- The bytes of a frame are its header and its payload. -/
theorem frameBytes_eq (opcode : Fin 16) (payload : Bytes) :
    frameBytes opcode payload = header true opcode payload.length ++ payload := by
  cases payload <;> simp [frameBytes, Conn.writeFrame, Conn.write]

/-- The first byte of a frame. -/
def firstByte (opcode : Fin 16) : UInt8 := UInt8.ofInt opcode ||| 0x80

/-- The first byte has the final bit. -/
theorem firstByte_fin (opcode : Fin 16) : decide (firstByte opcode &&& 0x80 ≠ 0) = true := by
  revert opcode
  decide

/-- The first byte has the opcode. -/
theorem firstByte_opcode (opcode : Fin 16) : (firstByte opcode &&& 0x0F).toNat = opcode := by
  revert opcode
  decide

/-- A length up to 125 is its own second byte. -/
theorem short_byte (n : Fin 126) :
    extSize n.1.toUInt8 = 0 ∧ n.1.toUInt8 &&& 0x80 = 0 ∧ (n.1.toUInt8 &&& 0x7F).toNat = n := by
  revert n
  decide

section lengths

variable (opcode : Fin 16) (payload : Bytes) (rest : Feed UInt8)

/-- What a peer reads is as long as the header says. -/
theorem readUnmasked_frameBytes (b2 : UInt8) (ext : Bytes) {taken left : Bytes}
    (hhead : header true opcode payload.length = firstByte opcode :: b2 :: ext)
    (hext : ext.length = extSize b2) (hmask : b2 &&& 0x80 = 0)
    (hlen : (Header.mk (firstByte opcode) b2 ⟨ext, hext⟩ ⟨[0, 0, 0, 0], rfl⟩).length =
      taken.length)
    (hpayload : payload = taken ++ left) :
    readUnmasked ((frameBytes opcode payload).map some ++ rest) =
      (.ok ⟨true, opcode, taken⟩, left.map some ++ rest) := by
  have hbytes : (frameBytes opcode payload).map some ++ rest =
      (firstByte opcode :: b2 :: ext).map some ++ (taken.map some ++ (left.map some ++ rest)) := by
    rw [frameBytes_eq, hhead, List.map_append, List.append_assoc]
    nth_rewrite 1 [hpayload]
    rw [List.map_append, List.append_assoc]
  rw [hbytes, readUnmasked_append _ hext, readUnmaskedPayload_append hmask hlen]
  unfold Header.fin Header.opcode
  rw [firstByte_fin, firstByte_opcode]

/-- A frame with a length of seven bits is read back. -/
theorem readUnmasked_short (h : payload.length ≤ 125) :
    readUnmasked ((frameBytes opcode payload).map some ++ rest) =
      (.ok ⟨true, opcode, payload⟩, rest) := by
  obtain ⟨hext, hmask, hval⟩ := short_byte ⟨payload.length, by omega⟩
  refine readUnmasked_frameBytes opcode payload rest payload.length.toUInt8 []
    (if_pos h) hext.symm hmask ?_ (List.append_nil payload).symm
  rw [Header.length, if_pos hext]
  exact congrArg Nat.cast hval

/-- A frame with a length of two bytes is read back. -/
theorem readUnmasked_medium (hlo : 125 < payload.length) (hhi : payload.length ≤ 65535) :
    readUnmasked ((frameBytes opcode payload).map some ++ rest) =
      (.ok ⟨true, opcode, payload⟩, rest) := by
  refine readUnmasked_frameBytes opcode payload rest 126
    (bigEndianBytes 2 payload.length) ?_ rfl rfl ?_ (List.append_nil payload).symm
  · rw [header, if_neg (by omega), if_pos hhi, Nat.shiftRight_eq_div_pow]
    rfl
  · refine Header.length_of_ext (show extSize 126 ≠ 0 by decide) ?_ (by omega)
    exact (bigEndian_bigEndianBytes 2 _).trans (Nat.mod_eq_of_lt (by omega))

/-- The length of a long frame is read modulo `2^32`. -/
theorem readUnmasked_long (h : 65535 < payload.length) :
    readUnmasked ((frameBytes opcode payload).map some ++ rest) =
      (.ok ⟨true, opcode, payload.take (payload.length % 4294967296)⟩,
        (payload.drop (payload.length % 4294967296)).map some ++ rest) := by
  refine readUnmasked_frameBytes opcode payload rest 127
    (0 :: 0 :: 0 :: 0 :: bigEndianBytes 4 payload.length) ?_ rfl rfl ?_
    (List.take_append_drop _ payload).symm
  · rw [header, if_neg (by omega), if_neg (by omega)]
    simp only [Nat.shiftRight_eq_div_pow, bigEndianBytes, Nat.div_div_eq_div_mul]
    rfl
  · rw [List.length_take, Nat.min_eq_left (Nat.mod_le ..)]
    exact Header.length_of_ext (show extSize 127 ≠ 0 by decide)
      (bigEndian_bigEndianBytes 4 payload.length) (by omega)

end lengths

/-- **When a frame can be read back.**  For every opcode, every payload and whatever follows, a
peer reads from the bytes of `writeFrame` the final frame with that opcode and payload, and
leaves what follows, if and only if the payload is shorter than `2^32` bytes. -/
theorem readUnmasked_writeFrame_iff (opcode : Fin 16) (payload : Bytes) (rest : Feed UInt8) :
    readUnmasked ((frameBytes opcode payload).map some ++ rest) =
      (.ok ⟨true, opcode, payload⟩, rest) ↔ payload.length < 4294967296 := by
  by_cases hshort : payload.length ≤ 125
  · simp only [readUnmasked_short opcode payload rest hshort, true_iff]
    omega
  by_cases hmedium : payload.length ≤ 65535
  · simp only [readUnmasked_medium opcode payload rest (by omega) hmedium, true_iff]
    omega
  rw [readUnmasked_long opcode payload rest (by omega)]
  constructor
  · intro h
    have htake : payload.take (payload.length % 4294967296) = payload := by
      injection h with h
      injection h with h
      exact (Frame.mk.inj h).2.2
    have hlen := congrArg List.length htake
    rw [List.length_take] at hlen
    omega
  · intro h
    rw [Nat.mod_eq_of_lt h, List.take_length, List.drop_length]
    rfl

/-- **Counterexample.**  From the bytes of a binary frame with a payload of `2^32` bytes a peer
reads a frame without payload, and the payload is left to be read as further frames. -/
theorem long_frame_misread :
    ∃ payload : Bytes, payload.length = 4294967296 ∧
      readUnmasked ((frameBytes 2 payload).map some) =
        (.ok ⟨true, opcodeBinary, []⟩, payload.map some) := by
  obtain ⟨payload, hlen⟩ : ∃ payload : Bytes, payload.length = 4294967296 :=
    ⟨List.replicate _ 0, List.length_replicate⟩
  refine ⟨payload, hlen, ?_⟩
  have hread := readUnmasked_long 2 payload [] (by omega)
  rw [hlen, Nat.mod_self, List.take_zero, List.drop_zero, List.append_nil, List.append_nil] at hread
  exact hread

end NativeWS
end GoSocket
