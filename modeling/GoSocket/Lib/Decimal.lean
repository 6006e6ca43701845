/-
# Decimal numerals in byte strings

`decimal n` is the shortest decimal numeral of `n` as ASCII bytes, what
`strconv.AppendUint(nil, n, 10)` appends.  `readDecimal` reads the numeral a
byte string starts with and stops at the first byte that is no digit, so a
numeral is read back whatever follows it, as long as no digit does
(`readDecimal_decimal_append`).

`itoa` and `atoi` are the same for a Go `int`, which may be negative and is bounded.
-/

import Mathlib.Data.List.TakeWhile

namespace GoSocket
namespace Lib

/-- A Go `[]byte`, or a Go `string` seen as its bytes. -/
abbrev Bytes := List UInt8

/-- The bytes of an ASCII string. -/
def ascii (s : String) : Bytes := s.toList.map fun c => c.toNat.toUInt8

/-- `'0' <= b && b <= '9'`. -/
def isDigit (b : UInt8) : Bool := 48 ≤ b && b ≤ 57

/-- The decimal numeral of `n`. -/
def decimal (n : ℕ) : Bytes := (Nat.toDigits 10 n).map fun c => c.toNat.toUInt8

/-- The number a byte string of digits denotes, most significant digit first. -/
def digitsValue (l : Bytes) : ℕ := l.foldl (fun acc b => 10 * acc + (b.toNat - 48)) 0

/-- The number the longest run of leading digits denotes. -/
def readDecimal (l : Bytes) : ℕ := digitsValue (l.takeWhile isDigit)

/-- A digit character is its own byte. -/
theorem toUInt8_of_isDigit {c : Char} (h : c.isDigit) :
    isDigit c.toNat.toUInt8 = true ∧ c.toNat.toUInt8.toNat = c.toNat := by
  rw [Char.isDigit_iff_toNat] at h
  have hlo : 48 ≤ c.toNat := h.1
  have hhi : c.toNat ≤ 57 := h.2
  have hval : c.toNat.toUInt8.toNat = c.toNat := by
    rw [UInt8.toNat_ofNat', Nat.mod_eq_of_lt (by omega)]
  refine ⟨?_, hval⟩
  simp only [isDigit, Bool.and_eq_true, decide_eq_true_eq, UInt8.le_iff_toNat_le, hval]
  exact ⟨hlo, hhi⟩

/-- A numeral has digits only. -/
theorem isDigit_of_mem_decimal {n : ℕ} {b : UInt8} (h : b ∈ decimal n) : isDigit b = true := by
  obtain ⟨c, hc, rfl⟩ := List.mem_map.1 h
  exact (toUInt8_of_isDigit (Nat.isDigit_of_mem_toDigits (by decide) (by decide) hc)).1

/-- A numeral denotes the number it was printed from. -/
theorem digitsValue_decimal (n : ℕ) : digitsValue (decimal n) = n := by
  have key : ∀ (l : List Char) (acc : ℕ), (∀ c ∈ l, c.isDigit) →
      (l.map fun c => c.toNat.toUInt8).foldl (fun acc b => 10 * acc + (b.toNat - 48)) acc =
        Nat.ofDigitChars 10 l acc := by
    intro l
    induction l with
    | nil => intro acc _; simp
    | cons c l ih =>
        intro acc hl
        have hc := (toUInt8_of_isDigit (hl c (List.mem_cons_self ..))).2
        rw [List.map_cons, List.foldl_cons, hc, Nat.ofDigitChars_cons]
        exact ih _ fun d hd => hl d (List.mem_cons_of_mem _ hd)
  rw [digitsValue, decimal, key _ _ fun c hc =>
    Nat.isDigit_of_mem_toDigits (by decide) (by decide) hc]
  exact Nat.ofDigitChars_ten_toDigits

/-- A numeral has a digit. -/
theorem decimal_ne_nil (n : ℕ) : decimal n ≠ [] := by
  unfold decimal
  rw [Ne, List.map_eq_nil_iff]
  exact Nat.toDigits_ne_nil

section append

variable {rest : Bytes} (hrest : ∀ b ∈ rest.head?, isDigit b = false)

include hrest

/-- A numeral before a byte that is no digit is read to its end. -/
theorem takeWhile_decimal_append (n : ℕ) : (decimal n ++ rest).takeWhile isDigit = decimal n := by
  rw [List.takeWhile_append_of_pos fun c hc => isDigit_of_mem_decimal hc]
  cases rest with
  | nil => simp
  | cons b rest =>
      rw [List.takeWhile_cons_of_neg (by simp [hrest b rfl]), List.append_nil]

/-- What follows a numeral is left. -/
theorem dropWhile_decimal_append (n : ℕ) : (decimal n ++ rest).dropWhile isDigit = rest := by
  have h := List.takeWhile_append_dropWhile (p := isDigit) (l := decimal n ++ rest)
  rw [takeWhile_decimal_append hrest] at h
  exact List.append_cancel_left h

end append

/-- **A numeral is read back** from in front of any text that does not go on
with a digit. -/
theorem readDecimal_decimal_append (n : ℕ) {b : UInt8} (hb : isDigit b = false) (rest : Bytes) :
    readDecimal (decimal n ++ b :: rest) = n := by
  rw [readDecimal, takeWhile_decimal_append (by simp [hb]), digitsValue_decimal]

example : readDecimal (decimal 1204 ++ ascii ",\"a\":1") = 1204 := by decide

/-- A Go `int`, on a 64-bit machine. -/
abbrev GoInt := {n : ℤ // -9223372036854775808 ≤ n ∧ n ≤ 9223372036854775807}

/-- `strconv.Itoa`. -/
def itoa (n : GoInt) : Bytes := if n.1 < 0 then 45 :: decimal n.1.natAbs else decimal n.1.natAbs

/-- `strconv.Atoi` of a run of digits; there is no result when it is out of range. -/
def atoi (digits : Bytes) : Option GoInt :=
  if h : digitsValue digits ≤ 9223372036854775807 then some ⟨digitsValue digits, by omega⟩ else none

/-- A number that is not negative has no sign. -/
theorem itoa_of_nonneg {n : GoInt} (h : 0 ≤ n.1) : itoa n = decimal n.1.natAbs :=
  if_neg (Int.not_lt.2 h)

/-- What is read is not negative. -/
theorem atoi_nonneg {digits : Bytes} {n : GoInt} (h : atoi digits = some n) : 0 ≤ n.1 := by
  unfold atoi at h
  split_ifs at h
  obtain rfl := Option.some.inj h
  exact Int.natCast_nonneg _

/-- **`Atoi` undoes `Itoa`.** -/
theorem atoi_decimal {n : GoInt} (h : 0 ≤ n.1) : atoi (decimal n.1.natAbs) = some n := by
  have hval : (n.1.natAbs : ℤ) = n.1 := Int.natAbs_of_nonneg h
  have hle := n.2.2
  unfold atoi
  simp only [digitsValue_decimal]
  rw [dif_pos (by omega)]
  exact congrArg some (Subtype.ext hval)

end Lib
end GoSocket
