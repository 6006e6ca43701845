/-
# Writers that write their records in pieces

Several writers append to one log.  A record is written piece by piece, and a writer
finishes its record before it begins another one; nothing is said about what the
others do meanwhile.  A log is `Whole` when it is made of whole records, one after the
other, with at most the beginning of one record at its end.

`Tidy` relates the log to how far each writer is.  Writing a piece keeps it as long as
nobody else is in the middle of a record (`Tidy.write`); a record that is begun in the
middle of another one is never part of a whole log (`not_whole_of_begun`).
-/

import Mathlib.Data.List.Basic
import Mathlib.Logic.Function.Basic

namespace GoSocket
namespace Lib

variable {ι ρ : Type}

/-- A piece of a record of a writer. -/
structure Piece (ι ρ : Type) where
  who : ι
  what : ρ
  index : ℕ
  deriving DecidableEq

section whole

variable (size : ρ → ℕ)

/-- The pieces of a record, in order. -/
def pieces (w : ι) (r : ρ) : List (Piece ι ρ) := (List.range (size r)).map fun i => ⟨w, r, i⟩

/-- Records written one after the other. -/
def records (done : List (ι × ρ)) : List (Piece ι ρ) := done.flatMap fun d => pieces size d.1 d.2

/-- Whole records, and at most the beginning of one more. -/
def Whole (log : List (Piece ι ρ)) : Prop :=
  ∃ done last, log = records size done ++ last ∧
    (last = [] ∨ ∃ (w : ι) (r : ρ), last <+: pieces size w r)

variable {size} {w w' : ι} {r r' : ρ} {log : List (Piece ι ρ)}

/-- The first piece of a record is followed by the second, if there is one. -/
theorem pieces_eq_cons (hr : 0 < size r) :
    ∃ rest, pieces size w r = ⟨w, r, 0⟩ :: rest ∧
      (rest = [] ∨ ∃ rest', rest = ⟨w, r, 1⟩ :: rest') := by
  obtain ⟨n, hn⟩ := Nat.exists_eq_succ_of_ne_zero (Nat.pos_iff_ne_zero.1 hr)
  cases n with
  | zero => exact ⟨[], by simp [pieces, hn], Or.inl rfl⟩
  | succ n =>
      refine ⟨⟨w, r, 1⟩ :: (List.range n).map fun i => ⟨w, r, i + 2⟩, ?_, Or.inr ⟨_, rfl⟩⟩
      simp [pieces, hn, List.range_succ_eq_map, Function.comp_def]

/-- Records are told apart by their first piece. -/
theorem pieces_inj_of_head (hr : 0 < size r) (hr' : 0 < size r') {l l' : List (Piece ι ρ)}
    (h : pieces size w r ++ l = pieces size w' r' ++ l') : w = w' ∧ r = r' := by
  obtain ⟨rest, hrest, -⟩ := pieces_eq_cons (w := w) hr
  obtain ⟨rest', hrest', -⟩ := pieces_eq_cons (w := w') hr'
  rw [hrest, hrest', List.cons_append, List.cons_append] at h
  have hhead := (List.cons.inj h).1
  exact ⟨congrArg Piece.who hhead, congrArg Piece.what hhead⟩

/-- A whole record in front makes no difference. -/
theorem whole_pieces_append (hpos : ∀ r, 0 < size r) :
    Whole size (pieces size w r ++ log) ↔ Whole size log := by
  constructor
  · rintro ⟨done, last, hlog, hlast⟩
    cases done with
    | nil =>
        -- the record in front is the one that is begun at the end, so nothing follows it
        rw [records, List.flatMap_nil, List.nil_append] at hlog
        rcases hlast with rfl | ⟨w', r', tail, htail⟩
        · obtain ⟨rest, hrest, -⟩ := pieces_eq_cons (w := w) (hpos r)
          rw [hrest] at hlog
          cases hlog
        · have hall : pieces size w r ++ (log ++ tail) = pieces size w' r' ++ [] := by
            rw [List.append_nil, ← htail, ← hlog, List.append_assoc]
          obtain ⟨rfl, rfl⟩ := pieces_inj_of_head (hpos r) (hpos r') hall
          have hnil := (List.append_eq_nil_iff.1 (List.append_cancel_left hall)).1
          exact ⟨[], [], hnil, Or.inl rfl⟩
    | cons d done =>
        have hall : pieces size w r ++ log =
            pieces size d.1 d.2 ++ (records size done ++ last) := by
          rw [hlog, records, List.flatMap_cons, List.append_assoc]
          rfl
        obtain ⟨hw, hr⟩ := pieces_inj_of_head (hpos r) (hpos d.2) hall
        rw [hw, hr] at hall
        exact ⟨done, last, List.append_cancel_left hall, hlast⟩
  · rintro ⟨done, last, rfl, hlast⟩
    exact ⟨(w, r) :: done, last, by rw [records, records, List.flatMap_cons, List.append_assoc],
      hlast⟩

/-- Whole records in front do not matter. -/
theorem whole_records_append (hpos : ∀ r, 0 < size r) (done : List (ι × ρ)) :
    Whole size (records size done ++ log) ↔ Whole size log := by
  induction done with
  | nil => rfl
  | cons d done ih =>
      rw [records, List.flatMap_cons, List.append_assoc, whole_pieces_append hpos]
      exact ih

/-- **A record begun in the middle of another one** is in no whole log. -/
theorem not_whole_of_begun (hpos : ∀ r, 0 < size r) (hr : 1 < size r) :
    ¬ Whole size [(⟨w, r, 0⟩ : Piece ι ρ), ⟨w', r', 0⟩] := by
  have hsecond : ∀ (v : ι) (q : ρ) (l l' : List (Piece ι ρ)),
      [(⟨w, r, 0⟩ : Piece ι ρ), ⟨w', r', 0⟩] ++ l = pieces size v q ++ l' → False := by
    intro v q l l' h
    obtain ⟨rest, hrest, hcase⟩ := pieces_eq_cons (w := v) (hpos q)
    rw [hrest] at h
    have hq : r = q := congrArg Piece.what (List.cons.inj h).1
    rcases hcase with rfl | ⟨rest', rfl⟩
    · have hlen := congrArg List.length hrest
      rw [pieces, List.length_map, List.length_range, ← hq] at hlen
      simp only [List.length_cons, List.length_nil] at hlen
      omega
    · have hindex := congrArg Piece.index (List.cons.inj (List.cons.inj h).2).1
      exact absurd hindex (by simp)
  rintro ⟨done, last, hlog, hlast⟩
  cases done with
  | nil =>
      rcases hlast with rfl | ⟨v, q, tail, htail⟩
      · cases hlog
      · refine hsecond v q tail [] ?_
        rw [List.append_nil, ← htail, hlog]
        rfl
  | cons d done =>
      refine hsecond d.1 d.2 [] (records size done ++ last) ?_
      rw [List.append_nil, hlog, records, List.flatMap_cons, List.append_assoc]
      rfl

end whole

section tidy

variable (size : ρ → ℕ) (pos : ι → Option (ρ × ℕ))

/-- A writer has written some of the pieces of its record, and has some left. -/
def Mid (x : Option (ρ × ℕ)) : Prop := ∃ r k, x = some (r, k) ∧ 0 < k ∧ k < size r

/-- The log is what the writers have written: `pos` tells the record of each of them and
how many of its pieces are written.  At most one writer is in the middle of its record. -/
def Tidy (log : List (Piece ι ρ)) : Prop :=
  ∃ done,
    (log = records size done ∧ ∀ w, ¬ Mid size (pos w)) ∨
      ∃ w r k, pos w = some (r, k) ∧ 0 < k ∧ k < size r ∧
        (∀ w', w' ≠ w → ¬ Mid size (pos w')) ∧ log = records size done ++ (pieces size w r).take k

variable {size} {pos} {log : List (Piece ι ρ)}

/-- A log in which no record is under way is whole. -/
theorem Tidy.whole (h : Tidy size pos log) : Whole size log := by
  obtain ⟨done, ⟨hlog, -⟩ | ⟨w, r, k, -, -, -, -, hlog⟩⟩ := h
  · exact ⟨done, [], by rw [hlog, List.append_nil], Or.inl rfl⟩
  · exact ⟨done, _, hlog, Or.inr ⟨w, r, List.take_prefix _ _⟩⟩

variable [DecidableEq ι]

/-- A writer begins a record, or is done with one. -/
theorem Tidy.turn (h : Tidy size pos log) {w : ι} {x : Option (ρ × ℕ)}
    (hw : ¬ Mid size (pos w)) (hx : ¬ Mid size x) :
    Tidy size (Function.update pos w x) log := by
  obtain ⟨done, ⟨hlog, hmid⟩ | ⟨v, r, k, hv, hk, hlt, hothers, hlog⟩⟩ := h
  · refine ⟨done, Or.inl ⟨hlog, fun w' => ?_⟩⟩
    by_cases hw' : w' = w
    · rw [hw', Function.update_self]
      exact hx
    · rw [Function.update_of_ne hw']
      exact hmid w'
  · have hne : v ≠ w := by
      rintro rfl
      exact hw ⟨r, k, hv, hk, hlt⟩
    refine ⟨done, Or.inr ⟨v, r, k, by rw [Function.update_of_ne hne, hv], hk, hlt, ?_, hlog⟩⟩
    intro w' hw'
    by_cases hww : w' = w
    · rw [hww, Function.update_self]
      exact hx
    · rw [Function.update_of_ne hww]
      exact hothers w' hw'

/-- **A piece is written** while nobody else is in the middle of a record. -/
theorem Tidy.write (h : Tidy size pos log) {w : ι} {r : ρ} {k : ℕ} (hw : pos w = some (r, k))
    (hlt : k < size r) (hothers : ∀ w', w' ≠ w → ¬ Mid size (pos w')) :
    Tidy size (Function.update pos w (some (r, k + 1))) (log ++ [⟨w, r, k⟩]) := by
  have hnot : ∀ w', w' ≠ w → ¬ Mid size (Function.update pos w (some (r, k + 1)) w') := by
    intro w' hne
    rw [Function.update_of_ne hne]
    exact hothers w' hne
  -- before the step, the log ends with what is written of this record
  have hbefore : ∃ done, log = records size done ++ (pieces size w r).take k := by
    obtain ⟨done, ⟨hlog, hmid⟩ | ⟨v, q, j, hv, hj, hjlt, -, hlog⟩⟩ := h
    · have hk : k = 0 := by
        by_contra hk
        exact hmid w ⟨r, k, hw, Nat.pos_of_ne_zero hk, hlt⟩
      exact ⟨done, by rw [hk, List.take_zero, List.append_nil, hlog]⟩
    · have hvw : v = w := by
        by_contra hne
        exact hothers v hne ⟨q, j, hv, hj, hjlt⟩
      subst hvw
      obtain ⟨rfl, rfl⟩ := Prod.mk.inj (Option.some.inj (hv.symm.trans hw))
      exact ⟨done, hlog⟩
  obtain ⟨done, hlog⟩ := hbefore
  have htake : (pieces size w r).take k ++ [⟨w, r, k⟩] = (pieces size w r).take (k + 1) := by
    have hlen : k < (pieces size w r).length := by simpa [pieces] using hlt
    rw [List.take_add_one, List.getElem?_eq_getElem hlen]
    simp [pieces]
  by_cases hend : k + 1 < size r
  · refine ⟨done, Or.inr ⟨w, r, k + 1, Function.update_self .., Nat.succ_pos k, hend, hnot, ?_⟩⟩
    rw [hlog, List.append_assoc, htake]
  · refine ⟨done ++ [(w, r)], Or.inl ⟨?_, fun w' => ?_⟩⟩
    · have hall : (pieces size w r).take (k + 1) = pieces size w r :=
        List.take_of_length_le (by simp only [pieces, List.length_map, List.length_range]; omega)
      rw [hlog, List.append_assoc, htake, hall]
      simp [records]
    · by_cases hne : w' = w
      · rw [hne, Function.update_self]
        rintro ⟨q, j, hq, -, hj⟩
        obtain ⟨rfl, rfl⟩ := Prod.mk.inj (Option.some.inj hq)
        exact hend hj
      · exact hnot w' hne

end tidy

end Lib
end GoSocket
