/-
# Records with a separator

Records are written one after the other with a separator between them, and read
back by splitting at every separator and skipping what is empty (`segments`).
Reading undoes writing when no record is empty or holds a separator
(`segments_intercalate`); the other way round, writing the segments of a text
again drops its empty ones and nothing else.

A writer need not collect its records first: it may append to a buffer and put a
separator before every record but the first (`foldl_append_sep`).

`forall₂_of_mapM` and `mapM_of_forall₂` say what a conversion that stops at its first
error has done.
-/

import Mathlib.Data.List.Forall2

namespace GoSocket
namespace Lib

section segments

variable {α : Type*} [DecidableEq α] (sep : α)

/-- What is between the separators of a text, without what is empty. -/
def segments (text : List α) : List (List α) := (text.splitOn sep).filter (· ≠ [])

/-- The segments are the parts that are not empty. -/
theorem mem_segments {text part : List α} :
    part ∈ segments sep text ↔ part ∈ text.splitOn sep ∧ part ≠ [] := by
  simp [segments]

/-- What is between two separators holds none. -/
theorem sep_notMem_of_mem_splitOn {text part : List α} (h : part ∈ text.splitOn sep) :
    sep ∉ part := by
  induction text generalizing part with
  | nil =>
      rw [List.splitOn_nil, List.mem_singleton] at h
      simp [h]
  | cons x text ih =>
      rw [List.splitOn_cons_eq_if_modifyHead] at h
      split_ifs at h with hx
      · rcases List.mem_cons.1 h with rfl | h
        · exact List.not_mem_nil
        · exact ih h
      · -- `x` is put before the first part
        cases hparts : text.splitOn sep with
        | nil => exact absurd hparts (List.splitOn_ne_nil sep text)
        | cons first parts =>
            rw [hparts] at h ih
            rcases List.mem_cons.1 h with rfl | h
            · rw [List.mem_cons, not_or]
              exact ⟨fun hsep => hx (by simp [hsep]), ih List.mem_cons_self⟩
            · exact ih (List.mem_cons_of_mem _ h)

/-- **Reading undoes writing.** -/
theorem segments_intercalate {records : List (List α)}
    (hsep : ∀ r ∈ records, sep ∉ r) (hne : ∀ r ∈ records, r ≠ []) :
    segments sep ([sep].intercalate records) = records := by
  by_cases hnil : records = []
  · subst hnil
    simp [segments, List.intercalate]
  · rw [segments, List.splitOn_intercalate sep hsep hnil]
    exact List.filter_eq_self.2 fun r hr => by simpa using hne r hr

end segments

section writer

variable {α : Type*} (sep : α)

/-- **A writer that puts a separator before every record but the first** writes what
joining the records gives. -/
theorem foldl_append_sep (first : List α) (rest : List (List α)) :
    rest.foldl (fun buf r => buf ++ sep :: r) first = [sep].intercalate (first :: rest) := by
  induction rest generalizing first with
  | nil => simp [List.intercalate]
  | cons r rest ih =>
      have hjoin : ∀ (q : List α) (qs : List (List α)),
          [sep].intercalate (q :: r :: qs) = q ++ sep :: [sep].intercalate (r :: qs) := by
        intro q qs
        simp [List.intercalate]
      rw [List.foldl_cons, ih, hjoin]
      cases rest with
      | nil => simp [List.intercalate]
      | cons r' rest => simp [List.intercalate]

end writer

section traverse

variable {α β ε : Type*} {f : α → Except ε β}

/-- A traversal that succeeds succeeds at each element. -/
theorem forall₂_of_mapM {l : List α} {r : List β} (h : l.mapM f = .ok r) :
    List.Forall₂ (fun a b => f a = .ok b) l r := by
  induction l generalizing r with
  | nil =>
      obtain rfl := Except.ok.inj h
      exact .nil
  | cons a l ih =>
      rw [List.mapM_cons] at h
      cases ha : f a with
      | error e =>
          rw [ha] at h
          cases h
      | ok b =>
          cases hl : l.mapM f with
          | error e =>
              rw [ha, hl] at h
              cases h
          | ok bs =>
              rw [ha, hl] at h
              obtain rfl := Except.ok.inj h
              exact .cons ha (ih hl)

/-- A traversal succeeds when it succeeds at each element. -/
theorem mapM_of_forall₂ {l : List α} {r : List β}
    (h : List.Forall₂ (fun a b => f a = .ok b) l r) : l.mapM f = .ok r := by
  induction h with
  | nil => rfl
  | cons ha _ ih =>
      rw [List.mapM_cons, ha, ih]
      rfl

end traverse

end Lib
end GoSocket
