/-
# Logs numbered from one

A log whose entries carry their positions, counted from one, and the parts of
it a consumer can be given.  `Numbered key log` says that the keys of the
entries are 1, 2, 3, …; a suffix of such a log is known by where it starts, and
cutting it by key is cutting it by position (`filter_drop`, `dropWhile_drop`).

`receive` is a consumer that ignores what it has seen: it remembers the largest
key it has handled and handles only what is above.  Given entries of the log, in
any order and any number of times, as long as none of them lies beyond the next
one it waits for, it handles exactly a prefix of the log (`UpTo.receive`).
-/

import Mathlib.Data.List.Basic
import Mathlib.Data.List.Infix
import Mathlib.Data.List.TakeWhile

namespace GoSocket
namespace Lib

universe u

variable {ε : Type u} {key : ε → ℕ} {log : List ε}

/-- The entries carry the numbers 1, 2, 3, …. -/
def Numbered (key : ε → ℕ) (log : List ε) : Prop := log.map key = List.range' 1 log.length

namespace Numbered

/-- The entry at index `i` has the number `i + 1`. -/
theorem key_getElem (h : Numbered key log) {i : ℕ} {e : ε} (he : log[i]? = some e) :
    key e = i + 1 := by
  have hi : (log.map key)[i]? = some (key e) := by
    rw [List.getElem?_map, he, Option.map_some]
  rw [h] at hi
  obtain ⟨hlt, hval⟩ := List.getElem?_eq_some_iff.1 hi
  rw [List.getElem_range'] at hval
  omega

/-- A key stands for one entry. -/
theorem eq_of_key_eq (h : Numbered key log) {e e' : ε} (he : e ∈ log) (he' : e' ∈ log)
    (hkey : key e = key e') : e = e' := by
  obtain ⟨i, hi⟩ := List.mem_iff_getElem?.1 he
  obtain ⟨j, hj⟩ := List.mem_iff_getElem?.1 he'
  rw [h.key_getElem hi, h.key_getElem hj, Nat.add_right_cancel_iff] at hkey
  rw [hkey, hj] at hi
  exact (Option.some.inj hi).symm

/-- What is left after the first `k` entries has the keys above `k`. -/
theorem exists_mem_drop (h : Numbered key log) {k j : ℕ} :
    (∃ e ∈ log.drop k, key e = j) ↔ k < j ∧ j ≤ log.length := by
  constructor
  · rintro ⟨e, he, rfl⟩
    obtain ⟨i, hi⟩ := List.mem_iff_getElem?.1 he
    rw [List.getElem?_drop] at hi
    have hlt := (List.getElem?_eq_some_iff.1 hi).1
    have := h.key_getElem hi
    omega
  · rintro ⟨hkj, hj⟩
    obtain ⟨e, he⟩ : ∃ e, log[j - 1]? = some e :=
      ⟨_, List.getElem?_eq_getElem (show j - 1 < log.length by omega)⟩
    refine ⟨e, List.mem_iff_getElem?.2 ⟨j - 1 - k, ?_⟩, by rw [h.key_getElem he]; omega⟩
    rw [List.getElem?_drop, show k + (j - 1 - k) = j - 1 by omega, he]

/-- The entries past the first `k` have numbers above `k`. -/
theorem lt_key_of_mem_drop (h : Numbered key log) {k : ℕ} {e : ε} (he : e ∈ log.drop k) :
    k < key e := (h.exists_mem_drop.1 ⟨e, he, rfl⟩).1

/-- The entries up to number `n` have numbers of at most `n`. -/
theorem key_le_of_mem_take (h : Numbered key log) {k n : ℕ} {e : ε}
    (he : e ∈ (log.drop k).take (n - k)) : key e ≤ n := by
  obtain ⟨i, hi⟩ := List.mem_iff_getElem?.1 he
  rw [List.getElem?_take, List.getElem?_drop] at hi
  split_ifs at hi with hin
  rw [h.key_getElem hi]
  omega

/-- A suffix cut in two at the key `n`. -/
theorem take_append_drop (log : List ε) (k n : ℕ) :
    (log.drop k).take (n - k) ++ log.drop (max k n) = log.drop k := by
  rw [show max k n = k + (n - k) by omega, ← List.drop_drop, List.take_append_drop]

/-- The entries of a suffix with a key above `n`. -/
theorem filter_drop (h : Numbered key log) (k n : ℕ) :
    (log.drop k).filter (fun e => n < key e) = log.drop (max k n) := by
  rw [← take_append_drop log k n, List.filter_append]
  have hlow : ((log.drop k).take (n - k)).filter (fun e => n < key e) = [] := by
    refine List.filter_eq_nil_iff.2 fun e he => ?_
    simpa using h.key_le_of_mem_take he
  have hhigh : (log.drop (max k n)).filter (fun e => n < key e) = log.drop (max k n) := by
    refine List.filter_eq_self.2 fun e he => ?_
    simpa using (le_max_right k n).trans_lt (h.lt_key_of_mem_drop he)
  rw [hlow, hhigh, List.nil_append]

/-- Dropping the leading entries with a key of at most `n` from a suffix. -/
theorem dropWhile_drop (h : Numbered key log) (k n : ℕ) :
    (log.drop k).dropWhile (fun e => key e ≤ n) = log.drop (max k n) := by
  rw [← take_append_drop log k n, List.dropWhile_append_of_pos fun e he => by
    simpa using h.key_le_of_mem_take he]
  refine List.dropWhile_eq_self_iff.2 fun hlen => ?_
  simpa using (le_max_right k n).trans_lt (h.lt_key_of_mem_drop (List.getElem_mem hlen))

/-- The keys of a piece of the log. -/
theorem map_key_of_prefix (h : Numbered key log) {l : List ε} {a : ℕ} (hl : l <+: log.drop a) :
    l.map key = List.range' (a + 1) l.length := by
  refine List.ext_getElem? fun i => ?_
  by_cases hi : i < l.length
  · obtain ⟨rest, hrest⟩ := hl
    have hlog : log[a + i]? = some l[i] := by
      rw [← List.getElem?_drop, ← hrest, List.getElem?_append_left hi, List.getElem?_eq_getElem hi]
    rw [List.getElem?_map, List.getElem?_eq_getElem hi, Option.map_some, h.key_getElem hlog,
      List.getElem?_range' hi]
    congr 1
    omega
  · rw [List.getElem?_eq_none (by simpa using hi), List.getElem?_eq_none (by simpa using hi)]

end Numbered

/-- A consumer: the largest key it has handled, and what it has handled. -/
structure Receiver (ε : Type u) where
  last : ℕ
  handled : List ε
  deriving DecidableEq

namespace Receiver

/-- A consumer that has seen nothing. -/
def empty : Receiver ε := ⟨0, []⟩

/-- Ignore an entry that was handled before, handle any other. -/
def receive (key : ε → ℕ) (r : Receiver ε) (e : ε) : Receiver ε :=
  if key e ≤ r.last then r else ⟨key e, r.handled ++ [e]⟩

/-- The consumer has handled exactly the entries up to its largest key. -/
structure UpTo (r : Receiver ε) (log : List ε) : Prop where
  last_le : r.last ≤ log.length
  handled_eq : r.handled = log.take r.last

/-- A receiver of nothing is up to date with nothing. -/
theorem upTo_empty (log : List ε) : (empty : Receiver ε).UpTo log :=
  ⟨Nat.zero_le _, by simp [empty]⟩

/-- The log may grow. -/
theorem UpTo.append {r : Receiver ε} (h : r.UpTo log) (es : List ε) : r.UpTo (log ++ es) where
  last_le := h.last_le.trans (by simp)
  handled_eq := by rw [h.handled_eq, List.take_append_of_le_length h.last_le]

/-- **An entry not beyond the next one** keeps the consumer at a prefix of the
log, and takes it past that entry. -/
theorem UpTo.receive {r : Receiver ε} (h : r.UpTo log) (hlog : Numbered key log) {i : ℕ} {e : ε}
    (he : log[i]? = some e) (hi : i ≤ r.last) :
    (r.receive key e).UpTo log ∧ (r.receive key e).last = max r.last (i + 1) := by
  have hkey := hlog.key_getElem he
  unfold Receiver.receive
  split_ifs with hseen
  · exact ⟨h, by omega⟩
  · obtain rfl : i = r.last := by omega
    refine ⟨⟨?_, ?_⟩, ?_⟩
    · rw [hkey]
      exact (List.getElem?_eq_some_iff.1 he).1
    · rw [hkey, h.handled_eq, List.take_add_one, he, Option.toList_some]
    · rw [hkey]
      exact (max_eq_right (Nat.le_succ _)).symm

/-- A receiver does not go back. -/
theorem last_le_receive (key : ε → ℕ) (r : Receiver ε) (e : ε) :
    r.last ≤ (r.receive key e).last := by
  unfold Receiver.receive
  split_ifs with hseen
  · exact le_rfl
  · exact (not_le.1 hseen).le

/-- **Reading a wire.**  The wire `w` carries the log from position `a` on, mixed
with entries `p` rejects; the consumer has read its first `i` entries.  Reading
one more keeps the consumer at a prefix of the log and level with the wire. -/
theorem UpTo.read {r : Receiver ε} (h : r.UpTo log) (hlog : Numbered key log) {p : ε → Bool}
    {w : List ε} {a i : ℕ} (hw : w.filter p <+: log.drop a)
    (hpos : a + ((w.take i).filter p).length ≤ r.last) {e : ε} (he : w[i]? = some e)
    (hskip : p e = false → key e ≤ r.last) :
    (r.receive key e).UpTo log ∧
      a + ((w.take (i + 1)).filter p).length ≤ (r.receive key e).last := by
  rw [List.take_add_one, he, Option.toList_some, List.filter_append, List.length_append]
  cases hp : p e with
  | false =>
      have hsame : r.receive key e = r := if_pos (hskip hp)
      rw [hsame, List.filter_cons_of_neg (by simp [hp])]
      exact ⟨h, by simpa using hpos⟩
  | true =>
      -- the entry is the next one the wire carries of the log
      have hnext : log[a + ((w.take i).filter p).length]? = some e := by
        obtain ⟨hi, -⟩ := List.getElem?_eq_some_iff.1 he
        have hsplit : w.filter p = (w.take i).filter p ++ e :: (w.drop (i + 1)).filter p := by
          conv_lhs => rw [← List.take_append_drop i w, List.filter_append,
            List.drop_eq_getElem_cons hi]
          rw [(List.getElem?_eq_some_iff.1 he).2, List.filter_cons_of_pos hp]
        obtain ⟨rest, hrest⟩ := hw
        rw [← List.getElem?_drop, ← hrest, hsplit, List.append_assoc,
          List.getElem?_append_right le_rfl, Nat.sub_self]
        rfl
      obtain ⟨hup, hlast⟩ := h.receive hlog hnext hpos
      refine ⟨hup, ?_⟩
      rw [hlast, List.filter_cons_of_pos hp]
      simp only [List.filter_nil, List.length_singleton]
      omega

end Receiver
end Lib
end GoSocket
