/-
# The idempotency key window

`keyWindow` of `internal/session.go`: a set of the last `max` claimed keys, as
a Go map and a slice of the keys in claim order with a head index.  A key
already in the set is refused and changes nothing; a new key is added, and the
oldest one leaves when the window is full.  `RawKeyWindow` is the struct,
`KeyWindow` the struct with what `claim` keeps: map and slice agree, the keys
in the slice are distinct and at most `max` (`RawKeyWindow.claim_wf`).

`Holds` relates a window to the log of all successful claims: it contains the
last `max` of them, and a claim succeeds iff its key is not among those.  Along
every sequence of claims this makes the window a FIFO set (`claim_fifo`).
-/

import GoSocket.Lib.HeadSlice
import Mathlib.Data.Finset.Basic
import Mathlib.Data.Finset.Lattice.Lemmas
import Mathlib.Data.List.DropRight

namespace GoSocket

open Lib

/-- `keyWindow`, the struct.  A nil map reads as the empty set. -/
structure RawKeyWindow where
  max : ℕ
  set : Finset String
  order : List String
  head : ℕ
  deriving DecidableEq

namespace RawKeyWindow

/-- The keys in the window, oldest first: `order[head:]`. -/
def content (k : RawKeyWindow) : List String := k.order.drop k.head

/-- `claim`: `false` when the key was already seen inside the window. -/
def claim (k : RawKeyWindow) (key : String) : RawKeyWindow × Bool :=
  if k.max = 0 then (k, true)
  else if key ∈ k.set then (k, false)
  else
    let set := insert key k.set
    let order := k.order ++ [key]
    if h : k.max < order.length - k.head then
      have : k.head < order.length := by omega
      let q := compact 64 (order.set k.head "") (k.head + 1)
      ({ k with set := set.erase order[k.head], order := q.1, head := q.2 }, true)
    else ({ k with set := set, order := order }, true)

/-- What `claim` keeps. -/
structure WF (k : RawKeyWindow) : Prop where
  head_le : k.head ≤ k.order.length
  set_eq : k.set = k.content.toFinset
  nodup : k.content.Nodup
  length_le : k.content.length ≤ k.max
  compacted : k.head < 64 ∨ 2 * k.head < k.order.length

namespace WF

variable {k : RawKeyWindow} {key : String}

/-- The keys after an append, oldest first. -/
theorem drop_append (h : k.WF) (key : String) :
    (k.order ++ [key]).drop k.head = k.content ++ [key] :=
  List.drop_append_of_le_length h.head_le

/-- An append makes the live window one longer. -/
theorem length_append (h : k.WF) (key : String) :
    (k.order ++ [key]).length - k.head = k.content.length + 1 := by
  rw [← List.length_drop, h.drop_append, List.length_append, List.length_singleton]

/-- Appending a key the set does not have keeps the window free of duplicates. -/
theorem nodup_append (h : k.WF) (hkey : key ∉ k.set) : (k.content ++ [key]).Nodup := by
  have hnew : key ∉ k.content := by
    rw [h.set_eq, List.mem_toFinset] at hkey
    exact hkey
  exact h.nodup.append (List.nodup_singleton key) (by simpa using hnew)

/-- The set of the appended window has the new key besides the old ones. -/
theorem insert_eq (h : k.WF) (key : String) : insert key k.set = (k.content ++ [key]).toFinset := by
  rw [h.set_eq, List.toFinset_append, Finset.union_comm]
  rfl

/-- The slot at `head` holds the oldest key. -/
theorem oldest (h : k.WF) (hlt : k.head < (k.order ++ [key]).length) {old : String}
    {rest : List String} (hcons : k.content ++ [key] = old :: rest) :
    (k.order ++ [key])[k.head] = old := by
  have := getElem?_head ((h.drop_append key).trans hcons)
  rwa [List.getElem?_eq_getElem hlt, Option.some.injEq] at this

/-- A key is added to a window that is not full. -/
theorem push (h : k.WF) (hkey : key ∉ k.set) (hroom : k.content.length < k.max) :
    WF { k with set := insert key k.set, order := k.order ++ [key] } := by
  have hcontent : content { k with set := insert key k.set, order := k.order ++ [key] } =
      k.content ++ [key] := h.drop_append key
  have hcompacted := h.compacted
  refine ⟨h.head_le.trans (by simp), ?_, ?_, ?_, ?_⟩
  · rw [hcontent]
    exact h.insert_eq key
  · rw [hcontent]
    exact h.nodup_append hkey
  · rw [hcontent, List.length_append, List.length_singleton]
    exact hroom
  · simp only [List.length_append, List.length_singleton]
    omega

/-- A key is added to a full window and the oldest key leaves it. -/
theorem rotate (h : k.WF) (hkey : key ∉ k.set) (hlt : k.head < (k.order ++ [key]).length) :
    WF { k with
      set := (insert key k.set).erase (k.order ++ [key])[k.head]
      order := (compact 64 ((k.order ++ [key]).set k.head "") (k.head + 1)).1
      head := (compact 64 ((k.order ++ [key]).set k.head "") (k.head + 1)).2 } := by
  obtain ⟨old, rest, hcons⟩ : ∃ old rest, k.content ++ [key] = old :: rest :=
    List.exists_cons_of_ne_nil (by simp)
  have hcontent : (compact 64 ((k.order ++ [key]).set k.head "") (k.head + 1)).1.drop
      (compact 64 ((k.order ++ [key]).set k.head "") (k.head + 1)).2 = rest := by
    rw [drop_compact, drop_pop, h.drop_append, hcons, List.tail_cons]
  have hnodup := h.nodup_append hkey
  rw [hcons, List.nodup_cons] at hnodup
  refine ⟨compact_le 64 ?_, ?_, ?_, ?_, compact_bound (by decide) _ _⟩
  · rw [List.length_set]
    omega
  · rw [content, hcontent, h.oldest hlt hcons, h.insert_eq, hcons, List.toFinset_cons,
      Finset.erase_insert (by simpa using hnodup.1)]
  · rw [content, hcontent]
    exact hnodup.2
  · have hlen : k.content.length + 1 = rest.length + 1 := by
      simpa using congrArg List.length hcons
    have hle := h.length_le
    rw [content, hcontent]
    show rest.length ≤ k.max
    omega

end WF

/-- A successful claim, as far as the content goes: the key joins at the back
and the oldest key leaves a full window. -/
theorem content_claim {k : RawKeyWindow} (h : k.WF) {key : String} (hmax : k.max ≠ 0)
    (hkey : key ∉ k.set) :
    (k.claim key).1.content =
      if k.content.length < k.max then k.content ++ [key] else (k.content ++ [key]).tail := by
  have hlen := h.length_append key
  simp only [claim, if_neg hmax, if_neg hkey]
  by_cases hfull : k.max < (k.order ++ [key]).length - k.head
  · rw [dif_pos hfull, if_neg (by omega), content, drop_compact, drop_pop, h.drop_append]
  · rw [dif_neg hfull, if_pos (by omega)]
    exact h.drop_append key

/-- A claim keeps the set, the order and the head index consistent. -/
theorem claim_wf {k : RawKeyWindow} (h : k.WF) (key : String) : (k.claim key).1.WF := by
  by_cases hmax : k.max = 0
  · simpa [claim, hmax] using h
  by_cases hkey : key ∈ k.set
  · simpa [claim, hmax, hkey] using h
  have hlen := h.length_append key
  simp only [claim, if_neg hmax, if_neg hkey]
  by_cases hfull : k.max < (k.order ++ [key]).length - k.head
  · rw [dif_pos hfull]
    exact h.rotate hkey (by omega)
  · rw [dif_neg hfull]
    exact h.push hkey (by omega)

/-- A claim keeps the window's size. -/
@[simp] theorem claim_max (k : RawKeyWindow) (key : String) : (k.claim key).1.max = k.max := by
  simp only [claim]
  split_ifs <;> rfl

end RawKeyWindow

/-- `keyWindow`: a struct that is well-formed. -/
structure KeyWindow where
  raw : RawKeyWindow
  wf : raw.WF
  deriving DecidableEq

namespace KeyWindow

/-- `keyWindow{max: …}`. -/
def new (max : ℕ) : KeyWindow where
  raw := ⟨max, ∅, [], 0⟩
  wf := ⟨le_rfl, rfl, List.nodup_nil, Nat.zero_le _, Or.inl (by simp)⟩

/-- The keys in the window, oldest first. -/
def content (k : KeyWindow) : List String := k.raw.content

/-- `claim`. -/
def claim (k : KeyWindow) (key : String) : KeyWindow × Bool :=
  (⟨(k.raw.claim key).1, RawKeyWindow.claim_wf k.wf key⟩, (k.raw.claim key).2)

/-- A claim keeps the window's size. -/
@[simp] theorem claim_max (k : KeyWindow) (key : String) :
    (k.claim key).1.raw.max = k.raw.max := RawKeyWindow.claim_max k.raw key

/-- The window contains the last `max` keys of the log. -/
def Holds (k : KeyWindow) (log : List String) : Prop := k.content = log.rtake k.raw.max

/-- A new window holds no key. -/
theorem holds_new (max : ℕ) : (new max).Holds [] := by
  show [] = List.rtake [] max
  rw [List.rtake_nil]

/-- Appending to a list shifts its last `n` elements by one. -/
theorem rtake_append_singleton (log : List String) (key : String) {n : ℕ} (hn : n ≠ 0) :
    (log ++ [key]).rtake n =
      if (log.rtake n).length < n then log.rtake n ++ [key] else (log.rtake n ++ [key]).tail := by
  obtain ⟨n, rfl⟩ := Nat.exists_eq_succ_of_ne_zero hn
  rw [Nat.succ_eq_add_one, List.rtake_concat_succ]
  simp only [List.rtake, List.length_drop]
  split_ifs with hlen
  · rw [show log.length - n = 0 by omega, show log.length - (n + 1) = 0 by omega]
  · rw [← List.drop_one, List.drop_append_of_le_length (by rw [List.length_drop]; omega),
      List.drop_drop, show log.length - (n + 1) + 1 = log.length - n by omega]

/-- **A claim against the log.**  It fails iff the key is among the last `max`
successful ones; a failed claim changes nothing, a successful one joins the log. -/
theorem Holds.claim {k : KeyWindow} {log : List String} (h : k.Holds log) (hmax : k.raw.max ≠ 0)
    (key : String) :
    (key ∈ log.rtake k.raw.max ∧ k.claim key = (k, false)) ∨
      (key ∉ log.rtake k.raw.max ∧ (k.claim key).2 = true ∧
        (k.claim key).1.Holds (log ++ [key])) := by
  have hset : key ∈ k.raw.set ↔ key ∈ log.rtake k.raw.max := by
    rw [k.wf.set_eq, List.mem_toFinset, ← h]
    rfl
  by_cases hkey : key ∈ k.raw.set
  · have hraw : k.raw.claim key = (k.raw, false) := by
      rw [RawKeyWindow.claim, if_neg hmax, if_pos hkey]
    refine Or.inl ⟨hset.1 hkey, ?_⟩
    simp only [KeyWindow.claim, hraw]
  · refine Or.inr ⟨fun hmem => hkey (hset.2 hmem), ?_, ?_⟩
    · simp only [KeyWindow.claim, RawKeyWindow.claim, if_neg hmax, if_neg hkey]
      split_ifs <;> rfl
    · show (k.raw.claim key).1.content = (log ++ [key]).rtake (k.raw.claim key).1.max
      rw [RawKeyWindow.claim_max, RawKeyWindow.content_claim k.wf hmax hkey,
        rtake_append_singleton log key hmax, ← h]
      rfl

/-- The last `max` keys of the log are distinct. -/
theorem Holds.nodup {k : KeyWindow} {log : List String} (h : k.Holds log) :
    (log.rtake k.raw.max).Nodup := h ▸ k.wf.nodup

end KeyWindow

namespace RawKeyWindow

/-- The window after a sequence of claims. -/
def claimAll (k : RawKeyWindow) (keys : List String) : RawKeyWindow :=
  keys.foldl (fun k key => (k.claim key).1) k

/-- The keys of the claims that returned `true`, in order. -/
def claimed (k : RawKeyWindow) : List String → List String
  | [] => []
  | key :: keys => (if (k.claim key).2 then [key] else []) ++ (k.claim key).1.claimed keys

/-- **A run against its log.**  After any sequence of claims the window is well-formed and
contains the last `max` keys that were claimed successfully. -/
theorem exists_holds (keys : List String) {k : KeyWindow} {log : List String} (h : k.Holds log)
    (hmax : k.raw.max ≠ 0) :
    ∃ k' : KeyWindow, k'.raw = k.raw.claimAll keys ∧ k'.raw.max = k.raw.max ∧
      k'.Holds (log ++ k.raw.claimed keys) := by
  -- the log grows by the key of each claim that succeeds
  induction keys generalizing k log with
  | nil => exact ⟨k, rfl, rfl, by rwa [claimed, List.append_nil]⟩
  | cons key keys ih =>
      have hmax' : (k.claim key).1.raw.max ≠ 0 := by rwa [KeyWindow.claim_max]
      have hlog : (k.claim key).1.Holds
          (log ++ if (k.raw.claim key).2 then [key] else []) := by
        rcases h.claim hmax key with ⟨-, hclaim⟩ | ⟨-, htrue, hholds⟩
        · have hfalse : (k.raw.claim key).2 = false := congrArg Prod.snd hclaim
          rw [hclaim, hfalse]
          simpa using h
        · rw [if_pos (show (k.raw.claim key).2 = true from htrue)]
          exact hholds
      obtain ⟨k', hraw, hmax'', hholds⟩ := ih hlog hmax'
      rw [KeyWindow.claim_max] at hmax''
      rw [List.append_assoc] at hholds
      exact ⟨k', hraw, hmax'', hholds⟩

/-- **The key window is a FIFO set.**  After any sequence of claims on an empty window, a claim
returns `false` iff its key is among the keys of the last `max` claims that returned `true`, and
then it changes nothing; the set is that of the keys in the slice, which are distinct and at most
`max`; and the slice is not much longer. -/
theorem claim_fifo (max : ℕ) (hmax : 1 ≤ max) (keys : List String) (key : String) :
    let start : RawKeyWindow := ⟨max, ∅, [], 0⟩
    let k := start.claimAll keys
    ((k.claim key).2 = false ↔ key ∈ (start.claimed keys).rtake max) ∧
      ((k.claim key).2 = false → (k.claim key).1 = k) ∧
      k.set = (k.order.drop k.head).toFinset ∧ (k.order.drop k.head).Nodup ∧
      (k.order.drop k.head).length ≤ max ∧ k.order.length ≤ max + Nat.max 63 max := by
  intro start k
  obtain ⟨w, hraw, hwmax, hholds⟩ :=
    exists_holds keys (KeyWindow.holds_new max) (Nat.one_le_iff_ne_zero.1 hmax)
  replace hraw : w.raw = k := hraw
  clear_value k
  subst hraw
  replace hwmax : w.raw.max = max := hwmax
  rw [List.nil_append] at hholds
  have hclaim := hholds.claim (by omega) key
  rw [hwmax] at hclaim
  have hlength : w.raw.content.length ≤ max := hwmax ▸ w.wf.length_le
  refine ⟨?_, ?_, w.wf.set_eq, w.wf.nodup, hlength,
    length_le_of_compacted hlength w.wf.compacted⟩
  · rcases hclaim with ⟨hin, heq⟩ | ⟨hout, htrue, -⟩
    · exact iff_of_true (congrArg Prod.snd heq) hin
    · exact iff_of_false (by rw [show (w.raw.claim key).2 = true from htrue]; decide) hout
  · intro hfalse
    rcases hclaim with ⟨-, heq⟩ | ⟨-, htrue, -⟩
    · exact congrArg (fun r => r.1.raw) heq
    · rw [show (w.raw.claim key).2 = true from htrue] at hfalse
      cases hfalse

/-- A window of one key: the empty key, beside a cleared slot, is refused, and the key that it
has pushed out is not. -/
theorem claim_fifo_evicted :
    let k := (RawKeyWindow.mk 1 ∅ [] 0).claimAll ["a", "a", ""]
    k.order = ["", ""] ∧ (k.claim "").2 = false ∧ (k.claim "a").2 ≠ false := by
  refine ⟨by decide, ?_, ?_⟩
  · exact (claim_fifo 1 le_rfl ["a", "a", ""] "").1.2 (by decide)
  · exact fun hfalse => absurd ((claim_fifo 1 le_rfl ["a", "a", ""] "a").1.1 hfalse) (by decide)

end RawKeyWindow
end GoSocket
