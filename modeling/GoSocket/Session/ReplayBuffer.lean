/-
# The replay buffer

`replayEntry` and `replayBuffer` of `internal/session.go`.

The buffer is a slice with a head index and two caps, `maxMsgs` entries and
`maxBytes` bytes.  `RawReplayBuffer` is the Go struct with its operations as
the code performs them; an operation is `none` where Go would panic on an
index out of range, and the loops of `push` and `ackUpTo` run on as much fuel
as there are entries.  `ReplayBuffer` adds what the operations keep
(`RawReplayBuffer.WF`): the counter is the size of the content modulo `2^64`,
there are at most `maxMsgs` entries, and the dead part of the slice is short.
On it no index is out of range and no loop runs dry, so `push` and `ackUpTo`
are total (`evict_eq`, `ackLoop_eq`).

What a buffer means is its `content`, oldest entry first.  `content_push` and
`content_ackUpTo` say what the operations do to it: a push keeps the longest
suffix that the comparisons accept (`Fits`), an oversized frame clears
everything, an ack drops the leading entries it covers.

`bytes` and `maxBytes` are `int64` and wrap, so `Fits` is about the counter and
not about the size; when the two agree is the subject of
`GoSocket.Session.ReplayBytes`.  Sequence numbers are `uint64` in the source and
`ℕ` here: a session does not live to commit `2^64` frames.  The number of
entries is an `int` and `ℕ` here: a slice has fewer than `2^63` elements.
-/

import GoSocket.Lib.HeadSlice
import GoSocket.Session.Frame
import Mathlib.Algebra.BigOperators.Group.List.Basic
import Mathlib.Algebra.GroupWithZero.Nat

namespace GoSocket

open Lib

/-- `replayEntry`. -/
structure ReplayEntry where
  seq : ℕ
  data : Bytes
  deriving DecidableEq, Repr, Inhabited

/-- `replayBuffer`, the struct. -/
structure RawReplayBuffer where
  entries : List ReplayEntry
  head : ℕ
  bytes : Int64
  maxMsgs : ℕ
  maxBytes : Int64
  deriving DecidableEq

namespace RawReplayBuffer

/-- `len`. -/
def len (b : RawReplayBuffer) : ℕ := b.entries.length - b.head

/-- The logical content `entries[head:]`. -/
def content (b : RawReplayBuffer) : List ReplayEntry := b.entries.drop b.head

/-- The bytes a list of entries takes. -/
def size (l : List ReplayEntry) : ℕ := (l.map fun e => e.data.length).sum

/-- `reset`. -/
def reset (b : RawReplayBuffer) : RawReplayBuffer := { b with entries := [], head := 0, bytes := 0 }

/-- `dropOldest`; `none` is the panic on `b.entries[b.head]`. -/
def dropOldest (b : RawReplayBuffer) : Option RawReplayBuffer :=
  match b.entries[b.head]? with
  | none => none
  | some e =>
      let bytes := b.bytes - Int64.ofNat e.data.length
      let entries := b.entries.set b.head default
      let head := b.head + 1
      if head = entries.length then some { b with entries := [], head := 0, bytes := bytes }
      else
        let q := compact 64 entries head
        some { b with entries := q.1, head := q.2, bytes := bytes }

/-- The loop of `push`: drop the oldest entry while a cap is exceeded. -/
def evict : ℕ → RawReplayBuffer → Option RawReplayBuffer
  | fuel, b =>
      if b.maxMsgs < b.len ∨ b.maxBytes < b.bytes then
        match fuel with
        | 0 => none
        | fuel + 1 => b.dropOldest.bind (evict fuel)
      else some b

/-- The buffer after the `append` of `push`. -/
def append (b : RawReplayBuffer) (seq : ℕ) (data : Bytes) : RawReplayBuffer :=
  { b with
    entries := b.entries ++ [⟨seq, data⟩], bytes := b.bytes + Int64.ofNat data.length }

/-- `push`. -/
def push (b : RawReplayBuffer) (seq : ℕ) (data : Bytes) : Option RawReplayBuffer :=
  if b.maxBytes < Int64.ofNat data.length then some b.reset
  else (b.append seq data).evict (b.append seq data).len

/-- The loop of `ackUpTo`. -/
def ackLoop (seq : ℕ) : ℕ → RawReplayBuffer → Option RawReplayBuffer
  | fuel, b =>
      if 0 < b.len then
        match b.entries[b.head]? with
        | none => none
        | some e =>
            if e.seq ≤ seq then
              match fuel with
              | 0 => none
              | fuel + 1 => b.dropOldest.bind (ackLoop seq fuel)
            else some b
      else some b

/-- `ackUpTo`. -/
def ackUpTo (b : RawReplayBuffer) (seq : ℕ) : Option RawReplayBuffer := ackLoop seq b.len b

/-- `replayBuffer{maxMsgs: …, maxBytes: …}`. -/
def new (maxMsgs : ℕ) (maxBytes : Int64) : RawReplayBuffer := ⟨[], 0, 0, maxMsgs, maxBytes⟩

/-- What `dropOldest` keeps, also between two rounds of the `push` loop, when a
cap may be exceeded: the index is in range, the counter is the size modulo
`2^64`, and the dead part is under 64 slots or under half of the slice. -/
structure Sound (b : RawReplayBuffer) : Prop where
  head_le : b.head ≤ b.entries.length
  bytes_eq : b.bytes = Int64.ofNat (size b.content)
  compacted : b.head < 64 ∨ 2 * b.head < b.entries.length

/-- The comparisons of the `push` loop accept this content. -/
def Fits (b : RawReplayBuffer) (l : List ReplayEntry) : Prop :=
  l.length ≤ b.maxMsgs ∧ Int64.ofNat (size l) ≤ b.maxBytes

instance (b : RawReplayBuffer) : DecidablePred b.Fits :=
  fun l => inferInstanceAs (Decidable (l.length ≤ b.maxMsgs ∧ Int64.ofNat (size l) ≤ b.maxBytes))

/-- Well-formed buffers: what holds between two operations. -/
structure WF (b : RawReplayBuffer) : Prop extends Sound b where
  maxMsgs_pos : 0 < b.maxMsgs
  maxBytes_pos : 0 < b.maxBytes
  length_le : b.content.length ≤ b.maxMsgs

@[simp] theorem size_nil : size [] = 0 := rfl

/-- The bytes of an entry and those after it. -/
@[simp] theorem size_cons (e : ReplayEntry) (l : List ReplayEntry) :
    size (e :: l) = e.data.length + size l := by simp [size]

/-- The bytes of two lists of entries. -/
@[simp] theorem size_append (l l' : List ReplayEntry) : size (l ++ l') = size l + size l' := by
  simp [size]

/-- An empty buffer is well-formed. -/
theorem WF.of_new {maxMsgs : ℕ} {maxBytes : Int64} (hmsgs : 0 < maxMsgs) (hbytes : 0 < maxBytes) :
    (new maxMsgs maxBytes).WF where
  head_le := le_rfl
  bytes_eq := rfl
  compacted := Or.inl (Nat.zero_lt_succ _)
  maxMsgs_pos := hmsgs
  maxBytes_pos := hbytes
  length_le := Nat.zero_le _

/-- `len` counts the live entries. -/
theorem len_eq (b : RawReplayBuffer) : b.len = b.content.length := (List.length_drop ..).symm

/-- An empty content is always accepted. -/
theorem fits_nil {b : RawReplayBuffer} (h : 0 < b.maxBytes) : b.Fits [] :=
  ⟨Nat.zero_le _, Int64.le_of_lt h⟩

/-- The loop of `push` ends when the content is accepted. -/
theorem exceeds_iff {b : RawReplayBuffer} (h : b.Sound) :
    (b.maxMsgs < b.len ∨ b.maxBytes < b.bytes) ↔ ¬b.Fits b.content := by
  rw [Fits, len_eq, h.bytes_eq, not_and_or, not_le, Int64.not_le]

/-- Buffers with the same caps accept the same content. -/
theorem fits_congr {b b' : RawReplayBuffer} (hmsgs : b'.maxMsgs = b.maxMsgs)
    (hbytes : b'.maxBytes = b.maxBytes) : b'.Fits = b.Fits := by
  funext l
  rw [Fits, Fits, hmsgs, hbytes]

/-- **`dropOldest` pops the front of the content** and keeps the caps. -/
theorem dropOldest_eq {b : RawReplayBuffer} (h : b.Sound) {e : ReplayEntry} {l : List ReplayEntry}
    (hc : b.content = e :: l) :
    ∃ b', b.dropOldest = some b' ∧ b'.content = l ∧ b'.Sound ∧ b'.maxMsgs = b.maxMsgs ∧
      b'.maxBytes = b.maxBytes := by
  have hget : b.entries[b.head]? = some e := getElem?_head hc
  have htail : b.entries.drop (b.head + 1) = l := by
    rw [← List.tail_drop]
    exact congrArg List.tail hc
  have hbytes : b.bytes - Int64.ofNat e.data.length = Int64.ofNat (size l) := by
    rw [h.bytes_eq, hc, size_cons, ← Int64.ofNat_sub _ _ (Nat.le_add_right ..),
      Nat.add_sub_cancel_left]
  have hpop : (b.entries.set b.head default).drop (b.head + 1) = l := by
    rw [drop_pop, List.tail_drop, htail]
  simp only [dropOldest, hget]
  split_ifs with hend
  · have hl : l = [] := by
      rw [← hpop, hend]
      exact List.drop_length
    refine ⟨_, rfl, hl ▸ rfl, ⟨le_rfl, ?_, Or.inl (by simp)⟩, rfl, rfl⟩
    rw [hbytes, hl]
    rfl
  · have hlt := (List.getElem?_eq_some_iff.1 hget).1
    have hle : b.head + 1 ≤ (b.entries.set b.head default).length := by
      rw [List.length_set]
      omega
    refine ⟨_, rfl, ?_, ⟨compact_le 64 hle, ?_, compact_bound (by decide) _ _⟩, rfl, rfl⟩
    · exact (drop_compact ..).trans hpop
    · rw [hbytes, content, drop_compact, hpop]

/-- **The `push` loop ends**, with the longest suffix of the content that fits. -/
theorem evict_eq {b : RawReplayBuffer} (h : b.Sound) (hpos : 0 < b.maxBytes) {fuel : ℕ}
    (hf : b.content.length ≤ fuel) :
    ∃ b', b.evict fuel = some b' ∧ b'.content = longestSuffix b.Fits b.content ∧ b'.Sound ∧
      b'.maxMsgs = b.maxMsgs ∧ b'.maxBytes = b.maxBytes := by
  -- a content that is accepted stays as it is, whatever fuel is left
  have hstop : ∀ {b : RawReplayBuffer} (fuel : ℕ), b.Sound → b.Fits b.content →
      ∃ b', b.evict fuel = some b' ∧ b'.content = longestSuffix b.Fits b.content ∧ b'.Sound ∧
        b'.maxMsgs = b.maxMsgs ∧ b'.maxBytes = b.maxBytes := by
    intro b fuel h hfit
    have hdone : ¬(b.maxMsgs < b.len ∨ b.maxBytes < b.bytes) := by
      rw [exceeds_iff h]
      exact not_not.2 hfit
    refine ⟨b, ?_, (longestSuffix_of_pos hfit).symm, h, rfl, rfl⟩
    cases fuel <;> rw [evict, if_neg hdone]
  induction fuel generalizing b with
  | zero =>
      have hnil : b.content = [] := List.length_eq_zero_iff.1 (Nat.le_zero.1 hf)
      exact hstop 0 h (hnil ▸ fits_nil hpos)
  | succ fuel ih =>
      by_cases hfit : b.Fits b.content
      · exact hstop (fuel + 1) h hfit
      · cases hc : b.content with
        | nil => exact absurd (hc ▸ fits_nil hpos) hfit
        | cons e l =>
            obtain ⟨b₁, hb₁, hc₁, hs₁, hm₁, hx₁⟩ := dropOldest_eq h hc
            have hf₁ : b₁.content.length ≤ fuel := by
              rw [hc₁]
              rw [hc, List.length_cons] at hf
              omega
            obtain ⟨b₂, hb₂, hc₂, hs₂, hm₂, hx₂⟩ := ih hs₁ (hx₁ ▸ hpos) hf₁
            refine ⟨b₂, ?_, ?_, hs₂, hm₂.trans hm₁, hx₂.trans hx₁⟩
            · rw [evict, if_pos ((exceeds_iff h).2 hfit), hb₁, Option.bind_some, hb₂]
            · rw [hc] at hfit
              rw [hc₂, hc₁, longestSuffix, if_neg hfit]
              congr! 1
              exact fits_congr hm₁ hx₁

/-- **The `ackUpTo` loop ends**, having dropped the leading entries up to `seq`. -/
theorem ackLoop_eq {b : RawReplayBuffer} (seq : ℕ) (h : b.Sound) {fuel : ℕ}
    (hf : b.content.length ≤ fuel) :
    ∃ b', ackLoop seq fuel b = some b' ∧
      b'.content = b.content.dropWhile (fun e => decide (e.seq ≤ seq)) ∧ b'.Sound ∧
      b'.maxMsgs = b.maxMsgs ∧ b'.maxBytes = b.maxBytes := by
  induction fuel generalizing b with
  | zero =>
      have hnil : b.content = [] := List.length_eq_zero_iff.1 (Nat.le_zero.1 hf)
      have hlen : ¬0 < b.len := by rw [len_eq, hnil]; simp
      exact ⟨b, by rw [ackLoop, if_neg hlen], by rw [hnil]; rfl, h, rfl, rfl⟩
  | succ fuel ih =>
      cases hc : b.content with
      | nil =>
          have hlen : ¬0 < b.len := by rw [len_eq, hc]; simp
          exact ⟨b, by rw [ackLoop, if_neg hlen], hc, h, rfl, rfl⟩
      | cons e l =>
          have hlen : 0 < b.len := by rw [len_eq, hc]; simp
          have hget : b.entries[b.head]? = some e := getElem?_head hc
          by_cases hle : e.seq ≤ seq
          · obtain ⟨b₁, hb₁, hc₁, hs₁, hm₁, hx₁⟩ := dropOldest_eq h hc
            have hf₁ : b₁.content.length ≤ fuel := by
              rw [hc₁]
              rw [hc, List.length_cons] at hf
              omega
            obtain ⟨b₂, hb₂, hc₂, hs₂, hm₂, hx₂⟩ := ih hs₁ hf₁
            refine ⟨b₂, ?_, ?_, hs₂, hm₂.trans hm₁, hx₂.trans hx₁⟩
            · simp only [ackLoop, if_pos hlen, hget, if_pos hle, hb₁, Option.bind_some, hb₂]
            · rw [hc₂, hc₁, List.dropWhile_cons_of_pos (by simpa using hle)]
          · refine ⟨b, ?_, ?_, h, rfl, rfl⟩
            · simp only [ackLoop, if_pos hlen, hget, if_neg hle]
            · rw [hc, List.dropWhile_cons_of_neg (by simpa using hle)]

/-- The `append` of `push` puts the frame behind the content, and counts it. -/
theorem sound_append {b : RawReplayBuffer} (h : b.Sound) (seq : ℕ) (data : Bytes) :
    (b.append seq data).Sound ∧ (b.append seq data).content = b.content ++ [⟨seq, data⟩] := by
  have hcontent : (b.append seq data).content = b.content ++ [⟨seq, data⟩] :=
    List.drop_append_of_le_length h.head_le
  refine ⟨⟨h.head_le.trans (by simp [append]), ?_, ?_⟩, hcontent⟩
  · rw [hcontent, size_append, size_cons, size_nil, Nat.add_zero, Int64.ofNat_add, ← h.bytes_eq]
    rfl
  · have hcompacted := h.compacted
    simp only [append, List.length_append, List.length_singleton]
    omega

/-- `push` on a well-formed buffer: it returns, the result is well-formed, and
the content is empty or the longest suffix that fits. -/
theorem push_eq {b : RawReplayBuffer} (h : b.WF) (seq : ℕ) (data : Bytes) :
    ∃ b', b.push seq data = some b' ∧ b'.WF ∧ b'.maxMsgs = b.maxMsgs ∧
      b'.maxBytes = b.maxBytes ∧
      b'.content = if b.maxBytes < Int64.ofNat data.length then []
        else longestSuffix b.Fits (b.content ++ [⟨seq, data⟩]) := by
  unfold push
  split_ifs with hbig
  · exact ⟨_, rfl, ⟨⟨le_rfl, rfl, Or.inl (by simp [reset])⟩, h.maxMsgs_pos, h.maxBytes_pos,
      Nat.zero_le _⟩, rfl, rfl, rfl⟩
  · obtain ⟨hs₁, hc₁⟩ := sound_append h.toSound seq data
    obtain ⟨b₂, he, hc₂, hs₂, hm₂, hx₂⟩ :=
      evict_eq hs₁ h.maxBytes_pos (len_eq (b.append seq data)).ge
    refine ⟨b₂, he, ⟨hs₂, ?_, ?_, ?_⟩, hm₂, hx₂, ?_⟩
    · rw [hm₂]
      exact h.maxMsgs_pos
    · rw [hx₂]
      exact h.maxBytes_pos
    · rw [hc₂, hm₂]
      exact (longestSuffix_pos (p := (b.append seq data).Fits) (fits_nil h.maxBytes_pos) _).1
    · rw [hc₂, hc₁]
      rfl

/-- `ackUpTo` on a well-formed buffer. -/
theorem ackUpTo_eq {b : RawReplayBuffer} (h : b.WF) (seq : ℕ) :
    ∃ b', b.ackUpTo seq = some b' ∧ b'.WF ∧ b'.maxMsgs = b.maxMsgs ∧ b'.maxBytes = b.maxBytes ∧
      b'.content = b.content.dropWhile (fun e => decide (e.seq ≤ seq)) := by
  obtain ⟨b', hb, hc, hs, hm, hx⟩ := ackLoop_eq seq h.toSound (len_eq b).ge
  have hsuffix : b'.content <:+ b.content := hc ▸ List.dropWhile_suffix _
  refine ⟨b', hb, ⟨hs, hm ▸ h.maxMsgs_pos, hx ▸ h.maxBytes_pos, ?_⟩, hm, hx, hc⟩
  rw [hm]
  exact hsuffix.length_le.trans h.length_le

end RawReplayBuffer

/-- `replayBuffer`: a struct that is well-formed. -/
structure ReplayBuffer where
  raw : RawReplayBuffer
  wf : raw.WF
  deriving DecidableEq

namespace ReplayBuffer

/-- `replayBuffer{maxMsgs: …, maxBytes: …}`. -/
def new (maxMsgs : ℕ) (maxBytes : Int64) (hmsgs : 0 < maxMsgs) (hbytes : 0 < maxBytes) :
    ReplayBuffer where
  raw := .new maxMsgs maxBytes
  wf := .of_new hmsgs hbytes

/-- The logical content, oldest entry first. -/
def content (b : ReplayBuffer) : List ReplayEntry := b.raw.content

/-- `push`. -/
def push (b : ReplayBuffer) (seq : ℕ) (data : Bytes) : ReplayBuffer where
  raw := (b.raw.push seq data).get (by
    obtain ⟨b', hb, -⟩ := RawReplayBuffer.push_eq b.wf seq data
    simp [hb])
  wf := by
    obtain ⟨b', hb, hwf, -⟩ := RawReplayBuffer.push_eq b.wf seq data
    simp only [hb, Option.get_some]
    exact hwf

/-- `ackUpTo`. -/
def ackUpTo (b : ReplayBuffer) (seq : ℕ) : ReplayBuffer where
  raw := (b.raw.ackUpTo seq).get (by
    obtain ⟨b', hb, -⟩ := RawReplayBuffer.ackUpTo_eq b.wf seq
    simp [hb])
  wf := by
    obtain ⟨b', hb, hwf, -⟩ := RawReplayBuffer.ackUpTo_eq b.wf seq
    simp only [hb, Option.get_some]
    exact hwf

/-- `covers`. -/
def covers (b : ReplayBuffer) (lastSeq : ℕ) : Bool :=
  0 < b.raw.len && (b.raw.entries[b.raw.head]?).any fun e => e.seq ≤ lastSeq + 1

/-- `after`. -/
def after (b : ReplayBuffer) (seq : ℕ) : List ReplayEntry :=
  (b.raw.entries.drop b.raw.head).filter fun e => seq < e.seq

/-- **What a push does.**  An oversized frame leaves nothing; otherwise the
content is the longest suffix of the old content and the new frame that the
comparisons accept. -/
theorem content_push (b : ReplayBuffer) (seq : ℕ) (data : Bytes) :
    (b.push seq data).content = if b.raw.maxBytes < Int64.ofNat data.length then []
      else longestSuffix b.raw.Fits (b.content ++ [⟨seq, data⟩]) := by
  obtain ⟨b', hb, -, -, -, hc⟩ := RawReplayBuffer.push_eq b.wf seq data
  simp only [push, content, hb, Option.get_some]
  exact hc

/-- The content after a push is a suffix of the old content and the new frame. -/
theorem content_push_suffix (b : ReplayBuffer) (seq : ℕ) (data : Bytes) :
    (b.push seq data).content <:+ b.content ++ [⟨seq, data⟩] := by
  rw [content_push]
  split_ifs
  · exact List.nil_suffix
  · exact longestSuffix_suffix _ _

/-- A push keeps the caps. -/
@[simp] theorem push_caps (b : ReplayBuffer) (seq : ℕ) (data : Bytes) :
    (b.push seq data).raw.maxMsgs = b.raw.maxMsgs ∧
      (b.push seq data).raw.maxBytes = b.raw.maxBytes := by
  obtain ⟨b', hb, -, hm, hx, -⟩ := RawReplayBuffer.push_eq b.wf seq data
  simp only [push, hb, Option.get_some]
  exact ⟨hm, hx⟩

/-- **What an ack does:** it drops the leading entries it covers. -/
theorem content_ackUpTo (b : ReplayBuffer) (seq : ℕ) :
    (b.ackUpTo seq).content = b.content.dropWhile (fun e => decide (e.seq ≤ seq)) := by
  obtain ⟨b', hb, -, -, -, hc⟩ := RawReplayBuffer.ackUpTo_eq b.wf seq
  simp only [ackUpTo, content, hb, Option.get_some]
  exact hc

/-- So does an ack. -/
@[simp] theorem ackUpTo_caps (b : ReplayBuffer) (seq : ℕ) :
    (b.ackUpTo seq).raw.maxMsgs = b.raw.maxMsgs ∧
      (b.ackUpTo seq).raw.maxBytes = b.raw.maxBytes := by
  obtain ⟨b', hb, -, hm, hx, -⟩ := RawReplayBuffer.ackUpTo_eq b.wf seq
  simp only [ackUpTo, hb, Option.get_some]
  exact ⟨hm, hx⟩

/-- `covers` looks at the oldest entry. -/
theorem covers_iff (b : ReplayBuffer) (lastSeq : ℕ) :
    b.covers lastSeq = true ↔ ∃ e l, b.content = e :: l ∧ e.seq ≤ lastSeq + 1 := by
  unfold covers
  cases hc : b.content with
  | nil =>
      have hlen : b.raw.len = 0 := by
        rw [RawReplayBuffer.len_eq]
        exact congrArg List.length hc
      simp [hlen]
  | cons e l =>
      have hlen : 0 < b.raw.len := by
        rw [RawReplayBuffer.len_eq, show b.raw.content = e :: l from hc]
        simp
      simp [hlen, getElem?_head (show b.raw.entries.drop b.raw.head = e :: l from hc)]

/-- `after` keeps the entries behind the number. -/
theorem after_eq (b : ReplayBuffer) (seq : ℕ) :
    b.after seq = b.content.filter fun e => seq < e.seq := rfl

end ReplayBuffer
end GoSocket
