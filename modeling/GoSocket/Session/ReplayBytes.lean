/-
# The byte counter of the replay buffer

`replayBuffer` of `internal/session.go` keeps the size of its content in `bytes`
and compares it with `maxBytes`; both are `int64`.  The counter is the size modulo
`2^64`, so the comparison in the loop of `push` is right while no suffix of `maxMsgs`
entries takes `2^63` bytes (`fits_iff_within`).  With `maxBytes < 2^62`, or with room
for one frame only, this is always so: the content stays within the limit
(`push_within`), and the buffer is a bounded queue.  With any other limits it is not
(`bounded_queue_iff`): two frames of `2^62` bytes make the counter negative, and both
stay.

An entry shares the array of its frame, so the sum is not bounded by memory: a
slice of 64 GiB that is pushed `2^27` times is enough (`cap_exceeded`).
-/

import GoSocket.Lib.Ordered
import GoSocket.Lib.Steps
import GoSocket.Session.ReplayBuffer

namespace GoSocket

open Lib

namespace RawReplayBuffer

/-- A content that takes no more than the limits. -/
def Within (b : RawReplayBuffer) (l : List ReplayEntry) : Prop :=
  l.length ≤ b.maxMsgs ∧ (size l : ℤ) ≤ b.maxBytes.toInt

instance (b : RawReplayBuffer) : DecidablePred b.Within :=
  fun l => inferInstanceAs (Decidable (l.length ≤ b.maxMsgs ∧ (size l : ℤ) ≤ b.maxBytes.toInt))

/-- The limits under which the counter cannot overflow: there is never a second frame, or two
frames take less than `2^63` bytes. -/
def Countable (b : RawReplayBuffer) : Prop := b.maxMsgs = 1 ∨ b.maxBytes.toInt < 2 ^ 62

/-- An empty content is within any limits. -/
theorem within_nil {b : RawReplayBuffer} (h : 0 < b.maxBytes) : b.Within [] :=
  ⟨Nat.zero_le _, (Int64.lt_iff_toInt_lt.1 h).le⟩

/-- Less is within the limits as well. -/
theorem Within.suffix {b : RawReplayBuffer} {l l' : List ReplayEntry} (h : b.Within l)
    (hl : l' <:+ l) : b.Within l' := by
  obtain ⟨dropped, rfl⟩ := hl
  obtain ⟨hlen, hsize⟩ := h
  rw [List.length_append] at hlen
  rw [size_append] at hsize
  exact ⟨by omega, by omega⟩

/-- The comparison is right for a content that is small enough to be counted. -/
theorem fits_iff_within {b : RawReplayBuffer} {l : List ReplayEntry} (h : size l < 2 ^ 63) :
    b.Fits l ↔ b.Within l := by
  rw [Fits, Within, Int64.le_iff_toInt_le, Int64.toInt_ofNat_of_lt h]

/-- Pushing an entry adds its bytes. -/
theorem size_concat (l : List ReplayEntry) (seq : ℕ) (data : Bytes) :
    size (l ++ [⟨seq, data⟩]) = size l + data.length := by
  rw [size_append, size_cons, size_nil, Nat.add_zero]

/-- With such limits, whatever `push` may keep can be counted. -/
theorem size_lt_of_countable {b : RawReplayBuffer} (hc : b.Countable) {l l' : List ReplayEntry}
    (h : b.Within l) {seq : ℕ} {data : Bytes} (hdata : (data.length : ℤ) ≤ b.maxBytes.toInt)
    (hl : l' <:+ l ++ [⟨seq, data⟩]) (hlen : l'.length ≤ b.maxMsgs) : size l' < 2 ^ 63 := by
  have hlt := b.maxBytes.toInt_lt
  rcases hc with hone | hsmall
  · -- one frame at most
    rcases List.suffix_concat_iff.1 hl with rfl | ⟨t, rfl, -⟩
    · exact Nat.two_pow_pos 63
    · rw [List.length_append, List.length_singleton] at hlen
      obtain rfl : t = [] := List.length_eq_zero_iff.1 (by omega)
      rw [size_concat, size_nil, Nat.zero_add]
      omega
  · obtain ⟨dropped, heq⟩ := hl
    have hsize : size dropped + size l' = size l + data.length := by
      rw [← size_append, heq, size_concat]
    have hwithin := h.2
    omega

/-- With such limits `push` keeps the longest suffix that is within them. -/
theorem longestSuffix_fits {b : RawReplayBuffer} (hc : b.Countable) {l : List ReplayEntry}
    (h : b.Within l) {seq : ℕ} {data : Bytes} (hdata : (data.length : ℤ) ≤ b.maxBytes.toInt) :
    longestSuffix b.Fits (l ++ [⟨seq, data⟩]) = longestSuffix b.Within (l ++ [⟨seq, data⟩]) := by
  refine longestSuffix_congr fun l' hl' => ?_
  by_cases hlen : l'.length ≤ b.maxMsgs
  · exact fits_iff_within (size_lt_of_countable hc h hdata hl' hlen)
  · exact iff_of_false (fun hfits => hlen hfits.1) fun hwithin => hlen hwithin.1

/-- A frame of a Go slice is too large for the code exactly when it is larger than the limit. -/
theorem oversized_iff (b : RawReplayBuffer) {data : Bytes} (hdata : data.length < 2 ^ 63) :
    b.maxBytes < Int64.ofNat data.length ↔ b.maxBytes.toInt < data.length := by
  rw [Int64.lt_iff_toInt_lt, Int64.toInt_ofNat_of_lt hdata]

/-- **What a push keeps when the counter cannot overflow**: nothing if the frame is too large,
and otherwise the longest suffix that is within the limits. -/
theorem push_within {b : RawReplayBuffer} (h : b.WF) (hc : b.Countable) (hw : b.Within b.content)
    (seq : ℕ) {data : Bytes} (hdata : data.length < 2 ^ 63) :
    ∃ b', b.push seq data = some b' ∧ b'.WF ∧ b'.maxMsgs = b.maxMsgs ∧
      b'.maxBytes = b.maxBytes ∧ b'.Within b'.content ∧
      b'.content = if b.maxBytes.toInt < data.length then []
        else longestSuffix b.Within (b.content ++ [⟨seq, data⟩]) := by
  obtain ⟨b', hb', hwf, hm, hx, hcontent⟩ := push_eq h seq data
  have hkept : b'.content = if b.maxBytes.toInt < data.length then []
      else longestSuffix b.Within (b.content ++ [⟨seq, data⟩]) := by
    rw [hcontent]
    by_cases hbig : b.maxBytes.toInt < data.length
    · rw [if_pos ((b.oversized_iff hdata).2 hbig), if_pos hbig]
    · rw [if_neg fun hlt => hbig ((b.oversized_iff hdata).1 hlt), if_neg hbig,
        longestSuffix_fits hc hw (not_lt.1 hbig)]
  refine ⟨b', hb', hwf, hm, hx, ?_, hkept⟩
  have hwithin : b.Within b'.content := by
    rw [hkept]
    split_ifs
    · exact within_nil h.maxBytes_pos
    · exact longestSuffix_pos (within_nil h.maxBytes_pos) _
  rwa [Within, hm, hx]

end RawReplayBuffer

/-- A call on a buffer.  A Go slice has fewer than `2^63` bytes. -/
inductive BufferOp where
  | push (data : Bytes) (h : data.length < 2 ^ 63)
  | ackUpTo (seq : ℕ)

namespace RawReplayBuffer

/-- One call; a push takes the next number. -/
def step (s : RawReplayBuffer × ℕ) : BufferOp → Option (RawReplayBuffer × ℕ)
  | .push data _ => (s.1.push s.2 data).map fun b => (b, s.2 + 1)
  | .ackUpTo seq => (s.1.ackUpTo seq).map fun b => (b, s.2)

/-- The buffer is a queue of at most `maxMsgs` entries and `maxBytes` bytes, and `next` is the
number of the next entry. -/
structure BoundedQueue (maxMsgs : ℕ) (maxBytes : Int64) (b : RawReplayBuffer) (next : ℕ) :
    Prop where
  bytes : b.bytes.toInt = size b.content
  length : b.entries.length ≤ maxMsgs + max 63 maxMsgs
  /-- A push returns; it leaves nothing if the frame is too large, and otherwise the longest
  suffix that fits, the new frame included. -/
  push : ∀ data : Bytes, data.length < 2 ^ 63 → ∃ b', b.push next data = some b' ∧
    if maxBytes.toInt < data.length then b'.content = []
    else
      IsLongestSuffix (fun l => l.length ≤ maxMsgs ∧ (size l : ℤ) ≤ maxBytes.toInt)
        (b.content ++ [⟨next, data⟩]) b'.content ∧ ⟨next, data⟩ ∈ b'.content
  /-- An ack returns and keeps the entries behind it. -/
  ack : ∀ seq, ∃ b', b.ackUpTo seq = some b' ∧
    b'.content = b.content.filter fun e => decide (seq < e.seq)

/-- What a buffer with the limits `maxMsgs` and `maxBytes` is between two calls: one that is
within its limits and whose entries are in order. -/
structure Exact (maxMsgs : ℕ) (maxBytes : Int64) (s : RawReplayBuffer × ℕ) : Prop where
  wf : s.1.WF
  maxMsgs : s.1.maxMsgs = maxMsgs
  maxBytes : s.1.maxBytes = maxBytes
  within : s.1.Within s.1.content
  ordered : s.1.content.Pairwise fun e e' => e.seq < e'.seq
  below : ∀ e ∈ s.1.content, e.seq < s.2

section exact

variable {maxMsgs : ℕ} {maxBytes : Int64} {s : RawReplayBuffer × ℕ}

/-- The empty buffer. -/
theorem Exact.of_new (hmsgs : 0 < maxMsgs) (hbytes : 0 < maxBytes) (first : ℕ) :
    Exact maxMsgs maxBytes (new maxMsgs maxBytes, first) where
  wf := .of_new hmsgs hbytes
  maxMsgs := rfl
  maxBytes := rfl
  within := within_nil hbytes
  ordered := .nil
  below := fun _ he => absurd he List.not_mem_nil

/-- A push returns, and the next state is exact again. -/
theorem Exact.push (h : Exact maxMsgs maxBytes s)
    (hlimits : maxMsgs = 1 ∨ maxBytes.toInt < 2 ^ 62) {data : Bytes}
    (hdata : data.length < 2 ^ 63) :
    ∃ b', s.1.push s.2 data = some b' ∧ Exact maxMsgs maxBytes (b', s.2 + 1) ∧
      b'.content = if maxBytes.toInt < data.length then []
        else longestSuffix s.1.Within (s.1.content ++ [⟨s.2, data⟩]) := by
  have hcount : s.1.Countable := by
    rw [Countable, h.maxMsgs, h.maxBytes]
    exact hlimits
  obtain ⟨b', hb', hwf, hm, hx, hwithin, hcontent⟩ :=
    push_within h.wf hcount h.within s.2 hdata
  rw [h.maxBytes] at hcontent
  have hsub : List.Sublist b'.content (s.1.content ++ [⟨s.2, data⟩]) := by
    rw [hcontent]
    split_ifs
    · exact List.nil_sublist _
    · exact (longestSuffix_suffix _ _).sublist
  refine ⟨b', hb', ⟨hwf, hm.trans h.maxMsgs, hx.trans h.maxBytes, hwithin, ?_, ?_⟩, hcontent⟩
  · refine List.Pairwise.sublist hsub (List.pairwise_append.2 ⟨h.ordered, ?_, ?_⟩)
    · exact List.pairwise_singleton ..
    · intro e he e' he'
      rw [List.mem_singleton.1 he']
      exact h.below e he
  · intro e he
    rcases List.mem_append.1 (hsub.subset he) with he | he
    · exact (h.below e he).trans (Nat.lt_succ_self s.2)
    · rw [List.mem_singleton.1 he]
      exact Nat.lt_succ_self s.2

/-- An ack returns and keeps the entries behind it. -/
theorem Exact.ackUpTo (h : Exact maxMsgs maxBytes s) (seq : ℕ) :
    ∃ b', s.1.ackUpTo seq = some b' ∧ Exact maxMsgs maxBytes (b', s.2) ∧
      b'.content = s.1.content.filter fun e => decide (seq < e.seq) := by
  obtain ⟨b', hb', hwf, hm, hx, hcontent⟩ := ackUpTo_eq h.wf seq
  have hfilter : b'.content = s.1.content.filter fun e => decide (seq < e.seq) := by
    rw [hcontent, dropWhile_eq_filter]
    · exact List.filter_congr fun e _ => by rw [← decide_not, decide_eq_decide, not_le]
    · exact h.ordered.imp fun hlt hle => decide_eq_true (hlt.le.trans (of_decide_eq_true hle))
  have hsuffix : b'.content <:+ s.1.content := hcontent ▸ List.dropWhile_suffix _
  have hwithin : b'.Within b'.content := by
    rw [Within, hm, hx]
    exact h.within.suffix hsuffix
  exact ⟨b', hb', ⟨hwf, hm.trans h.maxMsgs, hx.trans h.maxBytes, hwithin,
    h.ordered.sublist hsuffix.sublist, fun e he => h.below e (hsuffix.subset he)⟩, hfilter⟩

/-- **Every run is exact**, and none of its calls panics or loops forever. -/
theorem Exact.run (h : Exact maxMsgs maxBytes s)
    (hlimits : maxMsgs = 1 ∨ maxBytes.toInt < 2 ^ 62) (ops : List BufferOp) :
    ∃ s', exec step s ops = some s' ∧ Exact maxMsgs maxBytes s' := by
  induction ops generalizing s with
  | nil => exact ⟨s, rfl, h⟩
  | cons op ops ih =>
      cases op with
      | push data hdata =>
          obtain ⟨b₁, hb₁, hnext, -⟩ := h.push hlimits hdata
          obtain ⟨s', hs', h'⟩ := ih hnext
          exact ⟨s', by rw [exec, step, hb₁, Option.map_some, Option.bind_some, hs'], h'⟩
      | ackUpTo seq =>
          obtain ⟨b₁, hb₁, hnext, -⟩ := h.ackUpTo seq
          obtain ⟨s', hs', h'⟩ := ih hnext
          exact ⟨s', by rw [exec, step, hb₁, Option.map_some, Option.bind_some, hs'], h'⟩

/-- An exact buffer is a bounded queue. -/
theorem Exact.boundedQueue (h : Exact maxMsgs maxBytes s)
    (hlimits : maxMsgs = 1 ∨ maxBytes.toInt < 2 ^ 62) :
    BoundedQueue maxMsgs maxBytes s.1 s.2 := by
  have hlt := maxBytes.toInt_lt
  have hsize : (size s.1.content : ℤ) ≤ maxBytes.toInt := h.maxBytes ▸ h.within.2
  have hlen : s.1.content.length ≤ maxMsgs := h.maxMsgs ▸ h.within.1
  have hfits : (fun l => l.length ≤ maxMsgs ∧ (size l : ℤ) ≤ maxBytes.toInt) = s.1.Within := by
    funext l
    rw [Within, h.maxMsgs, h.maxBytes]
  refine ⟨?_, length_le_of_compacted hlen h.wf.compacted, fun data hdata => ?_, fun seq => ?_⟩
  · rw [h.wf.bytes_eq]
    exact Int64.toInt_ofNat_of_lt (by omega)
  · obtain ⟨b', hb', -, hcontent⟩ := h.push hlimits hdata
    refine ⟨b', hb', ?_⟩
    split_ifs with hbig
    · rw [hcontent, if_pos hbig]
    · rw [if_neg hbig] at hcontent
      rw [hcontent, hfits]
      have hlongest := isLongestSuffix_longestSuffix (p := s.1.Within)
        (within_nil h.wf.maxBytes_pos) (s.1.content ++ [⟨s.2, data⟩])
      refine ⟨hlongest, hlongest.mem_last ⟨h.wf.maxMsgs_pos, ?_⟩⟩
      rw [h.maxBytes, size_cons, size_nil, Nat.add_zero]
      exact not_lt.1 hbig
  · obtain ⟨b', hb', -, hcontent⟩ := h.ackUpTo seq
    exact ⟨b', hb', hcontent⟩

end exact

/-- A push that finds the limits kept only appends. -/
theorem push_of_kept {b : RawReplayBuffer} {seq : ℕ} {data : Bytes}
    (hdata : ¬b.maxBytes < Int64.ofNat data.length)
    (hmsgs : (b.append seq data).len ≤ b.maxMsgs)
    (hbytes : ¬b.maxBytes < b.bytes + Int64.ofNat data.length) :
    b.push seq data = some (b.append seq data) := by
  have hkept : ¬((b.append seq data).maxMsgs < (b.append seq data).len ∨
      (b.append seq data).maxBytes < (b.append seq data).bytes) :=
    not_or.2 ⟨not_lt.2 hmsgs, hbytes⟩
  rw [push, if_neg hdata]
  cases hfuel : (b.append seq data).len with
  | zero => rw [evict, if_neg hkept]
  | succ fuel => rw [evict, if_neg hkept]

/-- A frame pushed `k` times, while the counter of the source stays within the limit: nothing is
dropped, and the counter is the size modulo `2^64`. -/
theorem exec_replicate_push {b : RawReplayBuffer} {k : ℕ} {data : Bytes}
    (hlt : data.length < 2 ^ 63) (hhead : b.head = 0) (hmsgs : b.entries.length + k ≤ b.maxMsgs)
    (hdata : ¬b.maxBytes < Int64.ofNat data.length)
    (hbytes : ∀ i ≤ k, ¬b.maxBytes < b.bytes + Int64.ofNat (i * data.length)) (next : ℕ) :
    ∃ b' next', exec step (b, next) (List.replicate k (.push data hlt)) = some (b', next') ∧
      b'.content.length = b.content.length + k ∧
      size b'.content = size b.content + k * data.length ∧
      b'.bytes = b.bytes + Int64.ofNat (k * data.length) := by
  induction k generalizing b next with
  | zero => exact ⟨b, next, rfl, rfl, by simp, by simp⟩
  | succ k ih =>
      have hpush : b.push next data = some (b.append next data) := by
        refine push_of_kept hdata ?_ ?_
        · simp [append, len, hhead]
          omega
        · simpa using hbytes 1 (by omega)
      have hcontent : (b.append next data).content = b.content ++ [⟨next, data⟩] := by
        simp [append, content, hhead]
      have hroom : (b.append next data).entries.length + k ≤ b.maxMsgs := by
        rw [append, List.length_append, List.length_singleton]
        omega
      have hrest : ∀ i ≤ k, ¬b.maxBytes < (b.append next data).bytes +
          Int64.ofNat (i * data.length) := by
        intro i hi
        have hnext := hbytes (i + 1) (by omega)
        rwa [Nat.succ_mul, Nat.add_comm, Int64.ofNat_add, ← Int64.add_assoc] at hnext
      obtain ⟨b', next', hexec, hlen, hsize, hcount⟩ :=
        ih (b := b.append next data) hhead hroom hdata hrest (next + 1)
      refine ⟨b', next', ?_, ?_, ?_, ?_⟩
      · rw [List.replicate_succ, exec, step, hpush, Option.map_some, Option.bind_some, hexec]
      · rw [hlen, hcontent, List.length_append, List.length_singleton]
        omega
      · rw [hsize, hcontent, size_concat, Nat.succ_mul]
        omega
      · rw [hcount, Nat.succ_mul, Nat.add_comm, Int64.ofNat_add, ← Int64.add_assoc]
        rfl

/-- **The counter overflows**: a frame pushed `k` times that takes `2^63` bytes in all.  The limit
`maxBytes` holds for all but the last. -/
theorem exec_overflow (maxMsgs : ℕ) (maxBytes : Int64) (k : ℕ) (data : Bytes)
    (hlt : data.length < 2 ^ 63) (hk : 2 ≤ k) (hmsgs : k ≤ maxMsgs)
    (hkept : (((k - 1) * data.length : ℕ) : ℤ) ≤ maxBytes.toInt) (hsum : k * data.length = 2 ^ 63)
    (first : ℕ) :
    ∃ b next, exec step (new maxMsgs maxBytes, first)
        (List.replicate k (.push data hlt)) = some (b, next) ∧
      b.content.length = k ∧ size b.content = 2 ^ 63 ∧ b.bytes.toInt = -2 ^ 63 := by
  have hwrap : (Int64.ofNat (2 ^ 63)).toInt = -2 ^ 63 := by decide
  have hmax := maxBytes.toInt_lt
  have hbelow : ∀ i ≤ k, ¬maxBytes < Int64.ofNat (i * data.length) := by
    intro i hi
    rcases Nat.lt_or_eq_of_le hi with hi | rfl
    · have hle : i * data.length ≤ (k - 1) * data.length :=
        Nat.mul_le_mul_right _ (by omega : i ≤ k - 1)
      rw [Int64.lt_iff_toInt_lt, Int64.toInt_ofNat_of_lt (by omega)]
      omega
    · rw [hsum, Int64.lt_iff_toInt_lt, hwrap]
      omega
  obtain ⟨b, next, hexec, hlen, hsize, hcount⟩ :=
    exec_replicate_push (b := new maxMsgs maxBytes) (k := k) hlt rfl
      (by rw [new, List.length_nil, Nat.zero_add]; exact hmsgs)
      (by simpa [new] using hbelow 1 (by omega))
      (fun i hi => by simpa [new] using hbelow i hi) first
  refine ⟨b, next, hexec, ?_, ?_, ?_⟩
  · rw [hlen]
    exact Nat.zero_add k
  · rw [hsize, hsum]
    exact Nat.zero_add _
  · rw [hcount, hsum, ← hwrap]
    exact congrArg Int64.toInt (Int64.zero_add _)

/-- Two frames of `2^62` bytes do, if there is room for both. -/
theorem exec_overflow_two {maxMsgs : ℕ} {maxBytes : Int64} (hmsgs : 2 ≤ maxMsgs)
    (hbytes : 2 ^ 62 ≤ maxBytes.toInt) (first : ℕ) :
    ∃ (data : Bytes) (hlt : data.length < 2 ^ 63) (b : RawReplayBuffer) (next : ℕ),
      exec step (new maxMsgs maxBytes, first) (List.replicate 2 (.push data hlt)) =
        some (b, next) ∧ size b.content = 2 ^ 63 ∧ b.bytes.toInt = -2 ^ 63 := by
  have hframe : (List.replicate (2 ^ 62) (0 : UInt8)).length = 2 ^ 62 := List.length_replicate
  obtain ⟨b, next, hexec, -, hsize, hcount⟩ := exec_overflow maxMsgs maxBytes 2
    (List.replicate (2 ^ 62) 0) (by omega) le_rfl hmsgs (by omega) (by omega) first
  exact ⟨_, by omega, b, next, hexec, hsize, hcount⟩

/-- **The buffer is a bounded queue exactly when its counter cannot overflow**: after every run
from the empty buffer, with room for one frame only or less than `2^62` bytes. -/
theorem bounded_queue_iff (maxMsgs : ℕ) (maxBytes : Int64) (hmsgs : 1 ≤ maxMsgs)
    (hbytes : 1 ≤ maxBytes) :
    (∀ first ops, ∃ b next, exec step (new maxMsgs maxBytes, first) ops = some (b, next) ∧
      BoundedQueue maxMsgs maxBytes b next) ↔ maxMsgs = 1 ∨ maxBytes.toInt < 2 ^ 62 := by
  have hpos : 1 ≤ maxBytes.toInt := Int64.le_iff_toInt_le.1 hbytes
  constructor
  · intro h
    by_contra hlimits
    obtain ⟨hone, hlarge⟩ := not_or.1 hlimits
    have htwo : 2 ≤ maxMsgs := by omega
    obtain ⟨data, hlt, b, next, hexec, hsize, hcount⟩ :=
      exec_overflow_two htwo (not_lt.1 hlarge) 0
    obtain ⟨b', next', hexec', hqueue⟩ := h 0 _
    obtain ⟨rfl, rfl⟩ := Prod.mk.inj (Option.some.inj (hexec.symm.trans hexec'))
    have hbytes := hqueue.bytes
    omega
  · intro hlimits first ops
    have hnew : 0 < maxBytes := Int64.lt_iff_toInt_lt.2 hpos
    obtain ⟨s', hs', h'⟩ := (Exact.of_new hmsgs hnew first).run hlimits ops
    exact ⟨s'.1, s'.2, hs', h'.boundedQueue hlimits⟩

/-- A buffer of two messages and ten bytes is bounded in every run. -/
theorem bounded_queue_two : (1 ≤ 2 ∧ (1 : Int64) ≤ 10) ∧ ∀ first ops, ∃ b next,
    exec step (new 2 10, first) ops = some (b, next) ∧ BoundedQueue 2 10 b next :=
  ⟨by decide, (bounded_queue_iff 2 10 (by decide) (by decide)).2 (by decide)⟩

/-- **A buffer over its limit.**  A frame of 64 GiB that is pushed `2^27` times stays `2^27` times:
the content takes `2^63` bytes, one more than the limit, and the counter says `-2^63`. -/
theorem cap_exceeded : ∃ b next,
    exec step (new (2 ^ 27) Int64.maxValue, 1) (List.replicate (2 ^ 27)
      (.push (List.replicate (2 ^ 36) 0) (by rw [List.length_replicate]; decide))) =
        some (b, next) ∧
    b.content.length = 2 ^ 27 ∧ Int64.maxValue.toInt < size b.content ∧
    b.bytes.toInt = -2 ^ 63 ∧ ¬BoundedQueue (2 ^ 27) Int64.maxValue b next := by
  have hlen : (List.replicate (2 ^ 36) (0 : UInt8)).length = 2 ^ 36 := List.length_replicate
  have hmax : Int64.maxValue.toInt = 2 ^ 63 - 1 := by decide
  obtain ⟨b, next, hexec, hcontent, hsize, hbytes⟩ := exec_overflow (2 ^ 27) Int64.maxValue (2 ^ 27)
    (List.replicate (2 ^ 36) 0) (by omega) (by decide) le_rfl (by omega) (by omega) 1
  refine ⟨b, next, hexec, hcontent, ?_, hbytes, fun hqueue => ?_⟩
  · rw [hsize]
    decide
  · have hcount := hqueue.bytes
    omega

end RawReplayBuffer

namespace ReplayBuffer

variable {b : ReplayBuffer}

/-- An empty buffer is within its limits. -/
theorem within_new {maxMsgs : ℕ} {maxBytes : Int64} (hmsgs : 0 < maxMsgs) (hbytes : 0 < maxBytes) :
    (new maxMsgs maxBytes hmsgs hbytes).raw.Within (new maxMsgs maxBytes hmsgs hbytes).content :=
  RawReplayBuffer.within_nil (b := .new maxMsgs maxBytes) hbytes

/-- A push keeps the content within the limits, if the counter cannot overflow. -/
theorem within_push (hc : b.raw.Countable) (hw : b.raw.Within b.content) (seq : ℕ) {data : Bytes}
    (hdata : data.length < 2 ^ 63) :
    (b.push seq data).raw.Within (b.push seq data).content := by
  obtain ⟨b', hb', -, -, -, hwithin, -⟩ := RawReplayBuffer.push_within b.wf hc hw seq hdata
  have hraw : (b.push seq data).raw = b' := Option.get_of_eq_some _ hb'
  rw [content, hraw]
  exact hwithin

/-- So does an ack. -/
theorem within_ackUpTo (hw : b.raw.Within b.content) (seq : ℕ) :
    (b.ackUpTo seq).raw.Within (b.ackUpTo seq).content := by
  obtain ⟨hm, hx⟩ := b.ackUpTo_caps seq
  rw [RawReplayBuffer.Within, hm, hx, content_ackUpTo]
  exact hw.suffix (List.dropWhile_suffix _)

end ReplayBuffer
end GoSocket
