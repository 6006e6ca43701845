/-
# What a frame header can ask for

`readFrame` calls `make` with the length that the header of a frame declares, before
anything is checked: the read limit is applied by `ReadMessage` to what it has put
together.  The declared length is up to eight bytes long and is shifted into an `int64`.
From `2^63` on it comes out negative, and `make` panics, as it does above `maxAlloc`; below
that it is an allocation of as many bytes as the peer likes, for a header of fourteen bytes.

So `ReadMessage` returns, and allocates no more than the limit at a time, exactly when
the peer declares no more than the limit and than `make` can allocate
(`readMessage_bounded_iff`).  The condition `declaresWithin` is on what the peer sends: it
goes over the headers in the feed, as far as they belong to the message.
-/

import GoSocket.NativeWS.Conn
import Mathlib.Algebra.Group.Nat.Defs
import Mathlib.Data.Nat.Init

namespace GoSocket

open Lib

namespace NativeWS

/-- The number that bytes stand for, most significant byte first. -/
def bigEndian (l : Bytes) : ℕ := l.foldl (fun n b => 256 * n + b.toNat) 0

/-- The payload length a header declares. -/
def Header.declared (h : Header) : ℕ :=
  if extSize h.b2 = 0 then (h.b2 &&& 0x7F).toNat else bigEndian h.ext.1

/-- One step of the length loop, over the naturals. -/
theorem toNat_shift (x : BitVec 64) (b : UInt8) :
    (shift x b).toNat = (256 * x.toNat + b.toNat) % 18446744073709551616 := by
  have hb : b.toNat < 256 := b.toNat_lt
  have hlow : (b.toBitVec.setWidth 64).toNat = b.toNat := by
    rw [BitVec.toNat_setWidth, Nat.mod_eq_of_lt (by omega)]
    rfl
  have hhigh : (x <<< 8).toNat = 2 ^ 8 * (x.toNat % 72057594037927936) := by
    rw [BitVec.toNat_shiftLeft, Nat.shiftLeft_eq]
    omega
  rw [shift, BitVec.toNat_or, hlow, hhigh, ← Nat.two_pow_add_eq_or_of_lt hb]
  omega

/-- The shifts compute the number modulo `2^64`. -/
theorem toNat_shiftIn (ext : Bytes) :
    (shiftIn ext).toNat = bigEndian ext % 18446744073709551616 := by
  have key : ∀ (l : Bytes) (x : BitVec 64) (n : ℕ), x.toNat = n % 18446744073709551616 →
      (l.foldl shift x).toNat =
        l.foldl (fun n b => 256 * n + b.toNat) n % 18446744073709551616 := by
    intro l
    induction l with
    | nil => exact fun _ _ h => h
    | cons b l ih =>
        intro x n h
        refine ih _ _ ?_
        rw [toNat_shift, h]
        dsimp only
        omega
  exact key ext 0 0 rfl

/-- Eight bytes give a number below 2^64. -/
theorem bigEndian_lt {l : Bytes} (h : l.length ≤ 8) : bigEndian l < 18446744073709551616 := by
  have key : ∀ (l : Bytes) (n : ℕ),
      l.foldl (fun n b => 256 * n + b.toNat) n < 256 ^ l.length * (n + 1) := by
    intro l
    induction l with
    | nil => intro n; simp
    | cons b l ih =>
        intro n
        have hb : b.toNat < 256 := b.toNat_lt
        calc (b :: l).foldl (fun n b => 256 * n + b.toNat) n
            < 256 ^ l.length * (256 * n + b.toNat + 1) := ih _
          _ ≤ 256 ^ l.length * (256 * (n + 1)) := Nat.mul_le_mul_left _ (by omega)
          _ = 256 ^ (b :: l).length * (n + 1) := by
              rw [List.length_cons, Nat.pow_succ, Nat.mul_assoc]
  calc bigEndian l < 256 ^ l.length * (0 + 1) := key l 0
    _ ≤ 256 ^ 8 * (0 + 1) := Nat.mul_le_mul_right _ (Nat.pow_le_pow_right (by decide) h)
    _ = 18446744073709551616 := by decide

/-- A header has at most eight bytes of extended length. -/
theorem Header.length_ext_le (h : Header) : h.ext.1.length ≤ 8 := by
  rw [h.ext.2]
  unfold extSize
  split_ifs <;> omega

/-- A declared length that an `int64` can hold is the length. -/
theorem Header.length_eq_declared {h : Header} (hlt : h.declared < 9223372036854775808) :
    h.length = h.declared := by
  unfold Header.declared at hlt ⊢
  unfold Header.length
  split_ifs at hlt ⊢
  · rfl
  · have hval := toNat_shiftIn h.ext.1
    rw [Nat.mod_eq_of_lt (by omega)] at hval
    rw [BitVec.toInt_eq_toNat_cond, hval]
    split_ifs <;> omega

/-- Any other comes out negative. -/
theorem Header.length_neg {h : Header} (hge : 9223372036854775808 ≤ h.declared) :
    h.length < 0 := by
  have hlt := bigEndian_lt h.length_ext_le
  unfold Header.declared at hge
  unfold Header.length
  split_ifs at hge ⊢
  · have hbyte := (h.b2 &&& 0x7F).toNat_lt
    omega
  · have hval := toNat_shiftIn h.ext.1
    rw [Nat.mod_eq_of_lt hlt] at hval
    rw [BitVec.toInt_eq_toNat_cond, hval]
    split_ifs <;> omega

/-- A length that is not negative is the declared one. -/
theorem Header.declared_eq {h : Header} (hpos : 0 ≤ h.length) : (h.declared : ℤ) = h.length := by
  by_cases hlt : h.declared < 9223372036854775808
  · exact (Header.length_eq_declared hlt).symm
  · have hneg := Header.length_neg (Nat.le_of_not_lt hlt)
    omega

/-- Reading bytes does not panic. -/
theorem avoids_readFull (n : ℕ) : (readFull n).Avoids .panic :=
  Reader.avoids_exactly (by simp) (by simp) (by simp) n

/-- Reading a header does not panic: only `make` of the payload can. -/
theorem avoids_readHeader : readHeader.Avoids .panic := by
  refine (Reader.avoids_item (by simp) (by simp)).bind fun b1 =>
    (Reader.avoids_item (by simp) (by simp)).bind fun b2 =>
      (avoids_readFull _).bind fun ext => ?_
  split_ifs
  · exact Reader.avoids_fail (by simp)
  · exact (avoids_readFull 4).bind fun maskKey => Reader.avoids_ret _

/-- A length on which `make` panics. -/
def Header.Panics (maxAlloc : ℕ) (h : Header) : Prop := h.length < 0 ∨ maxAlloc < h.length

/-- **`readFrame` panics exactly on a header whose length `make` panics on.** -/
theorem readFrame_panic_iff (maxAlloc : ℕ) (s : Feed UInt8) :
    (readFrame maxAlloc s).1 = .error .panic ↔
      ∃ h ∈ (headerOf s).toList, h.Panics maxAlloc := by
  rcases hread : readHeader s with ⟨e | head, t⟩
  · -- the header was not read, which is no panic
    have hframe : readFrame maxAlloc s = (.error e, t) := Reader.bind_of_error hread
    have hne : (readHeader s).1 ≠ .error .panic := avoids_readHeader s
    rw [hread] at hne
    have hnone : headerOf s = none := by rw [headerOf, hread]
    rw [hframe, hnone]
    simpa using hne
  · have hsome : headerOf s = some head := by rw [headerOf, hread]
    have hframe : readFrame maxAlloc s = (do
        let data ← readPayload maxAlloc head
        return Frame.mk head.fin head.opcode data : Reader UInt8 Halt Frame) t :=
      Reader.bind_of_ok hread
    rw [hframe, hsome]
    by_cases hpanics : head.Panics maxAlloc
    · have hpayload : readPayload maxAlloc head t = (.error .panic, t) := by
        rw [readPayload, if_pos (show _ ∨ _ from hpanics)]
        rfl
      refine iff_of_true ?_ ⟨head, by simp, hpanics⟩
      exact congrArg Prod.fst (Reader.bind_of_error hpayload)
    · have havoid : (readPayload maxAlloc head).Avoids .panic := by
        rw [readPayload, if_neg (show ¬ (_ ∨ _) from hpanics)]
        exact (avoids_readFull _).bind fun _ => Reader.avoids_ret _
      refine iff_of_false ?_ (by simpa using hpanics)
      exact (havoid.bind fun data => Reader.avoids_ret (Frame.mk head.fin head.opcode data)) t

/-- A header that declares no more than the read limit, and than `make` can allocate. -/
def Header.Within (maxAlloc : ℕ) (readLimit : GoInt) (h : Header) : Prop :=
  (h.declared : ℤ) ≤ min readLimit.1 maxAlloc

instance (maxAlloc : ℕ) (readLimit : GoInt) (h : Header) :
    Decidable (h.Within maxAlloc readLimit) :=
  inferInstanceAs (Decidable ((h.declared : ℤ) ≤ min readLimit.1 maxAlloc))

/-- **What `make` is called with** is within the limit, and `make` does not panic, exactly
when the header declares so. -/
theorem Header.within_iff (maxAlloc : ℕ) (readLimit : GoInt) (h : Header) :
    h.Within maxAlloc readLimit ↔
      ¬ h.Panics maxAlloc ∧ 0 ≤ h.length ∧ h.length ≤ readLimit.1 := by
  have hmax := readLimit.2.2
  unfold Header.Within Header.Panics
  constructor
  · intro hdecl
    have heq := Header.length_eq_declared (h := h) (by omega)
    omega
  · rintro ⟨hpanics, hpos, hle⟩
    have heq := Header.declared_eq hpos
    omega

/-- The headers in a feed declare no more than the limits, as far as they belong to the message
of which `s` is collected.  It ends with its last fragment, with an error, with a close
frame, and when the answer to a ping cannot be written. -/
def declaresWithin (maxAlloc : ℕ) (readLimit : GoInt) (s : Partial) (writes : List Bool)
    (input : Feed UInt8) : Bool :=
  (headerOf input).all (fun h => decide (h.Within maxAlloc readLimit)) &&
    match hread : readFrame maxAlloc input with
    | (.error _, _) => true
    | (.ok f, rest) =>
        have : rest.length < input.length := takes_readFrame maxAlloc _ _ _ hread
        match s.next readLimit f with
        | .again s => declaresWithin maxAlloc readLimit s writes rest
        | .pong data =>
            match writesAfter writes data with
            | some writes => declaresWithin maxAlloc readLimit s writes rest
            | none => true
        | .close | .message .. | .error _ => true
termination_by input.length
decreasing_by all_goals assumption

section scan

variable {maxAlloc : ℕ} {readLimit : GoInt} {s : Partial} {writes : List Bool}
  {input rest : Feed UInt8}

/-- The scan's test of the next header, as a proposition. -/
theorem all_headerOf :
    (headerOf input).all (fun h => decide (h.Within maxAlloc readLimit)) = true ↔
      ∀ h ∈ (headerOf input).toList, h.Within maxAlloc readLimit := by
  cases headerOf input <;> simp

/-- At a frame that fails, only its header, if it was read, counts. -/
theorem declaresWithin_of_error {e : Halt} (hread : readFrame maxAlloc input = (.error e, rest)) :
    declaresWithin maxAlloc readLimit s writes input = true ↔
      ∀ h ∈ (headerOf input).toList, h.Within maxAlloc readLimit := by
  rw [declaresWithin, Bool.and_eq_true, all_headerOf]
  split
  · simp
  · rename_i h
    cases hread.symm.trans h

/-- How the scan goes on after a frame. -/
def declaresAfter (maxAlloc : ℕ) (readLimit : GoInt) (s : Partial) (writes : List Bool)
    (rest : Feed UInt8) : Next → Bool
  | .again s => declaresWithin maxAlloc readLimit s writes rest
  | .pong data =>
      match writesAfter writes data with
      | some writes => declaresWithin maxAlloc readLimit s writes rest
      | none => true
  | .close | .message .. | .error _ => true

/-- At a frame that is read, its header counts, and the scan goes on. -/
theorem declaresWithin_of_ok {f : Frame} (hread : readFrame maxAlloc input = (.ok f, rest)) :
    declaresWithin maxAlloc readLimit s writes input = true ↔
      (∀ h ∈ (headerOf input).toList, h.Within maxAlloc readLimit) ∧
        declaresAfter maxAlloc readLimit s writes rest (s.next readLimit f) = true := by
  rw [declaresWithin, Bool.and_eq_true, all_headerOf]
  split
  · rename_i h
    cases hread.symm.trans h
  · rename_i h
    cases hread.symm.trans h
    cases s.next readLimit f <;> rfl

end scan

/-- What a call that ends with `out` has to do with the headers `hs` it has come to: it panics
exactly if `make` does on one of them, and the scan of the feed is about them. -/
structure CameTo (maxAlloc : ℕ) (readLimit : GoInt) (scan : Bool) (out : Outcome)
    (hs : List Header) : Prop where
  panic_iff : out = .halt .panic ↔ ∃ h ∈ hs, h.Panics maxAlloc
  scan_iff : scan = true ↔ ∀ h ∈ hs, h.Within maxAlloc readLimit

/-- A frame that was read, before the others. -/
theorem CameTo.cons {maxAlloc : ℕ} {readLimit : GoInt} {s : Partial} {writes : List Bool}
    {input rest : Feed UInt8} {f : Frame} (hread : readFrame maxAlloc input = (.ok f, rest))
    {scan : Bool} {out : Outcome} {hs : List Header} (h : CameTo maxAlloc readLimit scan out hs)
    (hscan : declaresAfter maxAlloc readLimit s writes rest (s.next readLimit f) = scan) :
    CameTo maxAlloc readLimit (declaresWithin maxAlloc readLimit s writes input) out
      ((headerOf input).toList ++ hs) where
  panic_iff := by
    -- `make` did not panic on this one
    have hnot : ¬ ∃ h ∈ (headerOf input).toList, h.Panics maxAlloc := by
      rw [← readFrame_panic_iff, hread]
      exact fun h => by cases h
    rw [h.panic_iff]
    simp only [List.mem_append, or_and_right, exists_or, hnot, false_or]
  scan_iff := by
    rw [declaresWithin_of_ok hread, hscan, h.scan_iff, List.forall_mem_append]

/-- The call ends after this frame. -/
theorem CameTo.last {maxAlloc : ℕ} {readLimit : GoInt} {s : Partial} {writes : List Bool}
    {input rest : Feed UInt8} {f : Frame} (hread : readFrame maxAlloc input = (.ok f, rest))
    {out : Outcome} (hout : out ≠ .halt .panic)
    (hscan : declaresAfter maxAlloc readLimit s writes rest (s.next readLimit f) = true) :
    CameTo maxAlloc readLimit (declaresWithin maxAlloc readLimit s writes input) out
      (headerOf input).toList := by
  have hnone : CameTo maxAlloc readLimit true out [] := ⟨by simp [hout], by simp⟩
  simpa using hnone.cons hread hscan

/-- **The headers `ReadMessage` comes to** are those of the scan. -/
theorem readLoop_cameTo (maxAlloc : ℕ) (readLimit : GoInt) (s : Partial) (c : Conn) :
    ∃ hs, (readLoop maxAlloc readLimit s c).2.headers = c.headers ++ hs ∧
      CameTo maxAlloc readLimit (declaresWithin maxAlloc readLimit s c.writes c.input)
        (readLoop maxAlloc readLimit s c).1 hs := by
  induction s, c using readLoop.induct maxAlloc readLimit with
  | case1 s c e rest hread =>
      rw [readLoop_of_error hread]
      refine ⟨_, rfl, ?_, declaresWithin_of_error hread⟩
      rw [← readFrame_panic_iff, hread]
      simp
  | case2 s c f rest hread hlt s' hnext ih =>
      obtain ⟨hs, hheaders, hc⟩ := ih
      rw [readLoop_again hread hnext]
      refine ⟨_, ?_, hc.cons hread ?_⟩
      · rw [hheaders, Conn.after, List.append_assoc]
      · rw [hnext, declaresAfter]
        rfl
  | case3 s c f rest hread hlt data hnext d _ hwrite =>
      have hwrites : writesAfter c.writes data = none := Conn.writesAfter_of_writeFrame hwrite
      rw [readLoop_pong_failed hread hnext hwrite]
      refine ⟨_, Conn.headers_of_writeFrame hwrite, .last hread (by simp) ?_⟩
      rw [hnext, declaresAfter, hwrites]
  | case4 s c f rest hread hlt data hnext d hd hwrite _ ih =>
      have hwrites : writesAfter c.writes data = some d.writes :=
        Conn.writesAfter_of_writeFrame hwrite
      obtain ⟨hs, hheaders, hc⟩ := ih
      rw [readLoop_pong hread hnext hwrite]
      refine ⟨_, ?_, hc.cons hread ?_⟩
      · rw [hheaders, Conn.headers_of_writeFrame hwrite, Conn.after, List.append_assoc]
      · rw [hnext, declaresAfter, hwrites, show d.input = rest from hd]
  | case5 s c f rest hread hlt hnext =>
      have hheaders := (c.after rest).writeFrame_headers true opcodeClose []
      rw [readLoop_close hread hnext]
      exact ⟨_, hheaders, .last hread (by simp) (by rw [hnext, declaresAfter])⟩
  | case6 s c f rest hread hlt opcode payload hnext =>
      rw [readLoop_message hread hnext]
      exact ⟨_, rfl, .last hread (by simp) (by rw [hnext, declaresAfter])⟩
  | case7 s c f rest hread hlt e hnext =>
      rw [readLoop_failed hread hnext]
      exact ⟨_, rfl, .last hread (by simp) (by rw [hnext, declaresAfter])⟩

/-- **When reading is bounded.**  On every feed, whatever becomes of the answers to pings and
however much `make` can allocate, `ReadMessage` ends with a message or an error and every length
it passes to `make` is between zero and the read limit, if and only if no header in the feed, up
to where the message ends, declares more than the read limit or than `make` can allocate. -/
theorem readMessage_bounded_iff (maxAlloc : ℕ) (readLimit : GoInt) (input : Feed UInt8)
    (writes : List Bool) (written : Bytes) :
    (((∃ opcode payload, (readMessage maxAlloc readLimit ⟨input, writes, written, []⟩).1 =
          .message opcode payload) ∨
        ∃ e, (readMessage maxAlloc readLimit ⟨input, writes, written, []⟩).1 =
          .halt (.error e)) ∧
      ∀ h ∈ (readMessage maxAlloc readLimit ⟨input, writes, written, []⟩).2.headers,
        0 ≤ h.length ∧ h.length ≤ readLimit.1) ↔
      declaresWithin maxAlloc readLimit .fresh writes input = true := by
  obtain ⟨hs, hheaders, hc⟩ :=
    readLoop_cameTo maxAlloc readLimit .fresh ⟨input, writes, written, []⟩
  rw [readMessage, hheaders, List.nil_append, hc.scan_iff]
  constructor
  · rintro ⟨hout, hmake⟩ h hmem
    have hpanic : ¬ ∃ h ∈ hs, h.Panics maxAlloc := by
      rw [← hc.panic_iff]
      rintro hpanic
      rw [hpanic] at hout
      simp at hout
    exact (h.within_iff maxAlloc readLimit).2 ⟨fun hp => hpanic ⟨h, hmem, hp⟩, hmake h hmem⟩
  · intro hdecl
    refine ⟨?_, fun h hmem => ((h.within_iff maxAlloc readLimit).1 (hdecl h hmem)).2⟩
    have hpanic := mt hc.panic_iff.1 fun ⟨h, hmem, hp⟩ =>
      ((h.within_iff maxAlloc readLimit).1 (hdecl h hmem)).1 hp
    cases hout : (readLoop maxAlloc readLimit .fresh ⟨input, writes, written, []⟩).1 with
    | message opcode payload => exact Or.inl ⟨opcode, payload, rfl⟩
    | halt e =>
        cases e with
        | error e => exact Or.inr ⟨e, rfl⟩
        | panic => exact absurd hout hpanic

/-- **Counterexample.**  Fourteen bytes that declare a payload of `2^63` bytes make
`ReadMessage` panic, as do fourteen bytes that declare `2^48` and one, and fourteen bytes that
declare `2^32` bytes have them allocated, under a read limit of 1024. -/
theorem readMessage_unbounded :
    (readMessage (2 ^ 48) ⟨1024, by decide⟩
      ⟨[0x81, 0xFF, 0x80, 0, 0, 0, 0, 0, 0, 0, 0, 0, 0, 0].map some, [], [], []⟩).1 =
        .halt .panic ∧
    (readMessage (2 ^ 48) ⟨1024, by decide⟩
      ⟨[0x81, 0xFF, 0, 1, 0, 0, 0, 0, 0, 1, 0, 0, 0, 0].map some, [], [], []⟩).1 =
        .halt .panic ∧
    ∃ h ∈ (readMessage (2 ^ 48) ⟨1024, by decide⟩
      ⟨[0x82, 0xFF, 0, 0, 0, 1, 0, 0, 0, 0, 0, 0, 0, 0].map some, [], [], []⟩).2.headers,
        1024 < h.length := by
  decide +kernel

end NativeWS
end GoSocket
