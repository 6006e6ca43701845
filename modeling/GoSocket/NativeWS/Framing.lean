/-
# Which frames make a message

By RFC 6455 the first data frame of a message has the opcode of the message, the others
are continuations, and the last one and no other is final; a control frame may come
between them, is final itself and has at most 125 bytes of payload (`LegalMessage`).

`ReadMessage` keeps the opcode of the message in `msgOpcode`, where zero means that there
is none yet.  Zero is also the opcode of a continuation, so continuations before the first
frame of a message are taken as its beginning; and a ping or a pong is handled before
anything is checked about it.  Everything else that is not legal is refused: if a message
is returned, its frames are legal exactly when the peer did neither of the two
(`legalMessage_iff`), which is said of the frames in the feed up to the first final data
frame (`wellFramed`).
-/

import GoSocket.NativeWS.Limit

namespace GoSocket

open Lib

namespace NativeWS

/-- The data frames among some frames; a control frame has the highest bit of the opcode
set. -/
def dataFrames (hs : List Header) : List Header := hs.filter fun h => h.opcode < 8

/-- The frames of one message, with the control frames between them. -/
structure LegalMessage (hs : List Header) : Prop where
  first : ∃ h, (dataFrames hs).head? = some h ∧
    (h.opcode = opcodeText ∨ h.opcode = opcodeBinary)
  continued : ∀ h ∈ (dataFrames hs).tail, h.opcode = opcodeContinuation
  last : ∃ init h, dataFrames hs = init ++ [h] ∧ h.fin = true ∧ ∀ g ∈ init, g.fin = false
  control : ∀ h ∈ hs, 8 ≤ h.opcode → h.fin = true ∧ h.length ≤ maxControlPayload

/-- A data frame counts. -/
theorem dataFrames_of_data {h : Header} (hdata : h.opcode < 8) (hs : List Header) :
    dataFrames (h :: hs) = h :: dataFrames hs :=
  List.filter_cons_of_pos (by simpa using hdata)

/-- A control frame does not. -/
theorem dataFrames_of_control {h : Header} (hcontrol : 8 ≤ h.opcode) (hs : List Header) :
    dataFrames (h :: hs) = dataFrames hs :=
  List.filter_cons_of_neg (by simpa using hcontrol)

/-- A frame that was read has a header, and a payload of the length that the header gives. -/
theorem headerOf_of_ok {maxAlloc : ℕ} {s rest : Feed UInt8} {f : Frame}
    (h : readFrame maxAlloc s = (.ok f, rest)) :
    ∃ head, headerOf s = some head ∧ f.fin = head.fin ∧ f.opcode = head.opcode ∧
      (f.data.length : ℤ) = head.length := by
  rcases hread : readHeader s with ⟨e | head, t⟩
  · cases h.symm.trans (Reader.bind_of_error hread)
  · have hframe : readFrame maxAlloc s = Reader.bind (readPayload maxAlloc head)
        (fun data => Reader.ret ⟨head.fin, head.opcode, data⟩) t := Reader.bind_of_ok hread
    refine ⟨head, by rw [headerOf, hread], ?_⟩
    rcases hpayload : readPayload maxAlloc head t with ⟨e | data, t'⟩
    · cases h.symm.trans (hframe.trans (Reader.bind_of_error hpayload))
    · cases h.symm.trans (hframe.trans (Reader.bind_of_ok hpayload))
      exact ⟨rfl, rfl, length_of_readPayload hpayload⟩

section next

variable {s s' : Partial} {readLimit : GoInt} {f : Frame}

/-- Only a ping is answered by a pong. -/
theorem Partial.next_pong {data : Bytes} (h : s.next readLimit f = .pong data) :
    f.opcode = opcodePing := by
  have htook := s.took readLimit f
  rw [h] at htook
  cases htook with
  | ping hping => exact hping

/-- Within a message only continuations are accepted. -/
theorem Partial.continuation_of_next {r : Next} (hdata : f.IsData) (hs : s.msgOpcode ≠ 0)
    (h : s.next readLimit f = r) (hr : ∀ e, r ≠ .error e) : f.opcode = opcodeContinuation := by
  by_contra hop
  refine hr (.unexpectedOpcode f.opcode) (h.symm.trans ?_)
  rw [Partial.next, if_neg hdata.1, if_neg hdata.2.1, if_neg hdata.2.2, if_pos ⟨hs, hop⟩]

/-- A message is a text or binary. -/
theorem Partial.opcode_of_next {opcode : ℕ} {payload : Bytes}
    (h : s.next readLimit f = .message opcode payload) :
    opcode = opcodeText ∨ opcode = opcodeBinary := by
  have htook := s.took readLimit f
  rw [h] at htook
  cases htook with
  | message hdata hfin =>
      by_contra hop
      rw [Partial.next, if_neg hdata.1, if_neg hdata.2.1, if_neg hdata.2.2] at h
      by_cases hunexpected : s.msgOpcode ≠ 0 ∧ f.opcode ≠ opcodeContinuation
      · rw [if_pos hunexpected] at h
        cases h
      rw [if_neg hunexpected] at h
      by_cases hlimit : 0 < readLimit.1 ∧ readLimit.1 < (s.buf ++ f.data).length
      · rw [if_pos hlimit] at h
        cases h
      have hother : (if s.msgOpcode = 0 then f.opcode else s.msgOpcode) ≠ opcodeText ∧
          (if s.msgOpcode = 0 then f.opcode else s.msgOpcode) ≠ opcodeBinary := not_or.1 hop
      rw [if_neg hlimit, if_pos hfin, if_pos hother] at h
      cases h

end next

/-- What is known of the frames that made a message with this opcode, if `k` was `msgOpcode`
before them. -/
structure Consumed (opcode k : ℕ) (hs : List Header) : Prop where
  kind : opcode = opcodeText ∨ opcode = opcodeBinary
  kept : k ≠ 0 → k = opcode
  started : k ≠ 0 → ∀ h ∈ dataFrames hs, h.opcode = opcodeContinuation
  fresh : k = 0 → ∀ h, (dataFrames hs).head? = some h → h.opcode ≠ opcodeContinuation →
    h.opcode = opcode ∧ ∀ g ∈ (dataFrames hs).tail, g.opcode = opcodeContinuation
  last : ∃ init h, dataFrames hs = init ++ [h] ∧ h.fin = true ∧ ∀ g ∈ init, g.fin = false
  control : ∀ h ∈ hs, 8 ≤ h.opcode → h.opcode = opcodePing ∨ h.opcode = opcodePong

namespace Consumed

variable {opcode k : ℕ} {hs : List Header} {h : Header}

/-- A control frame changes nothing. -/
theorem cons_control (hc : Consumed opcode k hs)
    (hop : h.opcode = opcodePing ∨ h.opcode = opcodePong) : Consumed opcode k (h :: hs) := by
  have hcontrol : 8 ≤ h.opcode := by rcases hop with hop | hop <;> rw [hop] <;> decide
  have hsame := dataFrames_of_control hcontrol hs
  refine ⟨hc.kind, hc.kept, ?_, ?_, ?_, ?_⟩
  · rw [hsame]
    exact hc.started
  · rw [hsame]
    exact hc.fresh
  · rw [hsame]
    exact hc.last
  · rintro g hg hctl
    rcases List.mem_cons.1 hg with rfl | hg
    · exact hop
    · exact hc.control g hg hctl

/-- A fragment that is not the last one. -/
theorem cons_data (hc : Consumed opcode (if k = 0 then h.opcode else k) hs) (hfin : h.fin = false)
    (hcont : k ≠ 0 → h.opcode = opcodeContinuation) : Consumed opcode k (h :: hs) := by
  -- if it is no continuation it is the first frame, and its opcode is that of the message
  have hfirst : k = 0 → h.opcode ≠ opcodeContinuation → h.opcode = opcode := by
    intro hk hop
    rw [if_pos hk] at hc
    exact hc.kept hop
  have hdata : h.opcode < 8 := by
    by_cases hop : h.opcode = opcodeContinuation
    · rw [hop]
      decide
    · rw [hfirst (by_contra fun hk => hop (hcont hk)) hop]
      rcases hc.kind with hkind | hkind <;> rw [hkind] <;> decide
  have hframes := dataFrames_of_data hdata hs
  obtain ⟨init, l, hl, hlfin, hinit⟩ := hc.last
  refine ⟨hc.kind, fun hk => ?_, fun hk => ?_, fun hk g hg hop => ?_, ?_, ?_⟩
  · rw [if_neg hk] at hc
    exact hc.kept hk
  · rw [if_neg hk] at hc
    rw [hframes]
    exact List.forall_mem_cons.2 ⟨hcont hk, hc.started hk⟩
  · rw [hframes] at hg ⊢
    obtain rfl : h = g := Option.some.inj hg
    rw [if_pos hk] at hc
    exact ⟨hfirst hk hop, hc.started hop⟩
  · refine ⟨h :: init, l, by rw [hframes, hl, List.cons_append], hlfin, ?_⟩
    exact List.forall_mem_cons.2 ⟨hfin, hinit⟩
  · exact List.forall_mem_cons.2 ⟨fun hctl => absurd hdata (Nat.not_lt.2 hctl), hc.control⟩

/-- The last frame. -/
theorem singleton (hkind : opcode = opcodeText ∨ opcode = opcodeBinary)
    (hop : (if k = 0 then h.opcode else k) = opcode) (hfin : h.fin = true)
    (hcont : k ≠ 0 → h.opcode = opcodeContinuation) : Consumed opcode k [h] := by
  have hdata : h.opcode < 8 := by
    by_cases hk : k = 0
    · rw [if_pos hk] at hop
      rcases hkind with hkind | hkind <;> rw [hop, hkind] <;> decide
    · rw [hcont hk]
      decide
  have hframes : dataFrames [h] = [h] := dataFrames_of_data hdata []
  refine ⟨hkind, fun hk => ?_, fun hk => ?_, fun hk g hg _ => ?_, ⟨[], h, hframes, hfin, ?_⟩, ?_⟩
  · rwa [if_neg hk] at hop
  · rw [hframes]
    simpa using hcont hk
  · rw [hframes] at hg ⊢
    obtain rfl : h = g := Option.some.inj hg
    rw [if_pos hk] at hop
    exact ⟨hop, by simp⟩
  · simp
  · simpa using fun hctl => absurd hdata (Nat.not_lt.2 hctl)

/-- A frame that is no ping, pong or close is a data frame. -/
theorem lt_of_isData (hc : Consumed opcode k (h :: hs))
    (hdata : h.opcode ≠ opcodePing ∧ h.opcode ≠ opcodePong ∧ h.opcode ≠ opcodeClose) :
    h.opcode < 8 := by
  by_contra hge
  rcases hc.control h List.mem_cons_self (Nat.le_of_not_lt hge) with hop | hop
  · exact hdata.1 hop
  · exact hdata.2.1 hop

section frame

variable {s s' : Partial} {readLimit : GoInt} {f : Frame}

/-- A frame after which `ReadMessage` goes on: a pong or a fragment. -/
theorem of_again (hc : Consumed opcode s'.msgOpcode hs) (hnext : s.next readLimit f = .again s')
    (hfin : f.fin = h.fin) (hop : f.opcode = h.opcode) : Consumed opcode s.msgOpcode (h :: hs) := by
  have htook := s.took readLimit f
  rw [hnext] at htook
  cases htook with
  | pong hpong => exact hc.cons_control (Or.inr (hop ▸ hpong))
  | more hdata hmore =>
      rw [Partial.opcodeWith, hop] at hc
      refine hc.cons_data (hfin ▸ hmore) fun hk => ?_
      exact hop ▸ Partial.continuation_of_next hdata hk hnext (by simp)

/-- The frame that ends a message. -/
theorem of_message {payload : Bytes} (hnext : s.next readLimit f = .message opcode payload)
    (hfin : f.fin = h.fin) (hop : f.opcode = h.opcode) : Consumed opcode s.msgOpcode [h] := by
  have hkind := Partial.opcode_of_next hnext
  have htook := s.took readLimit f
  rw [hnext] at htook
  cases htook with
  | message hdata hlast =>
      refine .singleton hkind ?_ (hfin ▸ hlast) fun hk => ?_
      · rw [Partial.opcodeWith, hop]
      · exact hop ▸ Partial.continuation_of_next hdata hk hnext (by simp)

end frame

end Consumed

/-- What the peer of a legal message does: every ping and pong is final and short, and the
message does not begin with a continuation.  `started` says that a data frame came before. -/
structure WellFramed (started : Bool) (hs : List Header) : Prop where
  control : ∀ h ∈ hs, h.opcode = opcodePing ∨ h.opcode = opcodePong →
    h.fin = true ∧ h.length ≤ maxControlPayload
  first : started = false → ∀ h ∈ (dataFrames hs).head?, h.opcode ≠ opcodeContinuation

/-- The same of the frames in a feed, up to the first final data frame. -/
def wellFramed (maxAlloc : ℕ) (started : Bool) (input : Feed UInt8) : Bool :=
  match hread : readFrame maxAlloc input with
  | (.error _, _) => true
  | (.ok f, rest) =>
      have : rest.length < input.length := takes_readFrame maxAlloc _ _ _ hread
      if f.opcode = opcodePing ∨ f.opcode = opcodePong then
        decide (f.fin = true ∧ f.data.length ≤ maxControlPayload) &&
          wellFramed maxAlloc started rest
      else
        (started || decide (f.opcode ≠ opcodeContinuation)) &&
          (f.fin || wellFramed maxAlloc true rest)
termination_by input.length
decreasing_by all_goals assumption

section wellFramed

variable {maxAlloc : ℕ} {started : Bool} {input rest : Feed UInt8} {f : Frame} {h : Header}
  {hs : List Header}

/-- What the scan asks of the next frame in the feed. -/
theorem wellFramed_of_ok (hread : readFrame maxAlloc input = (.ok f, rest)) :
    wellFramed maxAlloc started input =
      if f.opcode = opcodePing ∨ f.opcode = opcodePong then
        decide (f.fin = true ∧ f.data.length ≤ maxControlPayload) &&
          wellFramed maxAlloc started rest
      else
        (started || decide (f.opcode ≠ opcodeContinuation)) &&
          (f.fin || wellFramed maxAlloc true rest) := by
  rw [wellFramed]
  split
  · rename_i h
    cases hread.symm.trans h
  · rename_i h
    cases hread.symm.trans h
    rfl

/-- A control frame at the front. -/
theorem wellFramed_cons_control (hop : h.opcode = opcodePing ∨ h.opcode = opcodePong) :
    WellFramed started (h :: hs) ↔
      (h.fin = true ∧ h.length ≤ maxControlPayload) ∧ WellFramed started hs := by
  have hcontrol : 8 ≤ h.opcode := by rcases hop with hop | hop <;> rw [hop] <;> decide
  constructor
  · rintro ⟨hctl, hfirst⟩
    rw [dataFrames_of_control hcontrol] at hfirst
    rw [List.forall_mem_cons] at hctl
    exact ⟨hctl.1 hop, hctl.2, hfirst⟩
  · rintro ⟨hhead, hctl, hfirst⟩
    refine ⟨List.forall_mem_cons.2 ⟨fun _ => hhead, hctl⟩, ?_⟩
    rwa [dataFrames_of_control hcontrol]

/-- A data frame at the front. -/
theorem wellFramed_cons_data (hdata : h.opcode < 8) :
    WellFramed started (h :: hs) ↔
      (started = false → h.opcode ≠ opcodeContinuation) ∧ WellFramed true hs := by
  have hno : ¬ (h.opcode = opcodePing ∨ h.opcode = opcodePong) := by
    rintro (hop | hop) <;> rw [hop] at hdata <;> exact absurd hdata (by decide)
  constructor
  · rintro ⟨hctl, hfirst⟩
    rw [dataFrames_of_data hdata] at hfirst
    rw [List.forall_mem_cons] at hctl
    exact ⟨fun hst => hfirst hst h rfl, hctl.2, by simp⟩
  · rintro ⟨hhead, hctl, -⟩
    refine ⟨List.forall_mem_cons.2 ⟨fun hop => absurd hop hno, hctl⟩, fun hst g hg => ?_⟩
    rw [dataFrames_of_data hdata] at hg
    obtain rfl : h = g := Option.some.inj hg
    exact hhead hst

/-- **The scan is about the frames that are read**: a ping or pong. -/
theorem wellFramed_control_iff (hread : readFrame maxAlloc input = (.ok f, rest))
    (hhead : f.fin = h.fin ∧ f.opcode = h.opcode ∧ (f.data.length : ℤ) = h.length)
    (hop : h.opcode = opcodePing ∨ h.opcode = opcodePong)
    (hrest : wellFramed maxAlloc started rest = true ↔ WellFramed started hs) :
    wellFramed maxAlloc started input = true ↔ WellFramed started (h :: hs) := by
  obtain ⟨hfin, hopcode, hlen⟩ := hhead
  rw [wellFramed_of_ok hread, hopcode, if_pos hop, Bool.and_eq_true, decide_eq_true_eq, hrest,
    wellFramed_cons_control hop, hfin, ← hlen, Int.ofNat_le]

/-- A data frame. -/
theorem wellFramed_data_iff (hread : readFrame maxAlloc input = (.ok f, rest))
    (hopcode : f.opcode = h.opcode) (hdata : h.opcode < 8)
    (hrest : (f.fin || wellFramed maxAlloc true rest) = true ↔ WellFramed true hs) :
    wellFramed maxAlloc started input = true ↔ WellFramed started (h :: hs) := by
  have hno : ¬ (h.opcode = opcodePing ∨ h.opcode = opcodePong) := by
    rintro (hop | hop) <;> rw [hop] at hdata <;> exact absurd hdata (by decide)
  rw [wellFramed_of_ok hread, hopcode, if_neg hno, Bool.and_eq_true, hrest,
    wellFramed_cons_data hdata]
  cases started <;> simp

variable {readLimit : GoInt} {s s' : Partial} {opcode : ℕ}

/-- A frame after which `ReadMessage` goes on: a pong or a fragment. -/
theorem wellFramed_of_again (hread : readFrame maxAlloc input = (.ok f, rest))
    (hhead : f.fin = h.fin ∧ f.opcode = h.opcode ∧ (f.data.length : ℤ) = h.length)
    (hnext : s.next readLimit f = .again s') (hc : Consumed opcode s.msgOpcode (h :: hs))
    (hrest : ∀ started, wellFramed maxAlloc started rest = true ↔ WellFramed started hs) :
    wellFramed maxAlloc started input = true ↔ WellFramed started (h :: hs) := by
  have htook := s.took readLimit f
  rw [hnext] at htook
  cases htook with
  | pong hpong =>
      exact wellFramed_control_iff hread hhead (Or.inr (hhead.2.1 ▸ hpong)) (hrest started)
  | more hdata hfin =>
      refine wellFramed_data_iff hread hhead.2.1 (hc.lt_of_isData (hhead.2.1 ▸ hdata)) ?_
      rw [hfin, Bool.false_or]
      exact hrest true

/-- The frame that ends a message. -/
theorem wellFramed_of_message {payload : Bytes} (hread : readFrame maxAlloc input = (.ok f, rest))
    (hopcode : f.opcode = h.opcode) (hnext : s.next readLimit f = .message opcode payload)
    (hc : Consumed opcode s.msgOpcode [h]) :
    wellFramed maxAlloc started input = true ↔ WellFramed started [h] := by
  have htook := s.took readLimit f
  rw [hnext] at htook
  cases htook with
  | message hdata hfin =>
      refine wellFramed_data_iff hread hopcode (hc.lt_of_isData (hopcode ▸ hdata)) ?_
      rw [hfin, Bool.true_or]
      exact iff_of_true rfl ⟨by simp, by simp⟩

end wellFramed

/-- **The frames of a message that was returned**, and what the scan says of them. -/
theorem readLoop_consumed (maxAlloc : ℕ) (readLimit : GoInt) (s : Partial) (c : Conn) {opcode : ℕ}
    {payload : Bytes} (h : (readLoop maxAlloc readLimit s c).1 = .message opcode payload) :
    ∃ hs, (readLoop maxAlloc readLimit s c).2.headers = c.headers ++ hs ∧
      Consumed opcode s.msgOpcode hs ∧
      ∀ started, wellFramed maxAlloc started c.input = true ↔ WellFramed started hs := by
  induction s, c using readLoop.induct maxAlloc readLimit with
  | case1 s c e rest hread =>
      rw [readLoop_of_error hread] at h
      cases h
  | case2 s c f rest hread hlt s' hnext ih =>
      rw [readLoop_again hread hnext] at h ⊢
      obtain ⟨hs, hheaders, hc, hscan⟩ := ih h
      obtain ⟨head, hhead, hsame⟩ := headerOf_of_ok hread
      have hc' : Consumed opcode s.msgOpcode (head :: hs) := hc.of_again hnext hsame.1 hsame.2.1
      refine ⟨head :: hs, ?_, hc', fun started => wellFramed_of_again hread hsame hnext hc' hscan⟩
      rw [hheaders, Conn.after, hhead]
      simp
  | case3 s c f rest hread hlt data hnext d _ hwrite =>
      rw [readLoop_pong_failed hread hnext hwrite] at h
      cases h
  | case4 s c f rest hread hlt data hnext d hd hwrite _ ih =>
      rw [readLoop_pong hread hnext hwrite] at h ⊢
      obtain ⟨hs, hheaders, hc, hscan⟩ := ih h
      obtain ⟨head, hhead, hsame⟩ := headerOf_of_ok hread
      have hping : head.opcode = opcodePing := hsame.2.1 ▸ Partial.next_pong hnext
      refine ⟨head :: hs, ?_, hc.cons_control (Or.inl hping), fun started => ?_⟩
      · rw [hheaders, Conn.headers_of_writeFrame hwrite, Conn.after, hhead]
        simp
      · refine wellFramed_control_iff hread hsame (Or.inl hping) ?_
        rw [← show d.input = rest from hd]
        exact hscan started
  | case5 s c f rest hread hlt hnext =>
      rw [readLoop_close hread hnext] at h
      cases h
  | case6 s c f rest hread hlt opcode payload hnext =>
      rw [readLoop_message hread hnext] at h ⊢
      cases h
      obtain ⟨head, hhead, hsame⟩ := headerOf_of_ok hread
      have hc : Consumed opcode s.msgOpcode [head] := .of_message hnext hsame.1 hsame.2.1
      refine ⟨[head], ?_, hc, fun started => wellFramed_of_message hread hsame.2.1 hnext hc⟩
      rw [Conn.after, hhead]
      rfl
  | case7 s c f rest hread hlt e hnext =>
      rw [readLoop_failed hread hnext] at h
      cases h

/-- What the peer of a legal message has done. -/
theorem LegalMessage.wellFramed {hs : List Header} (h : LegalMessage hs) : WellFramed false hs := by
  refine ⟨fun g hg hop => h.control g hg ?_, fun _ g hg hop => ?_⟩
  · rcases hop with hop | hop <;> rw [hop] <;> decide
  · obtain ⟨first, hfirst, hkind⟩ := h.first
    obtain rfl : first = g := Option.some.inj (hfirst.symm.trans hg)
    rw [hop] at hkind
    exact absurd hkind (by decide)

/-- **When the frames of a message are legal.**  On every feed, whenever `ReadMessage` returns a
message, the frames it has taken are a legal message if and only if, in the feed up to the first
final data frame, every ping and pong is final and has at most 125 bytes, and the first data
frame is no continuation. -/
theorem legalMessage_iff (maxAlloc : ℕ) (readLimit : GoInt) (input : Feed UInt8)
    (writes : List Bool) (written : Bytes) (opcode : ℕ) (payload : Bytes)
    (h : (readMessage maxAlloc readLimit ⟨input, writes, written, []⟩).1 =
      .message opcode payload) :
    LegalMessage (readMessage maxAlloc readLimit ⟨input, writes, written, []⟩).2.headers ↔
      wellFramed maxAlloc false input = true := by
  obtain ⟨hs, hheaders, hc, hscan⟩ := readLoop_consumed maxAlloc readLimit .fresh _ h
  rw [readMessage, hheaders, List.nil_append, hscan]
  constructor
  · exact LegalMessage.wellFramed
  · rintro ⟨hcontrol, hfirst⟩
    obtain ⟨init, l, hl, hlfin, hinit⟩ := hc.last
    obtain ⟨first, hhead⟩ : ∃ first, (dataFrames hs).head? = some first := by
      rw [hl]
      cases init <;> exact ⟨_, rfl⟩
    obtain ⟨hop, htail⟩ := hc.fresh rfl first hhead (hfirst rfl first hhead)
    exact ⟨⟨first, hhead, hop ▸ hc.kind⟩, htail, ⟨init, l, hl, hlfin, hinit⟩,
      fun g hg hctl => hcontrol g hg (hc.control g hg hctl)⟩

/-- `ReadMessage` on some bytes, with a read limit of 1024. -/
def readBytes (bytes : Bytes) : Outcome × Conn :=
  readMessage (2 ^ 48) ⟨1024, by decide⟩ ⟨bytes.map some, [], [], []⟩

/-- A text in two fragments with a ping between them is legal. -/
theorem legalMessage_fragmented :
    LegalMessage (readBytes [0x01, 0x80, 0, 0, 0, 0, 0x89, 0x80, 0, 0, 0, 0,
      0x80, 0x81, 0, 0, 0, 0, 0x61]).2.headers :=
  (legalMessage_iff (2 ^ 48) ⟨1024, by decide⟩ _ [] [] opcodeText (ascii "a")
    (by decide +kernel)).2 (by decide +kernel)

/-- **Counterexample.**  A continuation before the first frame, a ping that is not final, and a
ping with 126 bytes: each time a message is returned, and its frames are not legal. -/
theorem illegal_accepted :
    ((readBytes [0x00, 0x81, 0, 0, 0, 0, 0x61, 0x81, 0x81, 0, 0, 0, 0, 0x62]).1 =
        .message opcodeText (ascii "ab") ∧
      ¬ LegalMessage (readBytes [0x00, 0x81, 0, 0, 0, 0, 0x61,
        0x81, 0x81, 0, 0, 0, 0, 0x62]).2.headers) ∧
    ((readBytes [0x09, 0x80, 0, 0, 0, 0, 0x81, 0x81, 0, 0, 0, 0, 0x62]).1 =
        .message opcodeText (ascii "b") ∧
      ¬ LegalMessage (readBytes [0x09, 0x80, 0, 0, 0, 0,
        0x81, 0x81, 0, 0, 0, 0, 0x62]).2.headers) ∧
    ((readBytes ([0x89, 0xFE, 0, 126, 0, 0, 0, 0] ++ List.replicate 126 0 ++
        [0x81, 0x81, 0, 0, 0, 0, 0x62])).1 = .message opcodeText (ascii "b") ∧
      ¬ LegalMessage (readBytes ([0x89, 0xFE, 0, 126, 0, 0, 0, 0] ++ List.replicate 126 0 ++
        [0x81, 0x81, 0, 0, 0, 0, 0x62])).2.headers) := by
  refine ⟨⟨by decide +kernel, fun h => ?_⟩, ⟨by decide +kernel, fun h => ?_⟩,
    by decide +kernel, fun h => ?_⟩
  · exact absurd (h.wellFramed.first rfl) (by decide +kernel)
  · exact absurd h.wellFramed.control (by decide +kernel)
  · exact absurd h.wellFramed.control (by decide +kernel)

end NativeWS
end GoSocket
