/-
# Who writes to a native WebSocket connection

A frame is two `Write` calls of the connection, its header and its payload.
`WriteMessage` and `WriteControl` make them under `writeMu`; the answers of `ReadMessage`
to a ping and to a close frame are written without it.

`Sock` has the reader and any number of calls of the two writing methods.  `readMu` lets
one `ReadMessage` run at a time, and it may be called again whatever it has returned.
Calls wait for `writeMu` in no particular order, so the one that holds it is all that is
kept of those that have begun.  Each `Write` is one step; it appends its bytes, or it
fails and appends nothing, and then `writeFrame` returns.

If no `Write` fails, the bytes are always a sequence of whole frames exactly when no
frame with a payload can meet a frame of the other side (`whole_frames_iff`).
-/

import GoSocket.Lib.Pieces
import GoSocket.Lib.Steps
import GoSocket.NativeWS.Conn
import Mathlib.Algebra.Group.Nat.Defs

namespace GoSocket

open Lib

namespace NativeWS

/-- What `writeFrame(true, …)` is called with. -/
structure Out where
  opcode : ℤ
  payload : Bytes
  deriving DecidableEq

/-- How many `Write` calls `writeFrame` makes. -/
def Out.size (f : Out) : ℕ := if f.payload = [] then 1 else 2

/-- The bytes of a frame. -/
def Out.bytes (f : Out) : Bytes := header true f.opcode f.payload.length ++ f.payload

/-- Who writes a frame: `ReadMessage`, or the holder of `writeMu`. -/
inductive Party where
  | reader
  | writer
  deriving DecidableEq

/-- A call of a writing method. -/
inductive Call where
  /-- `WriteMessage(opcode, data)`. -/
  | message (opcode : ℤ) (data : Bytes)
  /-- `WriteControl(opcode, data)`. -/
  | control (opcode : ℤ) (data : Bytes)
  deriving DecidableEq

/-- The frame of a call; a large control frame is refused. -/
def Call.frame : Call → Option Out
  | .message opcode data => some ⟨opcode, data⟩
  | .control opcode data => if maxControlPayload < data.length then none else some ⟨opcode, data⟩

/-- Where the reader is. -/
inductive ReadStage where
  /-- No `ReadMessage` is running. -/
  | idle
  /-- `readFrame` is to be called. -/
  | reading (s : Partial)
  /-- The next of the `Write` calls for an answer is to be made.  After a ping the loop
  goes on; after a close `ReadMessage` returns. -/
  | answering (f : Out) (k : ℕ) (s : Option Partial)
  /-- `make` has panicked. -/
  | panicked
  deriving DecidableEq

/-- The answer that is being written, and how many of its `Write` calls are made. -/
def ReadStage.pos : ReadStage → Option (Out × ℕ)
  | .answering f k _ => some (f, k)
  | .idle | .reading _ | .panicked => none

/-- A connection with everyone who uses it. -/
structure Sock where
  input : Feed UInt8
  reader : ReadStage
  /-- The calls that do not hold `writeMu` yet. -/
  pending : List Call
  /-- The frame of the call that holds `writeMu`, and how many of its `Write` calls are made. -/
  holder : Option (Out × ℕ)
  /-- The `Write` calls that were made. -/
  log : List (Piece Party Out)
  deriving DecidableEq

/-- A step, with whether the `Write` call in it succeeds. -/
inductive SockOp where
  | read (ok : Bool)
  | call (c : Call)
  | write (ok : Bool)
  deriving DecidableEq

/-- The bytes of one `Write` call. -/
def pieceBytes (p : Piece Party Out) : Bytes :=
  if p.index = 0 then header true p.what.opcode p.what.payload.length else p.what.payload

namespace Sock

def init (input : Feed UInt8) (calls : List Call) : Sock where
  input := input
  reader := .idle
  pending := calls
  holder := none
  log := []

/-- What was written to the connection. -/
def written (s : Sock) : Bytes := s.log.flatMap pieceBytes

/-- Where `ReadMessage` goes after a frame. -/
def afterFrame (readLimit : GoInt) (p : Partial) (f : Frame) : ReadStage :=
  match p.next readLimit f with
  | .again p => .reading p
  | .pong data => .answering ⟨opcodePong, data⟩ 0 (some p)
  | .close => .answering ⟨opcodeClose, []⟩ 0 none
  | .message .. => .idle
  | .error _ => .idle

/-- The next step of the reader. -/
def stepRead (maxAlloc : ℕ) (readLimit : GoInt) (s : Sock) (ok : Bool) : Option Sock :=
  match s.reader with
  | .idle => some { s with reader := .reading .fresh }
  | .reading p =>
      match readFrame maxAlloc s.input with
      | (.ok f, rest) => some { s with input := rest, reader := afterFrame readLimit p f }
      | (.error .panic, _) => some { s with reader := .panicked }
      | (.error (.error _), rest) => some { s with input := rest, reader := .idle }
  | .answering f k p =>
      if k < f.size then
        if ok then
          some { s with reader := .answering f (k + 1) p, log := s.log ++ [⟨.reader, f, k⟩] }
        else some { s with reader := .idle }
      else
        match p with
        | some p => some { s with reader := .reading p }
        | none => some { s with reader := .idle }
  | .panicked => none

/-- A call takes `writeMu`, or is refused before. -/
def stepCall (s : Sock) (c : Call) : Option Sock :=
  if c ∈ s.pending then
    match c.frame with
    | none => some { s with pending := s.pending.erase c }
    | some f =>
        if s.holder = none then
          some { s with pending := s.pending.erase c, holder := some (f, 0) }
        else none
  else none

/-- The next step of the call that holds `writeMu`. -/
def stepWrite (s : Sock) (ok : Bool) : Option Sock :=
  match s.holder with
  | none => none
  | some (f, k) =>
      if k < f.size then
        if ok then some { s with holder := some (f, k + 1), log := s.log ++ [⟨.writer, f, k⟩] }
        else some { s with holder := none }
      else some { s with holder := none }

def step (maxAlloc : ℕ) (readLimit : GoInt) (s : Sock) : SockOp → Option Sock
  | .read ok => stepRead maxAlloc readLimit s ok
  | .call c => stepCall s c
  | .write ok => stepWrite s ok

/-- The step relation. -/
def Step (maxAlloc : ℕ) (readLimit : GoInt) (s : Sock) (a : SockOp) (s' : Sock) : Prop :=
  step maxAlloc readLimit s a = some s'

/-- No `Write` call fails in a step. -/
def Succeeds (_ : Sock) : SockOp → Prop
  | .read ok => ok = true
  | .call _ => True
  | .write ok => ok = true

instance (s : Sock) (a : SockOp) : Decidable (Succeeds s a) := by
  unfold Succeeds
  split <;> infer_instance

/-- The frame a party is writing, and how far it is. -/
def pos (s : Sock) : Party → Option (Out × ℕ)
  | .reader => s.reader.pos
  | .writer => s.holder

end Sock

/-- The answer of `ReadMessage` to a frame. -/
def answer (f : Frame) : Option Out :=
  if f.opcode = opcodePing then some ⟨opcodePong, f.data⟩
  else if f.opcode = opcodeClose then some ⟨opcodeClose, []⟩
  else none

/-- The answers to everything the peer sends, if `ReadMessage` is called as long as there is
something to read. -/
def answersOf (maxAlloc : ℕ) (input : Feed UInt8) : List Out :=
  match hread : readFrame maxAlloc input with
  | (.ok f, rest) =>
      have : rest.length < input.length := takes_readFrame maxAlloc _ _ _ hread
      (answer f).toList ++ answersOf maxAlloc rest
  | (.error .panic, _) => []
  | (.error (.error _), rest) => if rest.length < input.length then answersOf maxAlloc rest else []
termination_by input.length
decreasing_by all_goals assumption

section answers

variable {maxAlloc : ℕ} {input rest : Feed UInt8}

/-- The answers to a feed: that to its first frame and those to the rest. -/
theorem answersOf_of_ok {f : Frame} (hread : readFrame maxAlloc input = (.ok f, rest)) :
    answersOf maxAlloc input = (answer f).toList ++ answersOf maxAlloc rest := by
  rw [answersOf]
  split
  · rename_i h
    cases hread.symm.trans h
    rfl
  · rename_i h
    cases hread.symm.trans h
  · rename_i h
    cases hread.symm.trans h

/-- A frame that fails is not answered, and what it has left is answered as the whole was. -/
theorem answersOf_of_error {e : ReadError}
    (hread : readFrame maxAlloc input = (.error (.error e), rest)) :
    answersOf maxAlloc rest = answersOf maxAlloc input := by
  by_cases hlt : rest.length < input.length
  · rw [answersOf.eq_def maxAlloc input]
    split
    · rename_i h
      cases hread.symm.trans h
    · rename_i h
      cases hread.symm.trans h
    · rename_i h
      cases hread.symm.trans h
      rw [if_pos hlt]
  · -- nothing was taken
    have hsuffix := (regular_readFrame maxAlloc).trims input
    rw [hread] at hsuffix
    rw [show rest = input from hsuffix.eq_of_length_le (Nat.le_of_not_lt hlt)]

/-- A frame that panics is the last one. -/
theorem answersOf_of_panic (hread : readFrame maxAlloc input = (.error .panic, rest)) :
    answersOf maxAlloc input = [] := by
  rw [answersOf]
  split
  · rename_i h
    cases hread.symm.trans h
  · rfl
  · rename_i h
    cases hread.symm.trans h

/-- Nothing more can be read. -/
theorem answersOf_of_stuck {e : ReadError}
    (hread : readFrame maxAlloc input = (.error (.error e), rest))
    (hle : ¬ rest.length < input.length) : answersOf maxAlloc input = [] := by
  rw [answersOf]
  split
  · rename_i h
    cases hread.symm.trans h
  · rfl
  · rename_i h
    cases hread.symm.trans h
    exact if_neg hle

/-- What `ReadMessage` collects makes no difference to what it answers. -/
theorem pos_afterFrame (readLimit : GoInt) (p : Partial) (f : Frame) :
    (∃ q, Sock.afterFrame readLimit p f = .answering q 0 (some p) ∧ answer f = some q) ∨
      (∃ q, Sock.afterFrame readLimit p f = .answering q 0 none ∧ answer f = some q) ∨
      (answer f = none ∧ (Sock.afterFrame readLimit p f = .idle ∨
        ∃ p', Sock.afterFrame readLimit p f = .reading p')) := by
  have htook := p.took readLimit f
  unfold Sock.afterFrame answer
  generalize p.next readLimit f = next at htook ⊢
  have hdata : f.IsData → (if f.opcode = opcodePing then some (⟨opcodePong, f.data⟩ : Out)
      else if f.opcode = opcodeClose then some ⟨opcodeClose, []⟩ else none) = none := by
    intro h
    rw [if_neg h.1, if_neg h.2.2]
  cases htook with
  | ping h => exact Or.inl ⟨_, rfl, if_pos h⟩
  | pong h =>
      rw [h]
      exact Or.inr (Or.inr ⟨rfl, Or.inr ⟨p, rfl⟩⟩)
  | close h =>
      rw [h]
      exact Or.inr (Or.inl ⟨_, rfl, rfl⟩)
  | more h => exact Or.inr (Or.inr ⟨hdata h, Or.inr ⟨_, rfl⟩⟩)
  | unexpected h | limit h | fragmentedControl h | message h =>
      exact Or.inr (Or.inr ⟨hdata h, Or.inl rfl⟩)

end answers

/-- Every frame is written in at least one piece. -/
theorem Out.size_pos (f : Out) : 0 < f.size := by
  unfold Out.size
  split_ifs <;> decide

/-- A frame is written in two pieces when it has a payload. -/
theorem Out.one_lt_size {f : Out} : 1 < f.size ↔ f.payload ≠ [] := by
  unfold Out.size
  split_ifs with h <;> simp [h]

/-- The bytes of whole frames, and at most the beginning of one more. -/
def WholeBytes (bytes : Bytes) : Prop :=
  ∃ (frames : List Out) (last : Bytes), bytes = frames.flatMap Out.bytes ++ last ∧
    ∃ f : Out, last <+: f.bytes

/-- The pieces of a frame are its bytes. -/
theorem flatMap_pieces (w : Party) (f : Out) :
    (pieces Out.size w f).flatMap pieceBytes = f.bytes := by
  unfold pieces Out.size Out.bytes
  split_ifs with h
  · simp [h, pieceBytes]
  · simp [pieceBytes, List.range_succ]

/-- **Whole frames are whole in bytes.** -/
theorem wholeBytes_of_whole {log : List (Piece Party Out)} (h : Whole Out.size log) :
    WholeBytes (log.flatMap pieceBytes) := by
  obtain ⟨done, last, rfl, hlast⟩ := h
  have hdone : (records Out.size done).flatMap pieceBytes =
      (done.map Prod.snd).flatMap Out.bytes := by
    induction done with
    | nil => rfl
    | cons d done ih =>
        rw [records, List.flatMap_cons, List.flatMap_append, flatMap_pieces]
        exact congrArg _ ih
  refine ⟨done.map Prod.snd, last.flatMap pieceBytes, by rw [List.flatMap_append, hdone], ?_⟩
  rcases hlast with rfl | ⟨w, f, tail, htail⟩
  · exact ⟨⟨0, []⟩, List.nil_prefix⟩
  · refine ⟨f, tail.flatMap pieceBytes, ?_⟩
    rw [← List.flatMap_append, htail, flatMap_pieces]

namespace Sock

variable {maxAlloc : ℕ} {readLimit : GoInt} {s s' : Sock} {a : SockOp}

/-- What a step in which no `Write` fails does to the log. -/
inductive Effect (s s' : Sock) : Prop where
  | same : s'.pos = s.pos → s'.log = s.log → Effect s s'
  /-- Nothing, and a party may begin a frame or be done with one. -/
  | turn (w : Party) (x : Option (Out × ℕ)) : ¬ Mid Out.size (s.pos w) → ¬ Mid Out.size x →
      s'.pos = Function.update s.pos w x → s'.log = s.log → Effect s s'
  /-- A party makes the next `Write` call of its frame. -/
  | wrote (w : Party) (f : Out) (k : ℕ) : s.pos w = some (f, k) → k < f.size →
      s'.pos = Function.update s.pos w (some (f, k + 1)) → s'.log = s.log ++ [⟨w, f, k⟩] →
      Effect s s'

/-- The frames that the input and the calls of a state can still lead to. -/
def Source (maxAlloc : ℕ) (s : Sock) : Party → Out → Prop
  | .reader, f => f ∈ answersOf maxAlloc s.input
  | .writer, f => ∃ c ∈ s.pending, c.frame = some f

/-- A frame of which nothing is written is not in the middle. -/
theorem not_mid_zero (f : Out) : ¬ Mid Out.size (some (f, 0)) := by
  rintro ⟨r, k, h, hk, -⟩
  obtain ⟨-, rfl⟩ := Prod.mk.inj (Option.some.inj h)
  exact absurd hk (Nat.lt_irrefl 0)

/-- A frame that is written is not in the middle. -/
theorem not_mid_end {f : Out} {k : ℕ} (hk : ¬ k < f.size) : ¬ Mid Out.size (some (f, k)) := by
  rintro ⟨r, j, h, -, hj⟩
  obtain ⟨rfl, rfl⟩ := Prod.mk.inj (Option.some.inj h)
  exact hk hj

/-- A goroutine with no frame is not in the middle of one. -/
theorem not_mid_none : ¬ Mid Out.size (none : Option (Out × ℕ)) := by
  rintro ⟨r, k, h, -⟩
  cases h

/-- A step that leaves the writer moves the reader alone. -/
theorem pos_update_reader (h : s'.holder = s.holder) :
    s'.pos = Function.update s.pos .reader s'.reader.pos := by
  funext w
  cases w with
  | reader => rfl
  | writer => exact h

/-- A step that leaves the reader moves the writer alone. -/
theorem pos_update_writer (h : s'.reader = s.reader) :
    s'.pos = Function.update s.pos .writer s'.holder := by
  funext w
  cases w with
  | reader => exact congrArg ReadStage.pos h
  | writer => rfl

/-- What is written comes from the input or from a call. -/
structure Traced (maxAlloc : ℕ) (s s' : Sock) : Prop where
  source : ∀ w f, s'.Source maxAlloc w f → s.Source maxAlloc w f
  pos : ∀ w f k, s'.pos w = some (f, k) → s.Source maxAlloc w f ∨ ∃ j, s.pos w = some (f, j)

/-- A step of the reader writes an answer to the feed, or goes on with the one it had. -/
theorem Traced.of_reader
    (hinput : ∀ f ∈ answersOf maxAlloc s'.input, f ∈ answersOf maxAlloc s.input)
    (hpending : s'.pending = s.pending) (hholder : s'.holder = s.holder)
    (hpos : ∀ f k, s'.reader.pos = some (f, k) →
      f ∈ answersOf maxAlloc s.input ∨ ∃ j, s.reader.pos = some (f, j)) : Traced maxAlloc s s' where
  source w f h := by
    cases w with
    | reader => exact hinput f h
    | writer =>
        obtain ⟨c, hc, hf⟩ := h
        exact ⟨c, hpending ▸ hc, hf⟩
  pos w f k h := by
    cases w with
    | reader => exact hpos f k h
    | writer => exact Or.inr ⟨k, hholder.symm.trans h⟩

/-- A step of a writer writes the frame of a call, or goes on with the one it had. -/
theorem Traced.of_writer (hinput : s'.input = s.input) (hreader : s'.reader = s.reader)
    (hpending : ∀ c ∈ s'.pending, c ∈ s.pending)
    (hpos : ∀ f k, s'.holder = some (f, k) →
      s.Source maxAlloc .writer f ∨ ∃ j, s.holder = some (f, j)) : Traced maxAlloc s s' where
  source w f h := by
    cases w with
    | reader =>
        have h : f ∈ answersOf maxAlloc s'.input := h
        rwa [hinput] at h
    | writer =>
        obtain ⟨c, hc, hf⟩ := h
        exact ⟨c, hpending c hc, hf⟩
  pos w f k h := by
    cases w with
    | reader =>
        have h : s'.reader.pos = some (f, k) := h
        rw [hreader] at h
        exact Or.inr ⟨k, h⟩
    | writer => exact hpos f k h

/-- A step of the reader that makes no `Write` call: it begins no frame, or an answer to
what it has read. -/
theorem turn_reader (hold : ¬ Mid Out.size s.reader.pos)
    (hnew : s'.reader.pos = none ∨ ∃ q ∈ answersOf maxAlloc s.input, s'.reader.pos = some (q, 0))
    (hinput : ∀ f ∈ answersOf maxAlloc s'.input, f ∈ answersOf maxAlloc s.input)
    (hpending : s'.pending = s.pending) (hholder : s'.holder = s.holder) (hlog : s'.log = s.log) :
    Effect s s' ∧ Traced maxAlloc s s' := by
  have hmid : ¬ Mid Out.size s'.reader.pos := by
    rcases hnew with hnew | ⟨q, -, hnew⟩
    · rw [hnew]
      exact not_mid_none
    · rw [hnew]
      exact not_mid_zero q
  refine ⟨.turn .reader _ hold hmid (pos_update_reader hholder) hlog,
    .of_reader hinput hpending hholder fun f k hpos => ?_⟩
  rcases hnew with hnew | ⟨q, hq, hnew⟩
  · cases hnew.symm.trans hpos
  · cases hnew.symm.trans hpos
    exact Or.inl hq

/-- What a step of the reader does: it reads a frame, writes one piece of an answer, or is done
with one. -/
theorem stepRead_effect (hstep : stepRead maxAlloc readLimit s true = some s') :
    Effect s s' ∧ Traced maxAlloc s s' := by
  obtain ⟨input, reader, pending, holder, log⟩ := s
  cases reader with
  | idle =>
      obtain rfl := Option.some.inj hstep
      exact turn_reader not_mid_none (Or.inl rfl) (fun _ h => h) rfl rfl rfl
  | reading p =>
      simp only [stepRead] at hstep
      split at hstep
      · rename_i f rest hread
        obtain rfl := Option.some.inj hstep
        have hanswers := answersOf_of_ok hread
        refine turn_reader not_mid_none ?_ (fun q hq => ?_) rfl rfl rfl
        · rcases pos_afterFrame readLimit p f with ⟨q, hq, ha⟩ | ⟨q, hq, ha⟩ | ⟨-, hq | ⟨p', hq⟩⟩
          · exact Or.inr ⟨q, by simp [hanswers, ha], by rw [hq]; rfl⟩
          · exact Or.inr ⟨q, by simp [hanswers, ha], by rw [hq]; rfl⟩
          · exact Or.inl (by rw [hq]; rfl)
          · exact Or.inl (by rw [hq]; rfl)
        · rw [hanswers]
          exact List.mem_append_right _ hq
      · obtain rfl := Option.some.inj hstep
        exact turn_reader not_mid_none (Or.inl rfl) (fun _ h => h) rfl rfl rfl
      · rename_i e rest hread
        obtain rfl := Option.some.inj hstep
        refine turn_reader not_mid_none (Or.inl rfl) (fun q hq => ?_) rfl rfl rfl
        rwa [← answersOf_of_error hread]
  | answering f k p =>
      simp only [stepRead, if_true] at hstep
      split_ifs at hstep with hk
      · obtain rfl := Option.some.inj hstep
        refine ⟨.wrote .reader f k rfl hk (pos_update_reader rfl) rfl,
          .of_reader (fun _ h => h) rfl rfl ?_⟩
        rintro f' k' ⟨⟩
        exact Or.inr ⟨k, rfl⟩
      · -- the answer is written
        cases p with
        | some p =>
            obtain rfl := Option.some.inj hstep
            exact turn_reader (not_mid_end hk) (Or.inl rfl) (fun _ h => h) rfl rfl rfl
        | none =>
            obtain rfl := Option.some.inj hstep
            exact turn_reader (not_mid_end hk) (Or.inl rfl) (fun _ h => h) rfl rfl rfl
  | panicked => cases hstep

/-- What a call does: it takes the mutex with its frame still to write, or returns at once. -/
theorem stepCall_effect {c : Call} (hstep : stepCall s c = some s') :
    Effect s s' ∧ Traced maxAlloc s s' := by
  obtain ⟨hc, hstep⟩ := Option.ite_none_right_eq_some.1 hstep
  have hpending : ∀ d ∈ s.pending.erase c, d ∈ s.pending := fun d hd => List.mem_of_mem_erase hd
  cases hf : c.frame with
  | none =>
      rw [hf] at hstep
      obtain rfl := Option.some.inj hstep
      refine ⟨.same rfl rfl, .of_writer rfl rfl hpending ?_⟩
      intro f k hpos
      exact Or.inr ⟨k, hpos⟩
  | some f =>
      rw [hf] at hstep
      obtain ⟨hfree, hstep⟩ := Option.ite_none_right_eq_some.1 hstep
      obtain rfl := Option.some.inj hstep
      refine ⟨.turn .writer _ ?_ (not_mid_zero f) (pos_update_writer rfl) rfl,
        .of_writer rfl rfl hpending ?_⟩
      · rw [show s.pos .writer = none from hfree]
        exact not_mid_none
      · rintro f' k' ⟨⟩
        exact Or.inl ⟨c, hc, hf⟩

/-- What a step of the writer does: it writes one piece, or gives the mutex back. -/
theorem stepWrite_effect (hstep : stepWrite s true = some s') :
    Effect s s' ∧ Traced maxAlloc s s' := by
  obtain ⟨input, reader, pending, holder, log⟩ := s
  match holder with
  | none => cases hstep
  | some (f, k) =>
      simp only [stepWrite, if_true] at hstep
      split_ifs at hstep with hk
      · obtain rfl := Option.some.inj hstep
        refine ⟨.wrote .writer f k rfl hk (pos_update_writer rfl) rfl,
          .of_writer rfl rfl (fun _ h => h) ?_⟩
        rintro f' k' ⟨⟩
        exact Or.inr ⟨k, rfl⟩
      · obtain rfl := Option.some.inj hstep
        refine ⟨.turn .writer none (not_mid_end hk) not_mid_none (pos_update_writer rfl) rfl,
          .of_writer rfl rfl (fun _ h => h) ?_⟩
        rintro f' k' ⟨⟩

/-- **Everything a step can do**, if no `Write` fails in it. -/
theorem Step.effect (hok : Succeeds s a) (hstep : Step maxAlloc readLimit s a s') :
    Effect s s' ∧ Traced maxAlloc s s' := by
  cases a with
  | read ok =>
      obtain rfl : ok = true := hok
      exact stepRead_effect hstep
  | call c => exact stepCall_effect hstep
  | write ok =>
      obtain rfl : ok = true := hok
      exact stepWrite_effect hstep

/-- What the reader and the calls may write: no frame with a payload meets a frame of the
other party. -/
def Apart (F : Party → Out → Prop) : Prop :=
  ∀ w w' f f', w ≠ w' → F w f → F w' f' → f.payload = []

/-- The invariant: the log is tidy, and what is written is one of the frames `F`. -/
structure Sound (maxAlloc : ℕ) (F : Party → Out → Prop) (s : Sock) : Prop where
  tidy : Tidy Out.size s.pos s.log
  source : ∀ w f, s.Source maxAlloc w f → F w f
  pos : ∀ w f k, s.pos w = some (f, k) → F w f

/-- A step in which no `Write` fails keeps what is known of the log. -/
theorem Sound.step {F : Party → Out → Prop} (hF : Apart F) (h : Sound maxAlloc F s)
    (hok : Succeeds s a) (hstep : Step maxAlloc readLimit s a s') : Sound maxAlloc F s' := by
  obtain ⟨heffect, htraced⟩ := hstep.effect hok
  refine ⟨?_, fun w f hf => h.source w f (htraced.source w f hf), ?_⟩
  · cases heffect with
    | same hpos hlog =>
        rw [hpos, hlog]
        exact h.tidy
    | turn w x hw hx hpos hlog =>
        rw [hpos, hlog]
        exact h.tidy.turn hw hx
    | wrote w f k hw hk hpos hlog =>
        rw [hpos, hlog]
        refine h.tidy.write hw hk ?_
        -- a frame of the other party would have a payload
        rintro w' hne ⟨f', k', hw', hk', hlt⟩
        have hnil := hF w' w f' f hne (h.pos w' f' k' hw') (h.pos w f k hw)
        exact Out.one_lt_size.1 (Nat.lt_of_le_of_lt hk' hlt) hnil
  · intro w f k hpos
    rcases htraced.pos w f k hpos with hf | ⟨j, hj⟩
    · exact h.source w f hf
    · exact h.pos w f j hj

/-- Nothing is written at first. -/
theorem sound_init (maxAlloc : ℕ) (input : Feed UInt8) (calls : List Call) :
    Sound maxAlloc ((init input calls).Source maxAlloc) (init input calls) where
  tidy := by
    refine ⟨[], Or.inl ⟨rfl, fun w => ?_⟩⟩
    cases w <;> exact not_mid_none
  source _ _ h := h
  pos w f k h := by cases w <;> cases h

section reach

variable (maxAlloc) (readLimit) (pending : List Call) (holder : Option (Out × ℕ))

/-- The reader can write the next piece of its answer. -/
theorem step_answer (input : Feed UInt8) {f : Out} {k : ℕ} (hk : k < f.size) (p : Option Partial)
    (log : List (Piece Party Out)) :
    Guarded Succeeds (Step maxAlloc readLimit) ⟨input, .answering f k p, pending, holder, log⟩
      (.read true) ⟨input, .answering f (k + 1) p, pending, holder, log ++ [⟨.reader, f, k⟩]⟩ :=
  ⟨rfl, by simp [Step, step, stepRead, hk]⟩

/-- A call can take the mutex. -/
theorem step_call (input : Feed UInt8) (reader : ReadStage) {c : Call} {f : Out}
    (hc : c ∈ pending) (hf : c.frame = some f) (log : List (Piece Party Out)) :
    Guarded Succeeds (Step maxAlloc readLimit) ⟨input, reader, pending, none, log⟩ (.call c)
      ⟨input, reader, pending.erase c, some (f, 0), log⟩ :=
  ⟨trivial, by simp [Step, step, stepCall, hc, hf]⟩

/-- The writer can write the next piece of its frame. -/
theorem step_write (input : Feed UInt8) (reader : ReadStage) {f : Out} {k : ℕ} (hk : k < f.size)
    (log : List (Piece Party Out)) :
    Guarded Succeeds (Step maxAlloc readLimit) ⟨input, reader, pending, some (f, k), log⟩
      (.write true) ⟨input, reader, pending, some (f, k + 1), log ++ [⟨.writer, f, k⟩]⟩ :=
  ⟨rfl, by simp [Step, step, stepWrite, hk]⟩

/-- The reader writes its answer. -/
theorem reach_answered (input : Feed UInt8) (f : Out) (p : Option Partial)
    (log : List (Piece Party Out)) :
    Reachable (Guarded Succeeds (Step maxAlloc readLimit))
      ⟨input, .answering f 0 p, pending, holder, log⟩
      ⟨input, .answering f f.size p, pending, holder, log ++ pieces Out.size .reader f⟩ := by
  by_cases hf : f.payload = []
  · have hsize : f.size = 1 := if_pos hf
    have h₀ := step_answer maxAlloc readLimit pending holder input f.size_pos p log
    rw [hsize]
    simpa [pieces, hsize] using Reachable.head h₀ (.refl _)
  · have hsize : f.size = 2 := if_neg hf
    have h₀ := step_answer maxAlloc readLimit pending holder input f.size_pos p log
    have h₁ := step_answer maxAlloc readLimit pending holder input (f := f) (k := 1) (by omega) p
      (log ++ [⟨.reader, f, 0⟩])
    rw [hsize]
    simpa [pieces, hsize, List.range_succ] using Reachable.head h₀ (.head h₁ (.refl _))

/-- `ReadMessage` is called again. -/
theorem reach_again (input : Feed UInt8) (log : List (Piece Party Out)) :
    Reachable (Guarded Succeeds (Step maxAlloc readLimit))
      ⟨input, .idle, pending, holder, log⟩ ⟨input, .reading .fresh, pending, holder, log⟩ :=
  .head (a := .read true) ⟨rfl, rfl⟩ (.refl _)

/-- The reader is done with a frame. -/
theorem reach_next {input rest : Feed UInt8} {f : Frame}
    (hread : readFrame maxAlloc input = (.ok f, rest)) (p : Partial)
    (log : List (Piece Party Out)) :
    ∃ p' done, Reachable (Guarded Succeeds (Step maxAlloc readLimit))
      ⟨input, .reading p, pending, holder, log⟩
      ⟨rest, .reading p', pending, holder, log ++ records Out.size done⟩ := by
  have hstep : Guarded Succeeds (Step maxAlloc readLimit) ⟨input, .reading p, pending, holder, log⟩
      (.read true) ⟨rest, afterFrame readLimit p f, pending, holder, log⟩ :=
    ⟨rfl, by simp [Step, step, stepRead, hread]⟩
  have hend : ∀ (q : Out) (x : Option Partial),
      Reachable (Guarded Succeeds (Step maxAlloc readLimit))
        ⟨rest, .answering q 0 x, pending, holder, log⟩
      ⟨rest, .answering q q.size x, pending, holder, log ++ records Out.size [(.reader, q)]⟩ := by
    intro q x
    have h := reach_answered maxAlloc readLimit pending holder rest q x log
    simpa only [records, List.flatMap_cons, List.flatMap_nil, List.append_nil] using h
  rcases pos_afterFrame readLimit p f with ⟨q, hq, -⟩ | ⟨q, hq, -⟩ | ⟨-, hq | ⟨p', hq⟩⟩
  all_goals rw [hq] at hstep
  · refine ⟨p, [(.reader, q)], .head hstep ((hend q _).trans ?_)⟩
    exact .head (a := .read true) ⟨rfl, by simp [Step, step, stepRead]⟩ (.refl _)
  · refine ⟨.fresh, [(.reader, q)], .head hstep ((hend q _).trans ?_)⟩
    exact .head (a := .read true) ⟨rfl, by simp [Step, step, stepRead]⟩
      (reach_again maxAlloc readLimit pending holder rest _)
  · refine ⟨.fresh, [], .head hstep ?_⟩
    simpa [records] using reach_again maxAlloc readLimit pending holder rest log
  · refine ⟨p', [], .head hstep ?_⟩
    simpa [records] using Reachable.refl _

/-- **The reader comes to every answer**, and has written the ones before it. -/
theorem reach_answer {input : Feed UInt8} {f : Out} (hf : f ∈ answersOf maxAlloc input)
    (p : Partial) (log : List (Piece Party Out)) :
    ∃ rest q done, Reachable (Guarded Succeeds (Step maxAlloc readLimit))
      ⟨input, .reading p, pending, holder, log⟩
      ⟨rest, .answering f 0 q, pending, holder, log ++ records Out.size done⟩ := by
  induction input using answersOf.induct maxAlloc generalizing p log with
  | case1 input g rest hread _ ih =>
      rw [answersOf_of_ok hread, List.mem_append] at hf
      rcases hf with hf | hf
      · have hg : answer g = some f := by simpa using hf
        have hstage : ∃ q, afterFrame readLimit p g = .answering f 0 q := by
          rcases pos_afterFrame readLimit p g with ⟨q, hq, ha⟩ | ⟨q, hq, ha⟩ | ⟨ha, -⟩
          · exact ⟨_, by rw [hq, Option.some.inj (ha.symm.trans hg)]⟩
          · exact ⟨_, by rw [hq, Option.some.inj (ha.symm.trans hg)]⟩
          · cases ha.symm.trans hg
        obtain ⟨q, hq⟩ := hstage
        refine ⟨rest, q, [], .head (a := .read true) ⟨rfl, ?_⟩ (.refl _)⟩
        simp [Step, step, stepRead, hread, hq, records]
      · obtain ⟨p', done, hnext⟩ := reach_next maxAlloc readLimit pending holder hread p log
        obtain ⟨rest', q, done', hr⟩ := ih hf p' (log ++ records Out.size done)
        refine ⟨rest', q, done ++ done', ?_⟩
        have hall : log ++ records Out.size (done ++ done') =
            log ++ records Out.size done ++ records Out.size done' := by
          simp [records]
        rw [hall]
        exact hnext.trans hr
  | case2 input rest hread =>
      rw [answersOf_of_panic hread] at hf
      cases hf
  | case3 input e rest hread hlt ih =>
      rw [← answersOf_of_error hread] at hf
      obtain ⟨rest', q, done, hr⟩ := ih hf .fresh log
      refine ⟨rest', q, done, .head (a := .read true) (t := ⟨rest, .idle, pending, holder, log⟩)
        ⟨rfl, ?_⟩ ((reach_again maxAlloc readLimit pending holder rest log).trans hr)⟩
      simp [Step, step, stepRead, hread]
  | case4 input e rest hread hle =>
      rw [answersOf_of_stuck hread hle] at hf
      cases hf

/-- An answer is begun, and then a call. -/
theorem reach_answer_call (input : Feed UInt8) {c : Call} {f : Out} (hc : c ∈ pending)
    (hf : c.frame = some f) (a : Out) (p : Option Partial) (log : List (Piece Party Out)) :
    Reachable (Guarded Succeeds (Step maxAlloc readLimit))
      ⟨input, .answering a 0 p, pending, none, log⟩
      ⟨input, .answering a 1 p, pending.erase c, some (f, 1),
        log ++ [⟨.reader, a, 0⟩, ⟨.writer, f, 0⟩]⟩ := by
  have h₀ := step_answer maxAlloc readLimit pending none input a.size_pos p log
  have h₁ := step_call maxAlloc readLimit pending input (.answering a 1 p) hc hf
    (log ++ [⟨.reader, a, 0⟩])
  have h₂ := step_write maxAlloc readLimit (pending.erase c) input (.answering a 1 p) f.size_pos
    (log ++ [⟨.reader, a, 0⟩])
  rw [List.append_assoc] at h₂
  exact .head h₀ (.head h₁ (.head h₂ (.refl _)))

/-- A call is begun, and then an answer. -/
theorem reach_call_answer (input : Feed UInt8) {c : Call} {f : Out} (hc : c ∈ pending)
    (hf : c.frame = some f) (a : Out) (p : Option Partial) (log : List (Piece Party Out)) :
    Reachable (Guarded Succeeds (Step maxAlloc readLimit))
      ⟨input, .answering a 0 p, pending, none, log⟩
      ⟨input, .answering a 1 p, pending.erase c, some (f, 1),
        log ++ [⟨.writer, f, 0⟩, ⟨.reader, a, 0⟩]⟩ := by
  have h₀ := step_call maxAlloc readLimit pending input (.answering a 0 p) hc hf log
  have h₁ := step_write maxAlloc readLimit (pending.erase c) input (.answering a 0 p) f.size_pos log
  have h₂ := step_answer maxAlloc readLimit (pending.erase c) (some (f, 1)) input a.size_pos p
    (log ++ [⟨.writer, f, 0⟩])
  rw [List.append_assoc] at h₂
  exact .head h₀ (.head h₁ (.head h₂ (.refl _)))

end reach

/-- Two frames that meet: the second one is begun when the first one is not finished. -/
theorem not_whole_of_meet (w w' : Party) {f : Out} (f' : Out) (done : List (Party × Out))
    (hf : f.payload ≠ []) :
    ¬ Whole Out.size (records Out.size done ++ [⟨w, f, 0⟩, ⟨w', f', 0⟩]) := by
  rw [whole_records_append Out.size_pos]
  exact not_whole_of_begun Out.size_pos (Out.one_lt_size.2 hf)

end Sock

/-- **When the output is a sequence of whole frames.**  In every interleaving of `ReadMessage`
with the calls, as long as no `Write` fails, what is written is a sequence of whole frames with
at most the beginning of one more, if and only if no answer and no frame of a call has a payload
when there are both.  What is whole is whole in bytes. -/
theorem whole_frames_iff (maxAlloc : ℕ) (readLimit : GoInt) (input : Feed UInt8)
    (calls : List Call) :
    ((∀ s, Reachable (Guarded Sock.Succeeds (Sock.Step maxAlloc readLimit))
          (Sock.init input calls) s →
        Whole Out.size s.log) ↔
      ∀ a ∈ answersOf maxAlloc input, ∀ c ∈ calls, ∀ f, c.frame = some f →
        a.payload = [] ∧ f.payload = []) ∧
    ∀ s : Sock, Whole Out.size s.log → WholeBytes s.written := by
  refine ⟨⟨?_, ?_⟩, fun s h => wholeBytes_of_whole h⟩
  · intro h a ha c hc f hf
    obtain ⟨rest, q, done, hr⟩ := Sock.reach_answer maxAlloc readLimit calls none ha .fresh []
    rw [List.nil_append] at hr
    have hstart : Reachable (Guarded Sock.Succeeds (Sock.Step maxAlloc readLimit))
        (Sock.init input calls) ⟨rest, .answering a 0 q, calls, none, records Out.size done⟩ :=
      .head (a := .read true) ⟨rfl, rfl⟩ hr
    constructor
    · -- the answer is begun, and then the call writes its header
      by_contra hpay
      refine Sock.not_whole_of_meet .reader .writer f done hpay ?_
      have hmeet := Sock.reach_answer_call maxAlloc readLimit calls rest hc hf a q
        (records Out.size done)
      exact h _ (hstart.trans hmeet)
    · -- the call is begun, and then the answer writes its header
      by_contra hpay
      refine Sock.not_whole_of_meet .writer .reader a done hpay ?_
      have hmeet := Sock.reach_call_answer maxAlloc readLimit calls rest hc hf a q
        (records Out.size done)
      exact h _ (hstart.trans hmeet)
  · intro hcond s hs
    have hapart : Sock.Apart ((Sock.init input calls).Source maxAlloc) := by
      intro w w' f f' hne hf hf'
      cases w <;> cases w'
      · exact absurd rfl hne
      · obtain ⟨c, hc, hcf⟩ := hf'
        exact (hcond f hf c hc f' hcf).1
      · obtain ⟨c, hc, hcf⟩ := hf
        exact (hcond f' hf' c hc f hcf).2
      · exact absurd rfl hne
    have hsound := hs.invariant (P := Sock.Sound maxAlloc ((Sock.init input calls).Source maxAlloc))
      (Sock.sound_init maxAlloc input calls) fun _ _ _ h hstep => h.step hapart hstep.1 hstep.2
    exact hsound.tidy.whole

/-- A masked text frame, and a ping without a payload. -/
def onePing : Feed UInt8 :=
  [some 0x81, some 0x81, some 0, some 0, some 0, some 0, some 0x61,
    some 0x89, some 0x80, some 0, some 0, some 0, some 0]

/-- The ping is answered while a ping without a payload is sent; a ping that is too large is
refused. -/
theorem whole_frames_pings :
    ∃ s, Reachable (Guarded Sock.Succeeds (Sock.Step (2 ^ 48) ⟨1024, by decide⟩))
        (Sock.init onePing [.control opcodePing [], .control opcodePing (.replicate 126 0)]) s ∧
      s.log = [⟨.writer, ⟨9, []⟩, 0⟩, ⟨.reader, ⟨10, []⟩, 0⟩] ∧ WholeBytes s.written := by
  obtain ⟨hiff, hbytes⟩ := whole_frames_iff (2 ^ 48) ⟨1024, by decide⟩ onePing
    [.control opcodePing [], .control opcodePing (.replicate 126 0)]
  obtain ⟨s, hs, hlog⟩ := Reachable.of_exec_guarded (G := Sock.Succeeds)
    (Sock.step (2 ^ 48) ⟨1024, by decide⟩)
    (s := Sock.init onePing [.control opcodePing [], .control opcodePing (.replicate 126 0)])
    [.call (.control opcodePing []), .read true, .read true, .read true, .read true, .write true,
      .read true]
    (p := fun s => s.log = [⟨.writer, ⟨9, []⟩, 0⟩, ⟨.reader, ⟨10, []⟩, 0⟩])
    (by decide +kernel)
  refine ⟨s, hs, of_decide_eq_true hlog, hbytes s (hiff.2 ?_ s hs)⟩
  have hanswers : answersOf (2 ^ 48) onePing = [⟨10, []⟩] := by decide +kernel
  rw [hanswers]
  intro a ha c hc f hf
  rw [List.mem_singleton.1 ha]
  refine ⟨rfl, ?_⟩
  simp only [List.mem_cons, List.not_mem_nil, or_false] at hc
  rcases hc with rfl | rfl
  · obtain rfl := Option.some.inj hf
    rfl
  · have hrefused : (Call.control opcodePing (.replicate 126 0)).frame = none := by decide +kernel
    cases hrefused.symm.trans hf

section counterexample

/-- The first two bytes of a frame: `FIN`, and the length of a short payload. -/
theorem header_eq_cons (opcode : ℤ) (n : ℕ) :
    ∃ b0 b1 rest, header true opcode n = b0 :: b1 :: rest ∧ b0 &&& 0x80 = 0x80 ∧
      (b1 = 2 → rest = [] ∧ n = 2) := by
  have hfin : ∀ x : BitVec 8, (x ||| 0x80) &&& 0x80 = 0x80 := by decide
  have hb0 : (UInt8.ofInt opcode ||| 0x80) &&& 0x80 = 0x80 :=
    UInt8.toBitVec_inj.1 (hfin (UInt8.ofInt opcode).toBitVec)
  unfold header
  simp only [if_true]
  split_ifs with h125 h65535
  · refine ⟨_, _, _, rfl, hb0, fun h => ⟨rfl, ?_⟩⟩
    have hn : n.toUInt8.toNat = 2 := by rw [h]; rfl
    rw [UInt8.toNat_ofNat'] at hn
    omega
  · exact ⟨_, _, _, rfl, hb0, fun h => absurd h (by decide)⟩
  · exact ⟨_, _, _, rfl, hb0, fun h => absurd h (by decide)⟩

/-- Every frame starts with a byte that has `FIN`. -/
theorem Out.bytes_eq_cons (f : Out) : ∃ b0 rest, f.bytes = b0 :: rest ∧ b0 &&& 0x80 = 0x80 := by
  obtain ⟨b0, b1, rest, hheader, hb0, -⟩ := header_eq_cons f.opcode f.payload.length
  exact ⟨b0, b1 :: (rest ++ f.payload), by rw [Out.bytes, hheader]; rfl, hb0⟩

/-- A frame with the length byte 2 is four bytes long. -/
theorem Out.length_bytes {f : Out} {b0 : UInt8} {tail : Bytes} (h : f.bytes = b0 :: 2 :: tail) :
    tail.length = 2 := by
  obtain ⟨c0, c1, rest, hheader, -, hshort⟩ := header_eq_cons f.opcode f.payload.length
  rw [Out.bytes, hheader, List.cons_append, List.cons_append] at h
  obtain ⟨-, h⟩ := List.cons.inj h
  obtain ⟨hc1, htail⟩ := List.cons.inj h
  obtain ⟨rfl, hlen⟩ := hshort hc1
  rw [← htail]
  exact hlen

/-- **Counterexample.**  The answer to a ping lands between the header and the payload of a
text message: `81 02 8A 00 68 69` are no whole frames. -/
theorem answer_splits_frame :
    ∃ s, Reachable (Guarded Sock.Succeeds (Sock.Step (2 ^ 48) ⟨1024, by decide⟩))
        (Sock.init onePing [.message opcodeText (ascii "hi")]) s ∧
      s.written = [0x81, 2, 0x8A, 0, 0x68, 0x69] ∧ ¬ WholeBytes s.written := by
  obtain ⟨s, hs, hp⟩ := Reachable.of_exec_guarded (G := Sock.Succeeds)
    (Sock.step (2 ^ 48) ⟨1024, by decide⟩)
    (s := Sock.init onePing [.message opcodeText (ascii "hi")])
    [.read true, .read true, .read true, .read true, .call (.message opcodeText (ascii "hi")),
      .write true, .read true, .write true]
    (p := fun s => s.written = [0x81, 2, 0x8A, 0, 0x68, 0x69]) (by decide +kernel)
  have hwritten := of_decide_eq_true hp
  refine ⟨s, hs, hwritten, ?_⟩
  rw [hwritten]
  rintro ⟨frames, last, hbytes, f, tail, hlast⟩
  cases frames with
  | nil =>
      -- one frame would have more than two bytes of payload
      rw [List.flatMap_nil, List.nil_append] at hbytes
      rw [← hbytes] at hlast
      have hlen := Out.length_bytes hlast.symm
      simp at hlen
  | cons g frames =>
      rw [List.flatMap_cons, List.append_assoc] at hbytes
      obtain ⟨c0, c1, rest, hheader, -, -⟩ := header_eq_cons g.opcode g.payload.length
      have hg : g.bytes = c0 :: c1 :: (rest ++ g.payload) := by rw [Out.bytes, hheader]; rfl
      rw [hg, List.cons_append, List.cons_append, List.cons.injEq, List.cons.injEq] at hbytes
      obtain ⟨rfl, rfl, hbytes⟩ := hbytes
      have hlen := Out.length_bytes hg
      -- the first frame is `81 02 8A 00`, and what follows has no `FIN`
      obtain ⟨x, y, hxy⟩ := List.length_eq_two.1 hlen
      rw [hxy, List.cons_append, List.cons_append, List.cons.injEq, List.cons.injEq,
        List.nil_append] at hbytes
      obtain ⟨-, -, hbytes⟩ := hbytes
      cases frames with
      | nil =>
          rw [List.flatMap_nil, List.nil_append] at hbytes
          obtain ⟨b0, rest', hf, hb0⟩ := f.bytes_eq_cons
          rw [← hbytes, hf] at hlast
          obtain ⟨rfl, -⟩ := List.cons.inj hlast
          exact absurd hb0 (by decide)
      | cons g' frames =>
          obtain ⟨b0, rest', hf, hb0⟩ := g'.bytes_eq_cons
          rw [List.flatMap_cons, hf] at hbytes
          obtain ⟨rfl, -⟩ := List.cons.inj hbytes
          exact absurd hb0 (by decide)

end counterexample

end NativeWS
end GoSocket
