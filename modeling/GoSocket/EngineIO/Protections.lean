/-
# What an upgrade does to the settings

`ReadPump` sets its read limit and its pong handler once, through the
`sessionTransport`, on whichever transport is current at that moment.
`applyUpgrade` puts a new transport in its place and does not set them again: the
pump is not restarted, and its pongs and its limit stay with the old transport.

`protected_iff` says for which sequences of calls the settings are in force
throughout.
-/

import GoSocket.EngineIO.Transport
import Mathlib.Data.List.Induction

namespace GoSocket
namespace EngineIO

/-- A `sessionTransport`, with the settings last made through it. -/
structure SessionTransport where
  current : Transport
  limit : Option ℤ
  handler : Option Handler
  deriving DecidableEq

/-- A call of the pump, or an upgrade. -/
inductive SettingOp where
  | setReadLimit (limit : ℤ)
  | setReadDeadline (deadline : ℤ)
  | onPong (handler : Handler)
  | upgrade
  deriving DecidableEq

namespace SessionTransport

/-- `create`: the session starts on the polling side. -/
def init (sid : String) (maxPayload : ℤ) : SessionTransport where
  current := .polling (newPollingTransport sid maxPayload)
  limit := none
  handler := none

/-- `Swap`. -/
def swap (s : SessionTransport) (next : Transport) : SessionTransport := { s with current := next }

def step (s : SessionTransport) : SettingOp → SessionTransport
  | .setReadLimit limit =>
      { s with current := s.current.setReadLimit limit, limit := some limit }
  | .setReadDeadline deadline => { s with current := s.current.setReadDeadline deadline }
  | .onPong handler => { s with current := s.current.onPong handler, handler := some handler }
  -- `applyUpgrade` wraps what `Upgrade` has returned
  | .upgrade => s.swap (.websocket (newEIOWebSocketTransport newWsTransport))

/-- The calls in order. -/
def run (s : SessionTransport) (ops : List SettingOp) : SessionTransport := ops.foldl step s

/-- The last limit and the last handler are in force. -/
def Protected (s : SessionTransport) : Prop :=
  (∀ limit ∈ s.limit, s.current.Enforces limit) ∧ ∀ handler ∈ s.handler, s.current.Runs handler

/-- A limit set on the polling side is not under what a POST can bring, and there is no
upgrade once a limit or a handler is set. -/
def Keeps (s : SessionTransport) : SettingOp → Prop
  | .setReadLimit limit =>
      match s.current with
      | .polling t => 0 < limit → t.bodyLimit ≤ limit + 1
      | .websocket _ => True
  | .upgrade => (∀ limit ∈ s.limit, limit ≤ 0) ∧ s.handler = none
  | _ => True

variable {s : SessionTransport}

/-- The polling transport enforces a positive limit by the bytes it reads of a body. -/
theorem enforces_polling (t : PollingTransport) (limit : ℤ) :
    (Transport.polling t).Enforces limit ↔ (0 < limit → t.bodyLimit ≤ limit + 1) := by
  unfold Transport.Enforces Transport.Admits
  constructor
  · intro h hpos
    by_contra hlt
    -- a message that just fits into a body
    have := h hpos (t.bodyLimit - 1).toNat (by omega)
    omega
  · intro h hpos size hsize
    have := h hpos
    omega

/-- A WebSocket enforces the limit it was set to. -/
theorem enforces_setReadLimit (t : EioWebSocketTransport) (limit : ℤ) :
    (Transport.websocket { t with raw.readLimit := limit }).Enforces limit := by
  intro hpos size hsize
  have := hsize hpos
  dsimp only at this
  omega

/-- A new WebSocket has no limit. -/
theorem admits_new (size : ℕ) :
    (Transport.websocket (newEIOWebSocketTransport newWsTransport)).Admits size :=
  fun hpos => absurd hpos (Int.lt_irrefl 0)

/-- A new WebSocket enforces no positive limit. -/
theorem enforces_new (limit : ℤ) :
    (Transport.websocket (newEIOWebSocketTransport newWsTransport)).Enforces limit ↔
      limit ≤ 0 := by
  constructor
  · intro h
    by_contra hpos
    have := h (by omega) (limit.toNat + 1) (admits_new _)
    omega
  · intro hle hpos
    omega

/-- **One call**: the settings stay in force exactly under `Keeps`. -/
theorem protected_step (h : s.Protected) (a : SettingOp) :
    (s.step a).Protected ↔ s.Keeps a := by
  obtain ⟨current, limit, handler⟩ := s
  obtain ⟨hlimit, hhandler⟩ := h
  cases a with
  | setReadLimit l =>
      cases current with
      | polling t =>
          simp only [step, Protected, Keeps, Transport.setReadLimit, Option.mem_some_iff,
            forall_eq', enforces_polling, and_iff_left_iff_imp]
          exact fun _ => hhandler
      | websocket t =>
          refine iff_of_true ⟨?_, fun handler hh => hhandler handler hh⟩ trivial
          rintro _ ⟨⟩
          exact enforces_setReadLimit t l
  | setReadDeadline deadline =>
      refine iff_of_true ?_ trivial
      cases current with
      | polling t => exact ⟨hlimit, hhandler⟩
      | websocket t => exact ⟨hlimit, hhandler⟩
  | onPong h =>
      refine iff_of_true ?_ trivial
      cases current with
      | polling t =>
          refine ⟨hlimit, ?_⟩
          rintro _ ⟨⟩
          rfl
      | websocket t =>
          refine ⟨hlimit, ?_⟩
          rintro _ ⟨⟩
          exact ⟨rfl, rfl⟩
  | upgrade =>
      simp only [step, swap, Protected, Keeps, enforces_new, Option.eq_none_iff_forall_not_mem]
      refine and_congr_right' (forall_congr' fun handler => imp_congr_right fun _ => ?_)
      exact iff_of_false (fun h => nomatch h.1) id

/-- One more setting at the end. -/
theorem run_append (s : SessionTransport) (ops : List SettingOp) (a : SettingOp) :
    s.run (ops ++ [a]) = (s.run ops).step a := by
  simp [run]

/-- **What an upgrade leaves of the settings.**  For every sequence of calls and upgrades,
the last limit and the last handler are in force after every one of them, if and only if
every limit set on the polling side admits what a POST can bring and there is no upgrade
once a (positive) limit or a handler is set. -/
theorem protected_iff (sid : String) (maxPayload : ℤ) (ops : List SettingOp) :
    (∀ done, done <+: ops → ((init sid maxPayload).run done).Protected) ↔
      ∀ done a, done ++ [a] <+: ops → ((init sid maxPayload).run done).Keeps a := by
  constructor
  · intro h done a hle
    rw [← protected_step (h done ((List.prefix_append ..).trans hle)), ← run_append]
    exact h _ hle
  · intro h done
    -- from the empty sequence on, one call at a time
    induction done using List.reverseRecOn with
    | nil => exact fun _ => ⟨fun _ hl => (nomatch hl), fun _ hh => (nomatch hh)⟩
    | append_singleton done a ih =>
        intro hle
        rw [run_append, protected_step (ih ((List.prefix_append ..).trans hle))]
        exact h done a hle

/-- **Counterexample.**  The pump sets the server's limit and its handler on the polling
side, and the session is upgraded: the WebSocket takes messages of any size, and no pong
runs the handler. -/
theorem settings_lost :
    ¬ ((init "sid" 1048576).run [.setReadLimit 1048576, .onPong 7, .upgrade]).Protected ∧
      (∀ size, ((init "sid" 1048576).run
        [.setReadLimit 1048576, .onPong 7, .upgrade]).current.Admits size) ∧
      ¬ ((init "sid" 1048576).run
        [.setReadLimit 1048576, .onPong 7, .upgrade]).current.Runs 7 := by
  refine ⟨fun h => ?_, admits_new, fun h => nomatch h.1⟩
  have := (enforces_new 1048576).1 (h.1 1048576 rfl)
  omega

end SessionTransport
end EngineIO
end GoSocket
