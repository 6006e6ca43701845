/-
# Handshakes and `Shutdown`

`Front` puts in front of the server what comes before a client is made, and what ends
it all: `serveWS` and `attachPollTransport` with the flag `closed` and the counter
`conns`, and `Server.Shutdown`.

A handler's call looks at `closed`, then at `conns`; a WebSocket is upgraded; then
`serveTransport` counts the connection, makes the client and goes through the stages of
`Sys`.  Each of these is a step of its own, and between two of them anything can happen.
The call returns when it was refused, when the client that a middleware rejected has been
shut down, or when `openSession` is done, the connection it displaced is closed and the
pumps are started.  The read side of a client ends only after that; `OnDone` takes the
connection off the counter when `retire` and `closeRaw` have returned.

`Shutdown` stores `closed`, cancels the context of the hub and waits for it.  The hub
drains when its context is cancelled and at no other time.

Every step makes at most one step of the server (`sys_reachable`).
-/

import GoSocket.Server.Connections
import GoSocket.Lib.Tally

namespace GoSocket

open Lib

/-- How a connection comes in. -/
inductive Entry where
  /-- `serveWS`. -/
  | webSocket
  /-- `attachPollTransport`. -/
  | polling
  deriving DecidableEq

/-- Where the call is that brought a connection in. -/
inductive Call where
  /-- `closed` was not set; `conns` is to be looked at. -/
  | checked (entry : Entry)
  /-- `conns` was below the limit; a WebSocket is to be upgraded. -/
  | passed (entry : Entry)
  /-- `Upgrade` has returned a transport. -/
  | upgraded
  /-- The call has returned without a client. -/
  | refused
  /-- `serveTransport`, with the `Displaced` connection that `openSession` is to close. -/
  | serving (displaced : Option ClientRef)
  /-- A middleware has failed; `Unregister` and `Shutdown` are to come. -/
  | rejected
  /-- The call has returned after a rejection. -/
  | turnedAway
  /-- The call has returned and the pumps are started. -/
  | running
  /-- `OnDone` has run. -/
  | ended
  deriving DecidableEq

namespace Call

/-- Counted by `conns`. -/
def admitted : Call → Bool
  | .serving _ | .running => true
  | .checked _ | .passed _ | .upgraded | .refused | .rejected | .turnedAway | .ended => false

/-- Past the look at `conns` and not yet counted. -/
def pending : Call → Bool
  | .passed _ | .upgraded => true
  | .checked _ | .refused | .serving _ | .rejected | .turnedAway | .running | .ended => false

/-- Past the look at `closed`, with no client yet. -/
def handshaking : Call → Bool
  | .checked _ | .passed _ | .upgraded => true
  | .refused | .serving _ | .rejected | .turnedAway | .running | .ended => false

/-- The call has not returned. -/
def inProgress : Call → Bool
  | .checked _ | .passed _ | .upgraded | .serving _ | .rejected => true
  | .refused | .turnedAway | .running | .ended => false

/-- The client is made. -/
def made : Call → Bool
  | .serving _ | .rejected | .turnedAway | .running | .ended => true
  | .checked _ | .passed _ | .upgraded | .refused => false

/-- There is a transport. -/
def accepted : Call → Bool
  | .upgraded | .serving _ | .rejected | .turnedAway | .running | .ended => true
  | .checked _ | .passed _ | .refused => false

/-- A transport that was accepted has its client when the call has returned. -/
theorem made_of_accepted {x : Call} (h : x.accepted = true) (hreturned : x.inProgress = false) :
    x.made = true := by
  cases x <;> trivial

end Call

/-- Where `Server.Shutdown` is. -/
inductive Closing where
  /-- It has not been called. -/
  | no
  /-- `closed` is set. -/
  | stored
  /-- The context of the hub is cancelled as well. -/
  | cancelled
  /-- It has returned nil. -/
  | returned
  /-- It has returned the error of its own context. -/
  | timedOut
  deriving DecidableEq

/-- `MaxConnections` with its default. -/
def normalizeMaxConnections (n : ℤ) : ℤ := if n ≤ 0 then 10000 else n

/-- The server with the calls that bring connections in. -/
structure Front where
  sys : Sys
  maxConnections : ℤ
  closing : Closing
  conns : ℤ
  /-- The calls that were made. -/
  calls : Finmap fun _ : ClientRef => Call

/-- One step of one goroutine. -/
inductive FrontOp where
  /-- A request arrives and looks at `closed`. -/
  | check (c : ClientRef) (entry : Entry)
  /-- The call looks at `conns`. -/
  | limit (c : ClientRef)
  /-- `Upgrade` returns. -/
  | upgrade (c : ClientRef) (ok : Bool)
  /-- `serveTransport` begins. -/
  | serve (c : ClientRef)
  /-- A step of the server. -/
  | sys (a : SysOp)
  /-- The call returns. -/
  | finish (c : ClientRef)
  | onDone (c : ClientRef)
  | storeClosed
  | hubCancel
  | returnNil
  | returnErr
  deriving DecidableEq

namespace Front

/-- A server that has just started. -/
def init (opt : SessionOptions) (digest : String → String) (sendBuffer : ClientRef → ℤ)
    (maxConnections : ℤ) : Front where
  sys := .init opt digest sendBuffer
  maxConnections := normalizeMaxConnections maxConnections
  closing := .no
  conns := 0
  calls := ∅

def setCall (φ : Front) (c : ClientRef) (x : Call) : Front :=
  { φ with calls := φ.calls.insert c x }

/-- The transport of the client is closed. -/
def Closed (φ : Front) (c : ClientRef) : Prop := (φ.sys.layer.mem.client c).closed = true

instance (φ : Front) (c : ClientRef) : Decidable (φ.Closed c) :=
  inferInstanceAs (Decidable (_ = true))

/-- When the server can take a step: clients are made by `serveTransport`, a read pump runs
when the call has returned, and the hub drains when its context is cancelled. -/
def Permits (φ : Front) : SysOp → Prop
  | .accept _ => False
  | .retire c => φ.calls.lookup c = some .running
  | .layer (.readEnd c) => φ.calls.lookup c = some .running
  | .drain _ => φ.closing = .cancelled ∨ φ.closing = .timedOut
  | _ => True

instance (φ : Front) (a : SysOp) : Decidable (φ.Permits a) := by
  induction a using SysOp.casesOn with
  | layer b => induction b using LayerOp.casesOn <;> dsimp only [Permits] <;> infer_instance
  | _ => dsimp only [Permits]; infer_instance

/-- What a step of the server means for the call. -/
def follow (φ : Front) : SysOp → Front
  | .reject c => { φ.setCall c .rejected with conns := φ.conns - 1 }
  | .layer (.openSession c req now newID) =>
      φ.setCall c (.serving (φ.sys.layer.mem.open c req now newID).2.1.displaced)
  | _ => φ

/-- One step of one goroutine. -/
def step (φ : Front) : FrontOp → Option Front
  | .check c entry =>
      if φ.calls.lookup c = none then
        some (φ.setCall c (if φ.closing = .no then .checked entry else .refused))
      else none
  | .limit c =>
      match φ.calls.lookup c with
      | some (.checked entry) =>
          some (φ.setCall c (if φ.maxConnections ≤ φ.conns then .refused else .passed entry))
      | _ => none
  | .upgrade c ok =>
      if φ.calls.lookup c = some (.passed .webSocket) then
        some (φ.setCall c (if ok = true then .upgraded else .refused))
      else none
  | .serve c =>
      if φ.calls.lookup c = some .upgraded ∨ φ.calls.lookup c = some (.passed .polling) then
        (φ.sys.step (.accept c)).map fun s =>
          { φ.setCall c (.serving none) with sys := s, conns := φ.conns + 1 }
      else none
  | .sys a =>
      if φ.Permits a then (φ.sys.step a).map fun s => { φ.follow a with sys := s } else none
  | .finish c =>
      match φ.calls.lookup c with
      | some (.serving displaced) =>
          if φ.sys.stage c = .running ∧ ∀ d ∈ displaced, φ.Closed d then
            some (φ.setCall c .running)
          else none
      | some .rejected =>
          if φ.sys.stage c = .done ∧ φ.Closed c then some (φ.setCall c .turnedAway) else none
      | _ => none
  | .onDone c =>
      if φ.calls.lookup c = some .running ∧ φ.sys.stage c = .done ∧ φ.Closed c then
        some { φ.setCall c .ended with conns := φ.conns - 1 }
      else none
  | .storeClosed => if φ.closing = .no then some { φ with closing := .stored } else none
  | .hubCancel => if φ.closing = .stored then some { φ with closing := .cancelled } else none
  | .returnNil =>
      if φ.closing = .cancelled ∧ φ.sys.phase = .closed then
        some { φ with closing := .returned }
      else none
  | .returnErr => if φ.closing = .cancelled then some { φ with closing := .timedOut } else none

/-- The step relation. -/
def Step (φ : Front) (a : FrontOp) (φ' : Front) : Prop := φ.step a = some φ'

/-- The cases of `step`. -/
inductive Took (φ : Front) : FrontOp → Front → Prop where
  | check {c : ClientRef} {entry : Entry} : φ.calls.lookup c = none →
      Took φ (.check c entry) (φ.setCall c (if φ.closing = .no then .checked entry else .refused))
  | limit {c : ClientRef} {entry : Entry} : φ.calls.lookup c = some (.checked entry) →
      Took φ (.limit c)
        (φ.setCall c (if φ.maxConnections ≤ φ.conns then .refused else .passed entry))
  | upgrade {c : ClientRef} {ok : Bool} : φ.calls.lookup c = some (.passed .webSocket) →
      Took φ (.upgrade c ok) (φ.setCall c (if ok = true then .upgraded else .refused))
  | serve {c : ClientRef} {x : Call} {s : Sys} : φ.calls.lookup c = some x → x.pending = true →
      φ.sys.Step (.accept c) s →
      Took φ (.serve c) { φ.setCall c (.serving none) with sys := s, conns := φ.conns + 1 }
  | sys {a : SysOp} {s : Sys} : φ.Permits a → φ.sys.Step a s →
      Took φ (.sys a) { φ.follow a with sys := s }
  | served {c : ClientRef} {displaced : Option ClientRef} :
      φ.calls.lookup c = some (.serving displaced) → φ.sys.stage c = .running →
      (∀ d ∈ displaced, φ.Closed d) → Took φ (.finish c) (φ.setCall c .running)
  | turnedAway {c : ClientRef} : φ.calls.lookup c = some .rejected → φ.Closed c →
      Took φ (.finish c) (φ.setCall c .turnedAway)
  | onDone {c : ClientRef} : φ.calls.lookup c = some .running → φ.sys.stage c = .done →
      Took φ (.onDone c) { φ.setCall c .ended with conns := φ.conns - 1 }
  | storeClosed : φ.closing = .no → Took φ .storeClosed { φ with closing := .stored }
  | hubCancel : φ.closing = .stored → Took φ .hubCancel { φ with closing := .cancelled }
  | returnNil : φ.closing = .cancelled → φ.sys.phase = .closed →
      Took φ .returnNil { φ with closing := .returned }
  | returnErr : φ.closing = .cancelled → Took φ .returnErr { φ with closing := .timedOut }

variable {φ φ' : Front} {a : FrontOp}

/-- **Everything a step can be.** -/
theorem Step.took (hstep : φ.Step a φ') : Took φ a φ' := by
  unfold Step step at hstep
  cases a with
  | check c entry =>
      obtain ⟨hs, hstep⟩ := Option.ite_none_right_eq_some.1 hstep
      exact Option.some.inj hstep ▸ .check hs
  | limit c =>
      dsimp only at hstep
      split at hstep
      next hs => exact Option.some.inj hstep ▸ .limit hs
      next => cases hstep
  | upgrade c ok =>
      obtain ⟨hs, hstep⟩ := Option.ite_none_right_eq_some.1 hstep
      exact Option.some.inj hstep ▸ .upgrade hs
  | serve c =>
      obtain ⟨hs, hstep⟩ := Option.ite_none_right_eq_some.1 hstep
      obtain ⟨s, hacc, rfl⟩ := Option.map_eq_some_iff.1 hstep
      rcases hs with hs | hs
      · exact .serve hs rfl hacc
      · exact .serve hs rfl hacc
  | sys a =>
      obtain ⟨hs, hstep⟩ := Option.ite_none_right_eq_some.1 hstep
      obtain ⟨s, ha, rfl⟩ := Option.map_eq_some_iff.1 hstep
      exact .sys hs ha
  | finish c =>
      dsimp only at hstep
      split at hstep
      next displaced hs =>
        obtain ⟨hd, hstep⟩ := Option.ite_none_right_eq_some.1 hstep
        exact Option.some.inj hstep ▸ .served hs hd.1 hd.2
      next hs =>
        obtain ⟨hd, hstep⟩ := Option.ite_none_right_eq_some.1 hstep
        exact Option.some.inj hstep ▸ .turnedAway hs hd.2
      next => cases hstep
  | onDone c =>
      obtain ⟨hs, hstep⟩ := Option.ite_none_right_eq_some.1 hstep
      exact Option.some.inj hstep ▸ .onDone hs.1 hs.2.1
  | storeClosed =>
      obtain ⟨hs, hstep⟩ := Option.ite_none_right_eq_some.1 hstep
      exact Option.some.inj hstep ▸ .storeClosed hs
  | hubCancel =>
      obtain ⟨hs, hstep⟩ := Option.ite_none_right_eq_some.1 hstep
      exact Option.some.inj hstep ▸ .hubCancel hs
  | returnNil =>
      obtain ⟨hs, hstep⟩ := Option.ite_none_right_eq_some.1 hstep
      exact Option.some.inj hstep ▸ .returnNil hs.1 hs.2
  | returnErr =>
      obtain ⟨hs, hstep⟩ := Option.ite_none_right_eq_some.1 hstep
      exact Option.some.inj hstep ▸ .returnErr hs

/-- **A run of the front is a run of the server.** -/
theorem sys_reachable {ψ : Front} (h : Reachable Step φ ψ) : Reachable Sys.Step φ.sys ψ.sys := by
  refine h.project fun s a t hstep => ?_
  cases hstep.took with
  | serve _ _ hacc => exact Or.inr ⟨_, hacc⟩
  | sys _ ha => exact Or.inr ⟨_, ha⟩
  | _ => exact Or.inl rfl

/-- Only a rejection and `Open` change the call of a client. -/
theorem lookup_follow {c : ClientRef} {b : SysOp} (hreject : b ≠ .reject c)
    (hopen : ∀ req now newID, b ≠ .layer (.openSession c req now newID)) :
    (φ.follow b).calls.lookup c = φ.calls.lookup c := by
  unfold follow
  split
  next d => exact Finmap.lookup_insert_of_ne _ fun h => hreject (h ▸ rfl)
  next d req now newID =>
    exact Finmap.lookup_insert_of_ne _ fun h => hopen req now newID (h ▸ rfl)
  next => rfl

/-- Up to `Open` the call of a client is in `serveTransport`. -/
def Early (φ : Front) : Prop :=
  ∀ c, φ.sys.stage c = .accepted ∨ φ.sys.stage c = .connecting →
    φ.calls.lookup c = some (.serving none)

namespace Early

/-- No client has been accepted at first. -/
theorem init (opt : SessionOptions) (digest : String → String) (sendBuffer : ClientRef → ℤ)
    (n : ℤ) : (init opt digest sendBuffer n).Early := by
  rintro c (hs | hs) <;> cases hs

/-- A call that is not in `serveTransport`, or is past `Open`, may go anywhere. -/
theorem setCall (h : φ.Early) {c : ClientRef} {old x : Call} (hc : φ.calls.lookup c = some old)
    (hold : old ≠ .serving none ∨ φ.sys.stage c = .running) : (φ.setCall c x).Early := by
  intro d hs
  have hne : d ≠ c := by
    rintro rfl
    rcases hold with hold | hold
    · exact hold (Option.some.inj (hc.symm.trans (h d hs)))
    · rcases hs with hs | hs <;> cases hold.symm.trans hs
  exact (Finmap.lookup_insert_of_ne _ hne).trans (h d hs)

/-- A permitted step of the hub or the layer keeps the calls early. -/
theorem sys (h : φ.Early) {b : SysOp} {s : Sys} (hp : φ.Permits b) (hb : φ.sys.Step b s) :
    Front.Early { φ.follow b with sys := s } := by
  intro c hs
  change s.stage c = .accepted ∨ s.stage c = .connecting at hs
  have hreject : b ≠ .reject c := by
    rintro rfl
    cases hb.took with
    | reject => simp at hs
  have hstage := hb.stage c
  generalize s.stage c = st at hstage hs
  cases hstage with
  | same hopen => exact (lookup_follow hreject hopen).trans (h c hs)
  | accepted _ ha =>
      subst ha
      exact absurd hp id
  | connecting hc hb =>
      exact (lookup_follow hreject fun _ _ _ h => by simp [hb] at h).trans (h c (Or.inl hc))
  | rejected => simp at hs
  | late hlate => rcases hs with rfl | rfl <;> exact absurd trivial hlate
  | unbound => simp at hs
  | left =>
      unfold Sys.afterLeave at hs
      split at hs <;> simp at hs

/-- Every step keeps the calls early. -/
theorem step (h : φ.Early) (hstep : φ.Step a φ') : φ'.Early := by
  cases hstep.took with
  | @check c entry hc =>
      intro d hs
      have hne : d ≠ c := by
        rintro rfl
        cases hc.symm.trans (h d hs)
      exact (Finmap.lookup_insert_of_ne _ hne).trans (h d hs)
  | limit hc => exact h.setCall hc (Or.inl (by simp))
  | upgrade hc => exact h.setCall hc (Or.inl (by simp))
  | @serve c x s hc _ hacc =>
      intro d hs
      by_cases hd : d = c
      · exact hd ▸ Finmap.lookup_insert _
      · refine (Finmap.lookup_insert_of_ne _ hd).trans (h d ?_)
        cases hacc.took with
        | accept => simpa [hd] using hs
  | sys hp hb => exact h.sys hp hb
  | served hc hrun _ => exact h.setCall hc (Or.inr hrun)
  | turnedAway hc _ => exact h.setCall hc (Or.inl (by simp))
  | onDone hc _ => exact h.setCall hc (Or.inl (by simp))
  | _ => exact h

/-- A middleware fails while the call is in `serveTransport`. -/
theorem reject (h : φ.Early) {c : ClientRef} {s : Sys} (hb : φ.sys.Step (.reject c) s) :
    φ.calls.lookup c = some (.serving none) := by
  cases hb.took with
  | reject hs => exact h c (Or.inr hs)

/-- So is it when `Open` is called. -/
theorem openSession (h : φ.Early) {c : ClientRef} {req : ResumeRequest} {now : ℤ}
    {newID : Option String} {s : Sys}
    (hb : φ.sys.Step (.layer (.openSession c req now newID)) s) :
    φ.calls.lookup c = some (.serving none) :=
  h c (Or.inr hb.openSession.2.2)

end Early

end Front
end GoSocket
