/-
# The session layer under the server's goroutines

`Layer` is the store together with what the server's goroutines have decided and
not yet done: a read pump that has loaded `noResume` and is about to call
`Leave` (`Client.retire`), a `go c.ShutdownResumable()` that has not run
(`emitOne`, `emitToTargets`), a `Displaced` connection `openSession` is still to
close, and a `Release` that is due after the store lock was dropped.

A goroutine runs between any two steps of another, so a run is a list of
`LayerOp`s in any order.  Each of them makes at most one call into the session
layer (`Layer.call`) and changes what is left to do (`Layer.record`); the step
function is put together from the two, so a run of the layer is a run of the
store (`mem_reachable`).

`Open` is called once for a connection, by `serveTransport` on the client it has
just made: the layer requires a client without a session.
-/

import GoSocket.Session.Bindings

namespace GoSocket

open Lib

/-- The store and what is left to do. -/
structure Layer where
  mem : Mem
  /-- The argument `resumable` with which the read pump of a client is about to call `Leave`. -/
  retiring : ClientRef → Option Bool
  /-- The clients a `go c.ShutdownResumable()` is on its way to. -/
  pending : List ClientRef
  /-- The clients an `Open` has reported as `Displaced`, until they are closed. -/
  told : List ClientRef
  /-- The `Release` calls that are due, and those that have run. -/
  due : List Release
  released : List Release

/-- One step of one goroutine. -/
inductive LayerOp where
  /-- `openSession` calls `Open`. -/
  | openSession (c : ClientRef) (req : ResumeRequest) (now : ℤ) (newID : Option String)
  /-- `TrySendPolicy`, by a handler or by the hub. -/
  | send (c : ClientRef) (data : Bytes) (pol : SendPolicy)
  /-- A pending `ShutdownResumable` runs. -/
  | runShutdown (c : ClientRef)
  /-- `openSession` closes the `Displaced` connection. -/
  | displace (c : ClientRef)
  /-- `Client.Shutdown`. -/
  | shutdown (c : ClientRef)
  /-- `closeRaw` at the end of `ReadPump`. -/
  | closeRaw (c : ClientRef)
  /-- The read side ends, and `retire` loads the session and `noResume`. -/
  | readEnd (c : ClientRef)
  /-- `retire` calls `Leave`. -/
  | leave (c : ClientRef) (now : ℤ)
  | sweep (now : ℤ)
  /-- A due `Release` runs. -/
  | release (x : Release)
  | ack (c : ClientRef) (seq : ℕ)
  | claimKey (c : ClientRef) (key : String)
  | write (c : ClientRef)
  deriving DecidableEq

namespace Layer

/-- A server that has just started. -/
def init (opt : SessionOptions) (digest : String → String) (sendBuffer : ClientRef → ℤ) :
    Layer where
  mem := newSessionStore opt digest sendBuffer
  retiring := fun _ => none
  pending := []
  told := []
  due := []
  released := []

/-- When a goroutine can take the step. -/
def Enabled (f : Layer) : LayerOp → Prop
  | .openSession c .. => (f.mem.client c).session = none
  | .runShutdown c => c ∈ f.pending
  | .displace c => c ∈ f.told
  | .readEnd c => (f.mem.client c).session ≠ none ∧ f.retiring c = none
  | .leave c _ => (f.mem.client c).session ≠ none ∧ f.retiring c ≠ none
  | .release x => x ∈ f.due
  | .ack c _ => (f.mem.client c).session ≠ none
  | .claimKey c _ => (f.mem.client c).session ≠ none
  | _ => True

instance (f : Layer) (a : LayerOp) : Decidable (f.Enabled a) := by
  unfold Enabled
  split <;> infer_instance

/-- The call a step makes into the session layer. -/
def call (f : Layer) : LayerOp → Option Op
  | .openSession c req now newID => some (.openSession c req now newID)
  | .send c data pol => some (.trySend c data pol)
  | .runShutdown c => some (.closeRaw c)
  | .displace c => some (.closeRaw c)
  | .shutdown c => some (.shutdown c)
  | .closeRaw c => some (.closeRaw c)
  | .readEnd _ => none
  | .leave c now =>
      match (f.mem.client c).session, f.retiring c with
      | some p, some resumable => some (.leave p c resumable now)
      | _, _ => none
  | .sweep now => some (.sweep now)
  | .release _ => none
  | .ack c seq => (f.mem.client c).session.map fun p => .ack p seq
  | .claimKey c key => (f.mem.client c).session.map fun p => .claimKey p key
  | .write c => some (.write c)

/-- What is left to do after the step; the store is written by the call. -/
def record (f : Layer) : LayerOp → Layer
  | .openSession c req now newID =>
      let r := f.mem.open c req now newID
      { f with told := f.told ++ r.2.1.displaced.toList, due := f.due ++ r.2.2 }
  | .send c data pol =>
      -- a false result asks to disconnect the client the frame was sent through
      if (f.mem.trySendPolicy c data pol).2 then f else { f with pending := f.pending ++ [c] }
  | .runShutdown c => { f with pending := f.pending.erase c }
  | .displace c => { f with told := f.told.erase c }
  | .readEnd c =>
      { f with retiring := Function.update f.retiring c (some (!(f.mem.client c).noResume)) }
  | .leave c now =>
      match (f.mem.client c).session, f.retiring c with
      | some p, some resumable =>
          { f with
            retiring := Function.update f.retiring c none
            due := f.due ++ (f.mem.leave p c resumable now).2.2 }
      | _, _ => f
  | .sweep now => { f with due := f.due ++ (f.mem.sweep now).2 }
  | .release x => { f with due := f.due.erase x, released := f.released ++ [x] }
  | _ => f

/-- One step of one goroutine. -/
def step (f : Layer) (a : LayerOp) : Option Layer :=
  if f.Enabled a then
    match f.call a with
    | none => some (f.record a)
    | some op => (f.mem.step op).map fun m => { f.record a with mem := m }
  else none

/-- The step relation of the layer. -/
def Step (f : Layer) (a : LayerOp) (f' : Layer) : Prop := f.step a = some f'

variable {f f' : Layer} {a : LayerOp}

/-- The bookkeeping does not touch the store. -/
@[simp] theorem record_mem (f : Layer) (a : LayerOp) : (f.record a).mem = f.mem := by
  unfold record
  split
  · rfl
  · split_ifs <;> rfl
  · rfl
  · rfl
  · rfl
  · split <;> rfl
  · rfl
  · rfl
  · rfl

/-- **What a step is**: it was enabled, it made its call and it changed what is
left to do. -/
theorem Step.cases (h : f.Step a f') :
    f.Enabled a ∧ f' = { f.record a with mem := f'.mem } ∧
      ((f.call a = none ∧ f'.mem = f.mem) ∨ ∃ op, f.call a = some op ∧ f.mem.Step op f'.mem) := by
  unfold Step step at h
  rw [Option.ite_none_right_eq_some] at h
  obtain ⟨hen, h⟩ := h
  refine ⟨hen, ?_⟩
  cases hcall : f.call a with
  | none =>
      rw [hcall] at h
      obtain rfl := Option.some.inj h
      exact ⟨rfl, Or.inl ⟨rfl, record_mem f a⟩⟩
  | some op =>
      rw [hcall] at h
      obtain ⟨m, hm, rfl⟩ := Option.map_eq_some_iff.1 h
      exact ⟨rfl, Or.inr ⟨op, rfl, hm⟩⟩

/-- **A run of the layer is a run of the store.** -/
theorem mem_reachable {g : Layer} (h : Reachable Step f g) : Reachable Mem.Step f.mem g.mem := by
  refine h.project fun s a t hstep => ?_
  obtain ⟨-, -, ⟨-, hm⟩ | ⟨op, -, hm⟩⟩ := hstep.cases
  · exact Or.inl hm
  · exact Or.inr ⟨op, hm⟩

/-- What is known of the store and the bindings between two steps. -/
structure Inv (f : Layer) : Prop where
  store : f.mem.StoreInv
  bound : f.mem.Bound

/-- The layer of an empty store. -/
theorem inv_init (opt : SessionOptions) (digest : String → String) (sendBuffer : ClientRef → ℤ) :
    (init opt digest sendBuffer).Inv :=
  ⟨Mem.storeInv_newSessionStore opt digest sendBuffer,
    Mem.bound_newSessionStore opt digest sendBuffer⟩

/-- The cases of `call`. -/
inductive Called (f : Layer) : LayerOp → Op → Prop where
  | openSession (c : ClientRef) (req : ResumeRequest) (now : ℤ) (newID : Option String) :
      Called f (.openSession c req now newID) (.openSession c req now newID)
  | send (c : ClientRef) (data : Bytes) (pol : SendPolicy) :
      Called f (.send c data pol) (.trySend c data pol)
  | runShutdown (c : ClientRef) : Called f (.runShutdown c) (.closeRaw c)
  | displace (c : ClientRef) : Called f (.displace c) (.closeRaw c)
  | shutdown (c : ClientRef) : Called f (.shutdown c) (.shutdown c)
  | closeRaw (c : ClientRef) : Called f (.closeRaw c) (.closeRaw c)
  | leave {c : ClientRef} {p : SessionRef} {resumable : Bool} (now : ℤ) :
      (f.mem.client c).session = some p → f.retiring c = some resumable →
      Called f (.leave c now) (.leave p c resumable now)
  | sweep (now : ℤ) : Called f (.sweep now) (.sweep now)
  | ack {c : ClientRef} {p : SessionRef} (seq : ℕ) :
      (f.mem.client c).session = some p → Called f (.ack c seq) (.ack p seq)
  | claimKey {c : ClientRef} {p : SessionRef} (key : String) :
      (f.mem.client c).session = some p → Called f (.claimKey c key) (.claimKey p key)
  | write (c : ClientRef) : Called f (.write c) (.write c)

/-- **Everything a step can call.** -/
theorem called {op : Op} (h : f.call a = some op) : f.Called a op := by
  cases a with
  | leave c now =>
      simp only [call] at h
      split at h
      next p resumable hs hr =>
        cases h
        exact .leave now hs hr
      next => cases h
  | ack c seq =>
      obtain ⟨p, hp, rfl⟩ := Option.map_eq_some_iff.1 h
      exact .ack seq hp
  | claimKey c key =>
      obtain ⟨p, hp, rfl⟩ := Option.map_eq_some_iff.1 h
      exact .claimKey key hp
  | _ => cases h <;> constructor

/-- The one step that calls `Open` is `openSession`. -/
theorem call_eq_openSession {c : ClientRef} {req : ResumeRequest} {now : ℤ}
    {newID : Option String} (h : f.call a = some (.openSession c req now newID)) :
    a = .openSession c req now newID := by
  cases called h
  rfl

/-- The one step that calls `Leave` is the read pump's. -/
theorem call_eq_leave {p : SessionRef} {c : ClientRef} {resumable : Bool} {now : ℤ}
    (h : f.call a = some (.leave p c resumable now)) :
    a = .leave c now ∧ (f.mem.client c).session = some p ∧ f.retiring c = some resumable := by
  cases called h with
  | leave _ hs hr => exact ⟨rfl, hs, hr⟩

/-- Every step of the layer keeps what is known of the store and the connections. -/
theorem Inv.step (h : f.Inv) (hstep : f.Step a f') : f'.Inv := by
  obtain ⟨hen, -, ⟨-, hm⟩ | ⟨op, hcall, hm⟩⟩ := hstep.cases
  · exact ⟨hm ▸ h.store, hm ▸ h.bound⟩
  · refine ⟨h.store.step hm, h.bound.step h.store hm fun c req now newID hop => ?_⟩
    subst hop
    obtain rfl := call_eq_openSession hcall
    exact hen

/-- A step only adds sessions. -/
theorem Step.sessionCount_le (hstep : f.Step a f') (h : f.Inv) :
    f.mem.sessionCount ≤ f'.mem.sessionCount := by
  obtain ⟨-, -, ⟨-, hm⟩ | ⟨op, -, hm⟩⟩ := hstep.cases
  · rw [hm]
  · exact hm.sessionCount_le h.store

/-- What is known of the store and the connections, in every run. -/
theorem Inv.of_reachable {opt : SessionOptions} {digest : String → String}
    {sendBuffer : ClientRef → ℤ} (h : Reachable Step (init opt digest sendBuffer) f) : f.Inv :=
  h.invariant (inv_init opt digest sendBuffer) fun _ _ _ hf hstep => hf.step hstep

/-- What a step does to a session, by the call it makes. -/
theorem Step.session (hstep : f.Step a f') (h : f.Inv) (q : SessionRef) :
    f'.mem.session q = f.mem.session q ∨
      ∃ op, f.call a = some op ∧ Mem.Touched f.mem op q (f'.mem.session q) := by
  obtain ⟨-, -, ⟨-, hm⟩ | ⟨op, hcall, hm⟩⟩ := hstep.cases
  · exact Or.inl (by rw [hm])
  · exact Or.inr ⟨op, hcall, h.store.step_touched hm q⟩

/-- A connection stays bound. -/
theorem Step.bound (hstep : f.Step a f') (h : f.Inv) {c : ClientRef} {p : SessionRef}
    (hc : (f.mem.client c).session = some p) : (f'.mem.client c).session = some p := by
  obtain ⟨hen, -, ⟨-, hm⟩ | ⟨op, hcall, hm⟩⟩ := hstep.cases
  · rw [hm]
    exact hc
  · rcases (Mem.step_clientTouched h.store hm c).session with heq | ⟨_, _, _, _, rfl, -⟩
    · exact heq.trans hc
    · obtain rfl := call_eq_openSession hcall
      rw [show (f.mem.client c).session = none from hen] at hc
      cases hc

/-- A closed transport stays closed. -/
theorem Step.closed (hstep : f.Step a f') (h : f.Inv) {c : ClientRef}
    (hc : (f.mem.client c).closed = true) : (f'.mem.client c).closed = true := by
  obtain ⟨-, -, ⟨-, hm⟩ | ⟨op, -, hm⟩⟩ := hstep.cases
  · rw [hm]
    exact hc
  · exact (Mem.step_clientTouched h.store hm c).mono.1 hc

/-- A step whose call is `closeRaw` closes the transport. -/
theorem Step.closes (hstep : f.Step a f') {c : ClientRef} (hcall : f.call a = some (.closeRaw c)) :
    (f'.mem.client c).closed = true := by
  obtain ⟨-, -, ⟨hno, -⟩ | ⟨op, hop, hm⟩⟩ := hstep.cases
  · rw [hcall] at hno
    cases hno
  · obtain rfl := Option.some.inj (hcall.symm.trans hop)
    rw [← Option.some.inj hm]
    simp [Client.closeRaw]

/-- A pending shutdown stays pending until it runs. -/
theorem Step.pending (hstep : f.Step a f') {c : ClientRef} (hc : c ∈ f.pending) :
    c ∈ f'.pending ∨ (f'.mem.client c).closed = true := by
  obtain ⟨-, heq, -⟩ := hstep.cases
  rw [heq]
  cases a with
  | runShutdown d =>
      by_cases hcd : c = d
      · subst hcd
        exact Or.inr (hstep.closes rfl)
      · exact Or.inl ((List.mem_erase_of_ne hcd).2 hc)
  | send d data pol =>
      refine Or.inl ?_
      simp only [record]
      split_ifs
      · exact hc
      · exact List.mem_append_left _ hc
  | leave d now =>
      refine Or.inl ?_
      simp only [record]
      split <;> exact hc
  | _ => exact Or.inl hc

/-- A connection that is to be closed is, sooner or later. -/
theorem Step.told (hstep : f.Step a f') {c : ClientRef} (hc : c ∈ f.told) :
    c ∈ f'.told ∨ (f'.mem.client c).closed = true := by
  obtain ⟨-, heq, -⟩ := hstep.cases
  rw [heq]
  cases a with
  | displace d =>
      by_cases hcd : c = d
      · subst hcd
        exact Or.inr (hstep.closes rfl)
      · exact Or.inl ((List.mem_erase_of_ne hcd).2 hc)
  | openSession d req now newID => exact Or.inl (List.mem_append_left _ hc)
  | send d data pol =>
      refine Or.inl ?_
      simp only [record]
      split_ifs <;> exact hc
  | leave d now =>
      refine Or.inl ?_
      simp only [record]
      split <;> exact hc
  | _ => exact Or.inl hc

end Layer
end GoSocket
