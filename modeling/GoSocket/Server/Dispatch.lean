/-
# Idempotent dispatch

`Server.dispatch`: an inbound message passes the middlewares, then its
idempotency key is claimed on the session of its connection, then the handler of
its event is looked up and run.  The read pump of a connection dispatches one
message after the other; the pumps of several connections of one session run at
the same time, so a call of `dispatch` is cut into its steps here: what it loads
first (`receive`), the verdict of the middlewares, the claim, the lookup.

The middlewares' verdict is arbitrary (a panic is a rejection), and handlers are
registered and removed at any time (`Server.On`).  An unreadable message and the
`$ack` control event are not dispatched.

`claims` and `done` record what happened: the keys claimed on each session, and
every message that was dispatched, with what was known when its fate was sealed.
-/

import GoSocket.Server.Layer

namespace GoSocket

open Lib

/-- `ClientWireMessage`. -/
structure ClientWireMessage where
  event : String
  room : String
  payload : Bytes
  id : String
  idempotencyKey : String
  deriving DecidableEq

/-- `EventAck`. -/
def eventAck : String := "$ack"

/-- How far a call of `dispatch` has come. -/
inductive DispatchStage where
  /-- The message is read; the middlewares are to run. -/
  | received
  /-- The middlewares have accepted it and its event is not empty; its key is to be claimed. -/
  | accepted
  /-- The key was claimed after the keys `before`; the handler is to be looked up. -/
  | claimed (before : List String)
  deriving DecidableEq

/-- A call of `dispatch`, on the session its connection is bound to. -/
structure DispatchCall where
  session : SessionRef
  msg : ClientWireMessage
  stage : DispatchStage
  deriving DecidableEq

/-- A message that was dispatched. -/
structure Outcome where
  session : SessionRef
  msg : ClientWireMessage
  /-- The verdict of the middlewares. -/
  accepted : Bool
  /-- The keys claimed on the session before this message's own claim. -/
  before : List String
  /-- Whether there was a handler for its event. -/
  registered : Bool
  /-- Whether the handler was run. -/
  ran : Bool
  deriving DecidableEq

/-- The session layer and the calls of `dispatch`, by connection. -/
structure Dispatcher where
  layer : Layer
  handlers : String → Bool
  calls : ClientRef → Option DispatchCall
  claims : SessionRef → List String
  done : List Outcome

/-- One step of one goroutine. -/
inductive DispatchOp where
  | layer (a : LayerOp)
  /-- `Server.On`. -/
  | on (event : String) (registered : Bool)
  | receive (c : ClientRef) (msg : ClientWireMessage)
  | middleware (c : ClientRef) (ok : Bool)
  | claim (c : ClientRef)
  | lookup (c : ClientRef)
  deriving DecidableEq

/-- `ClaimKey` is called by `dispatch` only. -/
def LayerOp.claims : LayerOp → Bool
  | .claimKey .. => true
  | _ => false

namespace Dispatcher

/-- A server that has just started. -/
def init (opt : SessionOptions) (digest : String → String) (sendBuffer : ClientRef → ℤ)
    (handlers : String → Bool) : Dispatcher where
  layer := .init opt digest sendBuffer
  handlers := handlers
  calls := fun _ => none
  claims := fun _ => []
  done := []

def setCall (d : Dispatcher) (c : ClientRef) (call : Option DispatchCall) : Dispatcher :=
  { d with calls := Function.update d.calls c call }

/-- `dispatch` returns. -/
def finish (d : Dispatcher) (c : ClientRef) (call : DispatchCall) (accepted : Bool)
    (before : List String) (ran : Bool) : Dispatcher :=
  { d.setCall c none with
    done := d.done ++
      [⟨call.session, call.msg, accepted, before, d.handlers call.msg.event, ran⟩] }

/-- The claim of a key, after the layer has made it. -/
def afterClaim (d : Dispatcher) (c : ClientRef) (call : DispatchCall) (f : Layer) : Dispatcher :=
  let before := d.claims call.session
  let d' := { d with layer := f }
  if (d.layer.mem.claimKey call.session call.msg.idempotencyKey).2 then
    { d'.setCall c (some { call with stage := .claimed before }) with
      claims := Function.update d.claims call.session (before ++ [call.msg.idempotencyKey]) }
  -- a duplicate: it is counted and the message goes no further
  else d'.finish c call true before false

def step (d : Dispatcher) : DispatchOp → Option Dispatcher
  | .layer a => if a.claims then none else (d.layer.step a).map fun f => { d with layer := f }
  | .on event registered =>
      some { d with handlers := Function.update d.handlers event registered }
  | .receive c msg =>
      match d.calls c, (d.layer.mem.client c).session with
      | none, some p =>
          if msg.event = eventAck then none else some (d.setCall c (some ⟨p, msg, .received⟩))
      | _, _ => none
  | .middleware c ok =>
      match d.calls c with
      | some ⟨p, msg, .received⟩ =>
          if ok = true ∧ msg.event ≠ "" then some (d.setCall c (some ⟨p, msg, .accepted⟩))
          else some (d.finish c ⟨p, msg, .received⟩ ok (d.claims p) false)
      | _ => none
  | .claim c =>
      match d.calls c with
      | some ⟨p, msg, .accepted⟩ =>
          if msg.idempotencyKey = "" then
            some (d.setCall c (some ⟨p, msg, .claimed (d.claims p)⟩))
          else
            (d.layer.step (.claimKey c msg.idempotencyKey)).map (d.afterClaim c ⟨p, msg, .accepted⟩)
      | _ => none
  | .lookup c =>
      match d.calls c with
      | some ⟨p, msg, .claimed before⟩ =>
          some (d.finish c ⟨p, msg, .claimed before⟩ true before (d.handlers msg.event))
      | _ => none

/-- The step relation of the dispatcher. -/
def Step (d : Dispatcher) (a : DispatchOp) (d' : Dispatcher) : Prop := d.step a = some d'

/-- The cases of `step`. -/
inductive Took (d : Dispatcher) : DispatchOp → Dispatcher → Prop where
  | layer {a : LayerOp} {f : Layer} : a.claims = false → d.layer.Step a f →
      Took d (.layer a) { d with layer := f }
  | on (event : String) (registered : Bool) :
      Took d (.on event registered)
        { d with handlers := Function.update d.handlers event registered }
  | receive {c : ClientRef} {msg : ClientWireMessage} {p : SessionRef} : d.calls c = none →
      (d.layer.mem.client c).session = some p → msg.event ≠ eventAck →
      Took d (.receive c msg) (d.setCall c (some ⟨p, msg, .received⟩))
  | passed {c : ClientRef} {p : SessionRef} {msg : ClientWireMessage} :
      d.calls c = some ⟨p, msg, .received⟩ → msg.event ≠ "" →
      Took d (.middleware c true) (d.setCall c (some ⟨p, msg, .accepted⟩))
  | rejected {c : ClientRef} {p : SessionRef} {msg : ClientWireMessage} {ok : Bool} :
      d.calls c = some ⟨p, msg, .received⟩ → (ok = true → msg.event = "") →
      Took d (.middleware c ok) (d.finish c ⟨p, msg, .received⟩ ok (d.claims p) false)
  | unkeyed {c : ClientRef} {p : SessionRef} {msg : ClientWireMessage} :
      d.calls c = some ⟨p, msg, .accepted⟩ → msg.idempotencyKey = "" →
      Took d (.claim c) (d.setCall c (some ⟨p, msg, .claimed (d.claims p)⟩))
  | claim {c : ClientRef} {p : SessionRef} {msg : ClientWireMessage} {f : Layer} :
      d.calls c = some ⟨p, msg, .accepted⟩ → msg.idempotencyKey ≠ "" →
      d.layer.Step (.claimKey c msg.idempotencyKey) f →
      Took d (.claim c) (d.afterClaim c ⟨p, msg, .accepted⟩ f)
  | lookup {c : ClientRef} {p : SessionRef} {msg : ClientWireMessage} {before : List String} :
      d.calls c = some ⟨p, msg, .claimed before⟩ →
      Took d (.lookup c)
        (d.finish c ⟨p, msg, .claimed before⟩ true before (d.handlers msg.event))

variable {d d' : Dispatcher} {a : DispatchOp}

/-- **Everything a step can be.** -/
theorem Step.took (hstep : d.Step a d') : Took d a d' := by
  unfold Step step at hstep
  cases a with
  | layer a =>
      dsimp only at hstep
      split_ifs at hstep with hclaims
      obtain ⟨f, hf, rfl⟩ := Option.map_eq_some_iff.1 hstep
      exact .layer (by simpa using hclaims) hf
  | on event registered =>
      obtain rfl := Option.some.inj hstep
      exact .on event registered
  | receive c msg =>
      dsimp only at hstep
      split at hstep
      next p hcall hp =>
        split_ifs at hstep with hack
        obtain rfl := Option.some.inj hstep
        exact .receive hcall hp hack
      next => cases hstep
  | middleware c ok =>
      dsimp only at hstep
      split at hstep
      next p msg hcall =>
        split_ifs at hstep with hok
        · obtain rfl := Option.some.inj hstep
          obtain ⟨rfl, hevent⟩ := hok
          exact .passed hcall hevent
        · obtain rfl := Option.some.inj hstep
          exact .rejected hcall fun h => not_not.1 fun hevent => hok ⟨h, hevent⟩
      next => cases hstep
  | claim c =>
      dsimp only at hstep
      split at hstep
      next p msg hcall =>
        split_ifs at hstep with hkey
        · obtain rfl := Option.some.inj hstep
          exact .unkeyed hcall hkey
        · obtain ⟨f, hf, rfl⟩ := Option.map_eq_some_iff.1 hstep
          exact .claim hcall hkey hf
      next => cases hstep
  | lookup c =>
      dsimp only at hstep
      split at hstep
      next p msg before hcall =>
        obtain rfl := Option.some.inj hstep
        exact .lookup hcall
      next => cases hstep

/-- What `ClaimKey` puts into the window: long keys are hashed. -/
def hashedKey (digest : String → String) (key : String) : String :=
  if maxKeyLen < key.utf8ByteSize then digest key else key

/-- The store after the claim a bound connection makes. -/
theorem layer_claimKey {f f' : Layer} {c : ClientRef} {key : String} {p : SessionRef}
    (hp : (f.mem.client c).session = some p) (hstep : f.Step (.claimKey c key) f') :
    f'.mem = (f.mem.claimKey p key).1 := by
  obtain ⟨-, -, ⟨hno, -⟩ | ⟨op, hop, hm⟩⟩ := hstep.cases
  · simp [Layer.call, hp] at hno
  · simp only [Layer.call, hp, Option.map_some, Option.some.injEq] at hop
    subst hop
    exact hm.claimKey_eq

/-- The key windows agree with the claims, and the claims are of keys in `K`. -/
structure Windows (opt : SessionOptions) (digest : String → String) (K : Set String)
    (d : Dispatcher) : Prop where
  layer : d.layer.Inv
  opt_eq : d.layer.mem.store.opt = opt.normalized digest
  window : ∀ p, (d.layer.mem.session p).keys.Holds ((d.claims p).map (hashedKey digest))
  unallocated : ∀ p, d.layer.mem.sessionCount ≤ p → d.claims p = []
  used : ∀ p, ∀ k ∈ d.claims p, k ∈ K

variable {opt : SessionOptions} {digest : String → String} {K : Set String}

namespace Windows

/-- What is known of the windows depends on the layer and the claims alone. -/
theorem congr (h : d.Windows opt digest K) (hlayer : d'.layer = d.layer)
    (hclaims : d'.claims = d.claims) : d'.Windows opt digest K where
  layer := hlayer ▸ h.layer
  opt_eq := hlayer ▸ h.opt_eq
  window := hlayer ▸ hclaims ▸ h.window
  unallocated := hlayer ▸ hclaims ▸ h.unallocated
  used := hclaims ▸ h.used

/-- A step of the session layer that is not a claim. -/
theorem step_layer (h : d.Windows opt digest K) {b : LayerOp} {f : Layer}
    (hb : b.claims = false) (hstep : d.layer.Step b f) :
    ({ d with layer := f } : Dispatcher).Windows opt digest K where
  layer := h.layer.step hstep
  opt_eq := by
    obtain ⟨-, -, ⟨-, hm⟩ | ⟨op, -, hm⟩⟩ := hstep.cases
    · exact hm ▸ h.opt_eq
    · exact (hm.opt h.layer.store).trans h.opt_eq
  window p := by
    show (f.mem.session p).keys.Holds _
    rcases hstep.session h.layer p with heq | ⟨op, hcall, ht⟩
    · rw [heq]
      exact h.window p
    · rcases ht.keys with heq | ⟨rfl, heq⟩ | ⟨key, rfl, -⟩
      · rw [heq]
        exact h.window p
      · rw [heq, h.unallocated _ le_rfl]
        exact KeyWindow.holds_new _
      · cases Layer.called hcall
        cases hb
  unallocated p hp := h.unallocated p ((hstep.sessionCount_le h.layer).trans hp)
  used := h.used

/-- The window of a session, against the keys as the peer sent them. -/
theorem claim_cases (h : d.Windows opt digest K) (hK : Set.InjOn (hashedKey digest) K)
    (p : SessionRef) {key : String} (hkey : key ∈ K) :
    (key ∈ (d.claims p).rtake (opt.normalized digest).keyWindow ∧
      (d.layer.mem.claimKey p key).2 = false ∧
      ((d.layer.mem.claimKey p key).1.session p).keys = (d.layer.mem.session p).keys) ∨
    (key ∉ (d.claims p).rtake (opt.normalized digest).keyWindow ∧
      (d.layer.mem.claimKey p key).2 = true ∧
      ((d.layer.mem.claimKey p key).1.session p).keys.Holds
        ((d.claims p ++ [key]).map (hashedKey digest))) := by
  have hmax : (d.layer.mem.session p).keys.raw.max = (opt.normalized digest).keyWindow := by
    rw [(h.layer.store.linked.session p).limits.2.2, h.opt_eq]
  have hpos : (d.layer.mem.session p).keys.raw.max ≠ 0 := by
    rw [hmax]
    exact (opt.normalized digest).keyWindow_pos.ne'
  have hkeys : ((d.layer.mem.claimKey p key).1.session p).keys =
      ((d.layer.mem.session p).keys.claim (hashedKey digest key)).1 := by
    rw [Mem.claimKey, h.opt_eq]
    simp [Session.claimKey, hashedKey, SessionOptions.normalized]
  have hresult : (d.layer.mem.claimKey p key).2 =
      ((d.layer.mem.session p).keys.claim (hashedKey digest key)).2 := by
    rw [Mem.claimKey, h.opt_eq]
    rfl
  -- hashing is injective on the keys in use, so the window can be read unhashed
  have hmem : hashedKey digest key ∈ ((d.claims p).map (hashedKey digest)).rtake
      (d.layer.mem.session p).keys.raw.max ↔
        key ∈ (d.claims p).rtake (opt.normalized digest).keyWindow := by
    rw [hmax, List.rtake, List.length_map, ← List.map_drop, List.mem_map, List.rtake]
    constructor
    · rintro ⟨k, hk, heq⟩
      rwa [← hK (h.used p k (List.mem_of_mem_drop hk)) hkey heq]
    · exact fun hk => ⟨key, hk, rfl⟩
  rw [hkeys, hresult]
  rcases (h.window p).claim hpos (hashedKey digest key) with ⟨hin, heq⟩ | ⟨hout, htrue, hholds⟩
  · exact Or.inl ⟨hmem.1 hin, by rw [heq], by rw [heq]⟩
  · refine Or.inr ⟨fun hin => hout (hmem.2 hin), htrue, ?_⟩
    rw [List.map_append]
    exact hholds

/-- A claim on the session `p`: its window is that of `log`, the others are as before. -/
theorem step_claim (h : d.Windows opt digest K) {c : ClientRef} {key : String} {p : SessionRef}
    {f : Layer} (hp : (d.layer.mem.client c).session = some p)
    (hstep : d.layer.Step (.claimKey c key) f) {log : List String}
    (hlog : ((d.layer.mem.claimKey p key).1.session p).keys.Holds (log.map (hashedKey digest)))
    (hused : ∀ k ∈ log, k ∈ K) :
    ({ d with layer := f, claims := Function.update d.claims p log } : Dispatcher).Windows
      opt digest K where
  layer := h.layer.step hstep
  opt_eq := by
    show f.mem.store.opt = _
    rw [layer_claimKey hp hstep]
    exact h.opt_eq
  window q := by
    show (f.mem.session q).keys.Holds ((Function.update d.claims p log q).map _)
    rw [layer_claimKey hp hstep]
    by_cases hq : q = p
    · subst hq
      rw [Function.update_self]
      exact hlog
    · rw [Function.update_of_ne hq, Mem.claimKey, Mem.setSession_session, if_neg hq]
      exact h.window q
  unallocated q hq := by
    have hle := (hstep.sessionCount_le h.layer).trans hq
    have hne : q ≠ p := (lt_of_lt_of_le (h.layer.bound.allocated hp) hle).ne'
    show Function.update d.claims p log q = []
    rw [Function.update_of_ne hne]
    exact h.unallocated q hle
  used q k hk := by
    by_cases hq : q = p
    · subst hq
      exact hused k (by simpa only [Function.update_self] using hk)
    · exact h.used q k (by simpa only [Function.update_of_ne hq] using hk)

/-- The last claims of a session are of distinct keys. -/
theorem nodup (h : d.Windows opt digest K) (p : SessionRef) :
    ((d.claims p).rtake (opt.normalized digest).keyWindow).Nodup := by
  have hnodup := (h.window p).nodup
  rw [(h.layer.store.linked.session p).limits.2.2, h.opt_eq, List.rtake, List.length_map,
    ← List.map_drop] at hnodup
  exact hnodup.of_map _

end Windows

/-- What is known of a successful claim of `key` after the claims `before`: it is in
the log of all claims right after them, and it is none of the last `W`, which are
distinct. -/
structure Ticket (W : ℕ) (log before : List String) (key : String) : Prop where
  logged : before ++ [key] <+: log
  fresh : key ∉ before.rtake W
  nodup : (before.rtake W).Nodup

/-- Of two executions with the key `key`, one was claimed after the claims `a`, the
other after the claims `b`, and `W` claims of other, distinct keys lie between. -/
def SeparatedBy (W : ℕ) (key : String) (a b : List String) : Prop :=
  ∃ mid others, b = a ++ key :: (mid ++ others) ∧ others.length = W ∧ others.Nodup ∧ key ∉ others

namespace Ticket

variable {W : ℕ} {log before : List String} {key : String}

/-- A ticket stays good while the log only grows. -/
theorem mono (h : Ticket W log before key) {log' : List String} (hlog : log <+: log') :
    Ticket W log' before key := ⟨h.logged.trans hlog, h.fresh, h.nodup⟩

/-- The claim of a ticket is in the log. -/
theorem length_lt (h : Ticket W log before key) : before.length < log.length := by
  have hle := h.logged.length_le
  rwa [List.length_append, List.length_singleton] at hle

/-- Two claims of one key are `W` other claims apart. -/
theorem separated {a b : List String} (ha : Ticket W log a key) (hb : Ticket W log b key)
    (hlt : a.length < b.length) : SeparatedBy W key a b := by
  have hb' : b <+: log := (List.prefix_append b [key]).trans hb.logged
  obtain ⟨mid, rfl⟩ : a ++ [key] <+: b :=
    List.prefix_of_prefix_length_le ha.logged hb' (by simpa using Nat.succ_le_of_lt hlt)
  have hlen : W ≤ mid.length := by
    -- otherwise the first claim is still among the last `W`
    by_contra hshort
    refine hb.fresh ?_
    have hdrop : (a ++ ([key] ++ mid)).length - W ≤ a.length := by
      simp only [List.length_append, List.length_singleton]
      omega
    rw [List.rtake, List.append_assoc, List.drop_append_of_le_length hdrop]
    simp
  have hrtake : (a ++ [key] ++ mid).rtake W = mid.drop (mid.length - W) := by
    rw [List.rtake, List.drop_append, List.drop_eq_nil_of_le, List.nil_append]
    · congr 1
      simp only [List.length_append, List.length_singleton]
      omega
    · simp only [List.length_append, List.length_singleton]
      omega
  refine ⟨mid.take (mid.length - W), mid.drop (mid.length - W), ?_, ?_, ?_, ?_⟩
  · rw [List.take_append_drop, List.append_assoc]
    rfl
  · rw [List.length_drop]
    omega
  · exact hrtake ▸ hb.nodup
  · exact hrtake ▸ hb.fresh

end Ticket

/-- The window size. -/
abbrev windowSize (opt : SessionOptions) (digest : String → String) : ℕ :=
  (opt.normalized digest).keyWindow

/-- What is known of a call of `dispatch` on the connection `c`. -/
structure CallInv (K : Set String) (W : ℕ) (d : Dispatcher) (c : ClientRef) (call : DispatchCall) :
    Prop where
  bound : (d.layer.mem.client c).session = some call.session
  key : call.msg.idempotencyKey ∈ K
  event : call.stage ≠ .received → call.msg.event ≠ ""
  prefixed : ∀ before, call.stage = .claimed before → before <+: d.claims call.session
  ticket : ∀ before, call.stage = .claimed before → call.msg.idempotencyKey ≠ "" →
    Ticket W (d.claims call.session) before call.msg.idempotencyKey

/-- What is known of a message that was dispatched. -/
structure OutcomeInv (W : ℕ) (d : Dispatcher) (o : Outcome) : Prop where
  prefixed : o.before <+: d.claims o.session
  ran_iff : o.msg.idempotencyKey ≠ "" → (o.ran = true ↔ o.accepted = true ∧ o.msg.event ≠ "" ∧
    o.registered = true ∧ o.msg.idempotencyKey ∉ o.before.rtake W)
  ticket : o.ran = true → o.msg.idempotencyKey ≠ "" →
    Ticket W (d.claims o.session) o.before o.msg.idempotencyKey

/-- The call on `c` has claimed a key of the session `p` as the `n`-th. -/
def Holding (d : Dispatcher) (c : ClientRef) (p : SessionRef) (n : ℕ) : Prop :=
  ∃ msg before, d.calls c = some ⟨p, msg, .claimed before⟩ ∧ msg.idempotencyKey ≠ "" ∧
    before.length = n

/-- The message was executed with a key it claimed of the session `p` as the `n`-th. -/
def Executed (o : Outcome) (p : SessionRef) (n : ℕ) : Prop :=
  o.session = p ∧ o.ran = true ∧ o.msg.idempotencyKey ≠ "" ∧ o.before.length = n

/-- Every claim belongs to one message. -/
structure Exclusive (d : Dispatcher) : Prop where
  calls : ∀ {c c' p n}, d.Holding c p n → d.Holding c' p n → c = c'
  done : ∀ o ∈ d.done, ∀ {c p n}, Executed o p n → ¬ d.Holding c p n
  pairwise : d.done.Pairwise fun o₁ o₂ => ∀ p n, Executed o₁ p n → ¬ Executed o₂ p n

/-- What is known between two steps. -/
structure Inv (opt : SessionOptions) (digest : String → String) (K : Set String)
    (d : Dispatcher) : Prop where
  windows : d.Windows opt digest K
  calls : ∀ c call, d.calls c = some call → d.CallInv K (windowSize opt digest) c call
  done : ∀ o ∈ d.done, d.OutcomeInv (windowSize opt digest) o
  exclusive : d.Exclusive

section mono

variable {W : ℕ} {c : ClientRef}

/-- The claims of `d` are continued in `d'`, and its bindings are kept. -/
structure Continues (d d' : Dispatcher) : Prop where
  bound : ∀ {c p}, (d.layer.mem.client c).session = some p →
    (d'.layer.mem.client c).session = some p
  claims : ∀ p, d.claims p <+: d'.claims p

/-- What is known of a call stays known while the claims only grow. -/
theorem CallInv.mono {call : DispatchCall} (h : d.CallInv K W c call) (hd : d.Continues d') :
    d'.CallInv K W c call where
  bound := hd.bound h.bound
  key := h.key
  event := h.event
  prefixed before hs := (h.prefixed before hs).trans (hd.claims _)
  ticket before hs hkey := (h.ticket before hs hkey).mono (hd.claims _)

/-- What is known of an outcome stays known while the claims only grow. -/
theorem OutcomeInv.mono {o : Outcome} (h : d.OutcomeInv W o) (hd : d.Continues d') :
    d'.OutcomeInv W o where
  prefixed := h.prefixed.trans (hd.claims _)
  ran_iff := h.ran_iff
  ticket hran hkey := (h.ticket hran hkey).mono (hd.claims _)

/-- A step that leaves the layer and the claims continues the run. -/
theorem Continues.of_eq (hlayer : d'.layer = d.layer) (hclaims : d'.claims = d.claims) :
    d.Continues d' := ⟨fun h => hlayer ▸ h, fun _ => hclaims ▸ List.prefix_refl _⟩

end mono

namespace Exclusive

/-- Steps that give no call a claim. -/
theorem mono (h : d.Exclusive) (hdone : d'.done = d.done)
    (hsub : ∀ {c p n}, d'.Holding c p n → d.Holding c p n) : d'.Exclusive where
  calls hc hc' := h.calls (hsub hc) (hsub hc')
  done o ho _ _ _ hex hc := h.done o (hdone ▸ ho) hex (hsub hc)
  pairwise := hdone ▸ h.pairwise

/-- A call returns: what it held, if anything, is now its message's. -/
theorem finish (h : d.Exclusive) (c₀ : ClientRef) {o : Outcome}
    (hdone : d'.done = d.done ++ [o])
    (hsub : ∀ {c p n}, d'.Holding c p n → d.Holding c p n ∧ c ≠ c₀)
    (ho : ∀ {p n}, Executed o p n → d.Holding c₀ p n) : d'.Exclusive where
  calls hc hc' := h.calls (hsub hc).1 (hsub hc').1
  done o' ho' c p n hex hc := by
    rw [hdone, List.mem_append, List.mem_singleton] at ho'
    rcases ho' with ho' | rfl
    · exact h.done o' ho' hex (hsub hc).1
    · exact (hsub hc).2 (h.calls (hsub hc).1 (ho hex))
  pairwise := by
    rw [hdone, List.pairwise_append]
    refine ⟨h.pairwise, List.pairwise_singleton .., fun o₁ ho₁ o₂ ho₂ p n hex₁ hex₂ => ?_⟩
    obtain rfl := List.mem_singleton.1 ho₂
    exact h.done o₁ ho₁ hex₁ (ho hex₂)

end Exclusive

/-- The holdings after a call has moved to another stage. -/
theorem holding_setCall {c₀ c : ClientRef} {call : Option DispatchCall} {p : SessionRef} {n : ℕ}
    (h : (d.setCall c₀ call).Holding c p n) :
    (c ≠ c₀ ∧ d.Holding c p n) ∨
      (c = c₀ ∧ ∃ msg before, call = some ⟨p, msg, .claimed before⟩ ∧ msg.idempotencyKey ≠ "" ∧
        before.length = n) := by
  obtain ⟨msg, before, hc, hkey, hn⟩ := h
  by_cases hcc : c = c₀
  · subst hcc
    have hcall : call = some ⟨p, msg, .claimed before⟩ := by
      simpa only [setCall, Function.update_self] using hc
    exact Or.inr ⟨rfl, msg, before, hcall, hkey, hn⟩
  · have hcall : d.calls c = some ⟨p, msg, .claimed before⟩ := by
      simpa only [setCall, Function.update_of_ne hcc] using hc
    exact Or.inl ⟨hcc, msg, before, hcall, hkey, hn⟩

/-- No message has the `n`-th claim of the session `p`. -/
def Unused (d : Dispatcher) (p : SessionRef) (n : ℕ) : Prop :=
  (∀ c, ¬ d.Holding c p n) ∧ ∀ o ∈ d.done, ¬ Executed o p n

/-- A call makes a claim that no message has. -/
theorem Exclusive.setCall (h : d.Exclusive) {c : ClientRef} {call : DispatchCall}
    (hfresh : ∀ before, call.stage = .claimed before → call.msg.idempotencyKey ≠ "" →
      d.Unused call.session before.length) : (d.setCall c (some call)).Exclusive := by
  have hnew : ∀ {c' p n}, (d.setCall c (some call)).Holding c' p n →
      d.Holding c' p n ∨ (c' = c ∧ d.Unused p n) := by
    intro c' p n hold
    rcases holding_setCall hold with ⟨-, hold⟩ | ⟨rfl, msg, before, hcall, hkey, rfl⟩
    · exact Or.inl hold
    · obtain rfl := Option.some.inj hcall
      exact Or.inr ⟨rfl, hfresh before rfl hkey⟩
  refine ⟨fun hc hc' => ?_, fun o ho _ _ _ hex hc => ?_, h.pairwise⟩
  · rcases hnew hc with hold | ⟨rfl, hun⟩ <;> rcases hnew hc' with hold' | ⟨rfl, hun'⟩
    · exact h.calls hold hold'
    · exact absurd hold (hun'.1 _)
    · exact absurd hold' (hun.1 _)
    · rfl
  · rcases hnew hc with hold | ⟨-, hun⟩
    · exact h.done o ho hex hold
    · exact hun.2 o ho hex

/-- The next claim of a session is nobody's yet: those that are held are in the log. -/
theorem Inv.unused_length (h : d.Inv opt digest K) (p : SessionRef) :
    d.Unused p (d.claims p).length := by
  constructor
  · rintro c ⟨msg, before, hcall, hkey, hlen⟩
    exact ((h.calls c _ hcall).ticket before rfl hkey).length_lt.ne hlen
  · rintro o ho ⟨rfl, hran, hkey, hlen⟩
    exact ((h.done o ho).ticket hran hkey).length_lt.ne hlen

/-- The only inbound messages are those with keys in `K`. -/
def Keyed (K : Set String) (_ : Dispatcher) (a : DispatchOp) : Prop :=
  ∀ c msg, a = .receive c msg → msg.idempotencyKey ∈ K

namespace Inv

/-- No frame is dispatched at first. -/
theorem init (opt : SessionOptions) (digest : String → String) (sendBuffer : ClientRef → ℤ)
    (handlers : String → Bool) (K : Set String) :
    (Dispatcher.init opt digest sendBuffer handlers).Inv opt digest K where
  windows :=
    { layer := Layer.inv_init opt digest sendBuffer
      opt_eq := rfl
      window := fun _ => KeyWindow.holds_new _
      unallocated := fun _ _ => rfl
      used := fun _ _ hk => absurd hk List.not_mem_nil }
  calls _ _ hc := nomatch hc
  done _ ho := absurd ho List.not_mem_nil
  exclusive :=
    { calls := fun ⟨_, _, hc, _⟩ => nomatch hc
      done := fun _ ho => absurd ho List.not_mem_nil
      pairwise := List.Pairwise.nil }

/-- A call of `dispatch` moves on. -/
theorem setCall (h : d.Inv opt digest K) {c : ClientRef} (call : DispatchCall)
    (hinv : d.CallInv K (windowSize opt digest) c call)
    (hfresh : ∀ before, call.stage = .claimed before → call.msg.idempotencyKey ≠ "" →
      d.Unused call.session before.length) :
    (d.setCall c (some call)).Inv opt digest K where
  windows := h.windows.congr rfl rfl
  calls c' call' hc' := by
    refine CallInv.mono (d := d) ?_ (.of_eq rfl rfl)
    by_cases hcc : c' = c
    · subst hcc
      obtain rfl : call = call' := by
        simpa only [Dispatcher.setCall, Function.update_self, Option.some.injEq] using hc'
      exact hinv
    · refine h.calls c' call' ?_
      simpa only [Dispatcher.setCall, Function.update_of_ne hcc] using hc'
  done o ho := (h.done o ho).mono (.of_eq rfl rfl)
  exclusive := h.exclusive.setCall hfresh

/-- A call of `dispatch` returns. -/
theorem finish (h : d.Inv opt digest K) {c : ClientRef} {call : DispatchCall} {accepted ran : Bool}
    {before : List String}
    (hinv : d.OutcomeInv (windowSize opt digest)
      ⟨call.session, call.msg, accepted, before, d.handlers call.msg.event, ran⟩)
    (hran : ran = true → d.calls c = some { call with stage := .claimed before }) :
    (d.finish c call accepted before ran).Inv opt digest K where
  windows := h.windows.congr rfl rfl
  calls c' call' hc' := by
    refine CallInv.mono (d := d) ?_ (.of_eq rfl rfl)
    by_cases hcc : c' = c
    · subst hcc
      simp [Dispatcher.finish, Dispatcher.setCall] at hc'
    · refine h.calls c' call' ?_
      simpa only [Dispatcher.finish, Dispatcher.setCall, Function.update_of_ne hcc] using hc'
  done o ho := by
    rcases List.mem_append.1 ho with ho | ho
    · exact (h.done o ho).mono (.of_eq rfl rfl)
    · obtain rfl := List.mem_singleton.1 ho
      exact hinv.mono (.of_eq rfl rfl)
  exclusive := by
    refine h.exclusive.finish c rfl (fun {c' p n} hold => ?_) ?_
    · have hcleared : (d.setCall c none).Holding c' p n := hold
      rcases holding_setCall hcleared with ⟨hne, hold⟩ | ⟨-, _, _, hcall, -⟩
      · exact ⟨hold, hne⟩
      · cases hcall
    · rintro p n ⟨rfl, hr, hkey, rfl⟩
      exact ⟨_, _, hran hr, hkey, rfl⟩

/-- The layer moves, and with it the claims. -/
theorem advance (h : d.Inv opt digest K) {f : Layer} (claims : SessionRef → List String)
    (hw : ({ d with layer := f, claims := claims } : Dispatcher).Windows opt digest K)
    (hcont : d.Continues { d with layer := f, claims := claims }) :
    ({ d with layer := f, claims := claims } : Dispatcher).Inv opt digest K where
  windows := hw
  calls c call hc := (h.calls c call hc).mono hcont
  done o ho := (h.done o ho).mono hcont
  exclusive := h.exclusive.mono rfl id

/-- A step of the session layer. -/
theorem layer (h : d.Inv opt digest K) {b : LayerOp} {f : Layer} (hb : b.claims = false)
    (hstep : d.layer.Step b f) : ({ d with layer := f } : Dispatcher).Inv opt digest K :=
  h.advance d.claims (h.windows.step_layer hb hstep)
    ⟨hstep.bound h.windows.layer, fun _ => List.prefix_refl _⟩

/-- A claim in the layer, with the claims of its session continued to `log`. -/
theorem claimLog (h : d.Inv opt digest K) {c : ClientRef} {p : SessionRef} {key : String}
    {f : Layer} (hp : (d.layer.mem.client c).session = some p)
    (hstep : d.layer.Step (.claimKey c key) f) {log : List String} (hle : d.claims p <+: log)
    (hlog : ((d.layer.mem.claimKey p key).1.session p).keys.Holds (log.map (hashedKey digest)))
    (hused : ∀ k ∈ log, k ∈ K) :
    ({ d with layer := f, claims := Function.update d.claims p log } : Dispatcher).Inv
      opt digest K := by
  refine h.advance _ (h.windows.step_claim hp hstep hlog hused)
    ⟨hstep.bound h.windows.layer, fun q => ?_⟩
  by_cases hq : q = p
  · subst hq
    simpa only [Function.update_self] using hle
  · simp only [Function.update_of_ne hq, List.prefix_refl]

/-- The claim of a key. -/
theorem claim (h : d.Inv opt digest K) (hK : Set.InjOn (hashedKey digest) K) {c : ClientRef}
    {p : SessionRef} {msg : ClientWireMessage} {f : Layer}
    (hcall : d.calls c = some ⟨p, msg, .accepted⟩)
    (hstep : d.layer.Step (.claimKey c msg.idempotencyKey) f) :
    (d.afterClaim c ⟨p, msg, .accepted⟩ f).Inv opt digest K := by
  have hc := h.calls c _ hcall
  unfold afterClaim
  dsimp only
  rcases h.windows.claim_cases hK p hc.key with ⟨hin, hfalse, hkeys⟩ | ⟨hout, htrue, hholds⟩
  · rw [if_neg (by simp [hfalse])]
    have hinv := h.claimLog hc.bound hstep (List.prefix_refl _)
      (by rw [hkeys]; exact h.windows.window p) (h.windows.used p)
    rw [Function.update_eq_self] at hinv
    refine hinv.finish ⟨List.prefix_refl _, fun _ => ?_, fun hran => nomatch hran⟩
      fun hran => nomatch hran
    constructor
    · intro hran
      cases hran
    · rintro ⟨-, -, -, hnot⟩
      exact absurd hin hnot
  · rw [if_pos htrue]
    have hinv := h.claimLog hc.bound hstep (List.prefix_append ..) hholds fun k hk => by
      rcases List.mem_append.1 hk with hk | hk
      · exact h.windows.used p k hk
      · exact List.mem_singleton.1 hk ▸ hc.key
    refine hinv.setCall ⟨p, msg, .claimed (d.claims p)⟩
      ⟨hstep.bound h.windows.layer hc.bound, hc.key, fun _ => hc.event (by simp), ?_, ?_⟩ ?_
    · rintro before ⟨⟩
      simp
    · rintro before ⟨⟩ -
      exact ⟨by simp, hout, h.windows.nodup p⟩
    · rintro before ⟨⟩ -
      exact h.unused_length p

/-- The handler is looked up. -/
theorem lookup (h : d.Inv opt digest K) {c : ClientRef} {p : SessionRef} {msg : ClientWireMessage}
    {before : List String} (hcall : d.calls c = some ⟨p, msg, .claimed before⟩) :
    (d.finish c ⟨p, msg, .claimed before⟩ true before (d.handlers msg.event)).Inv opt digest K := by
  have hc := h.calls c _ hcall
  refine h.finish ⟨hc.prefixed before rfl, fun hkey => ?_, fun _ => hc.ticket before rfl⟩
    fun _ => hcall
  constructor
  · exact fun hran => ⟨rfl, hc.event (by simp), hran, (hc.ticket before rfl hkey).fresh⟩
  · exact fun ⟨_, _, hreg, _⟩ => hreg

/-- Every step with keys of `K` keeps what is known of the calls and the outcomes. -/
theorem step (h : d.Inv opt digest K) (hK : Set.InjOn (hashedKey digest) K) (hkeyed : Keyed K d a)
    (hstep : d.Step a d') : d'.Inv opt digest K := by
  cases hstep.took with
  | layer hb hf => exact h.layer hb hf
  | on event registered =>
      exact
        { windows := h.windows.congr rfl rfl
          calls := fun c call hc => (h.calls c call hc).mono (.of_eq rfl rfl)
          done := fun o ho => (h.done o ho).mono (.of_eq rfl rfl)
          exclusive := h.exclusive.mono rfl id }
  | receive hfree hp hack =>
      exact h.setCall _
        ⟨hp, hkeyed _ _ rfl, fun hne => absurd rfl hne, fun _ hs => (nomatch hs),
          fun _ hs => (nomatch hs)⟩ fun _ hs => (nomatch hs)
  | passed hcall hevent =>
      have hc := h.calls _ _ hcall
      exact h.setCall _
        ⟨hc.bound, hc.key, fun _ => hevent, fun _ hs => (nomatch hs), fun _ hs => (nomatch hs)⟩
        fun _ hs => (nomatch hs)
  | rejected hcall hok =>
      refine h.finish ⟨List.prefix_refl _, fun _ => ?_, fun hran => nomatch hran⟩
        fun hran => nomatch hran
      constructor
      · intro hran
        cases hran
      · rintro ⟨hacc, hevent, -⟩
        exact absurd (hok hacc) hevent
  | unkeyed hcall hkey =>
      have hc := h.calls _ _ hcall
      refine h.setCall _ ⟨hc.bound, hc.key, fun _ => hc.event (by simp), ?_, ?_⟩ ?_
      · rintro before ⟨⟩
        exact List.prefix_refl _
      · exact fun _ _ hne => absurd hkey hne
      · exact fun _ _ hne => absurd hkey hne
  | claim hcall hkey hf => exact h.claim hK hcall hf
  | lookup hcall => exact h.lookup hcall

/-- What is known of the calls and the outcomes, in every run with keys of `K`. -/
theorem of_reachable (hK : Set.InjOn (hashedKey digest) K) {sendBuffer : ClientRef → ℤ}
    {handlers : String → Bool}
    (h : Reachable (Guarded (Keyed K) Step) (Dispatcher.init opt digest sendBuffer handlers) d) :
    d.Inv opt digest K :=
  h.invariant (init opt digest sendBuffer handlers K) fun _ _ _ hd hstep =>
    hd.step hK hstep.1 hstep.2

/-- Two executions with one key of one session are a window apart. -/
theorem separated (h : d.Inv opt digest K) :
    d.done.Pairwise fun o₁ o₂ => o₁.session = o₂.session →
      o₁.msg.idempotencyKey = o₂.msg.idempotencyKey → o₁.msg.idempotencyKey ≠ "" →
      o₁.ran = true → o₂.ran = true →
      SeparatedBy (windowSize opt digest) o₁.msg.idempotencyKey o₁.before o₂.before ∨
        SeparatedBy (windowSize opt digest) o₁.msg.idempotencyKey o₂.before o₁.before := by
  refine h.exclusive.pairwise.imp_of_mem fun {o₁ o₂} ho₁ ho₂ hexcl hs hk hne hran₁ hran₂ => ?_
  have ht₁ := (h.done o₁ ho₁).ticket hran₁ hne
  have ht₂ := (h.done o₂ ho₂).ticket hran₂ (hk ▸ hne)
  rw [← hs, ← hk] at ht₂
  -- the two claims are different ones, so one of them is the earlier
  have hlen : o₁.before.length ≠ o₂.before.length := fun heq =>
    hexcl o₁.session o₁.before.length ⟨rfl, hran₁, hne, rfl⟩ ⟨hs.symm, hran₂, hk ▸ hne, heq.symm⟩
  rcases hlen.lt_or_gt with hlt | hlt
  · exact Or.inl (ht₁.separated ht₂ hlt)
  · exact Or.inr (ht₂.separated ht₁ hlt)

/-- A call of `dispatch` is never stuck. -/
theorem progress (h : d.Inv opt digest K) {c : ClientRef} {call : DispatchCall}
    (hcall : d.calls c = some call) :
    (∀ ok, ∃ d', d.Step (.middleware c ok) d') ∨ (∃ d', d.Step (.claim c) d') ∨
      ∃ d', d.Step (.lookup c) d' := by
  have hp := (h.calls c _ hcall).bound
  obtain ⟨p, msg, stage⟩ := call
  simp only [Step, ← Option.isSome_iff_exists]
  cases stage with
  | received =>
      refine Or.inl fun ok => ?_
      simp only [Dispatcher.step, hcall]
      split_ifs <;> rfl
  | accepted =>
      refine Or.inr (Or.inl ?_)
      have henabled : d.layer.Enabled (.claimKey c msg.idempotencyKey) := by
        simp only [Layer.Enabled, hp, ne_eq, reduceCtorEq, not_false_eq_true]
      have hlt : p < d.layer.mem.sessionCount := h.windows.layer.bound.allocated hp
      simp only [Dispatcher.step, hcall, Layer.step, if_pos henabled, Layer.call, hp,
        Option.map_some, Mem.step, if_pos hlt]
      split_ifs <;> rfl
  | claimed before =>
      refine Or.inr (Or.inr ?_)
      simp only [Dispatcher.step, hcall, Option.isSome_some]

end Inv

/-- A message the middlewares reject leaves the keys as they are. -/
theorem Step.rejected {c : ClientRef} (hstep : d.Step (.middleware c false) d') :
    d'.layer = d.layer ∧ d'.claims = d.claims ∧ d'.calls c = none := by
  cases hstep.took with
  | rejected hcall hok => exact ⟨rfl, rfl, by simp [finish, setCall]⟩

/-- **Idempotent dispatch.**  Messages with keys in `K` arrive on any connections of any
sessions, and their calls of `dispatch` interleave with each other and with everything
else the server does; the hash of long keys does not collide on `K`.

* No call is stuck, whatever the verdict of its middlewares.
* The handler of a message with a key runs iff its middlewares accepted it, its event is
  not empty and has a handler, and its key is none of the last `IdempotencyWindow` keys
  claimed on its session before it.
* A message the middlewares reject claims nothing.
* Of two executions with one key, one comes after `IdempotencyWindow` claims of other
  keys made since the other. -/
theorem idempotent_dispatch (opt : SessionOptions) (digest : String → String)
    (sendBuffer : ClientRef → ℤ) (handlers : String → Bool) (K : Set String)
    (hK : Set.InjOn (hashedKey digest) K) (d : Dispatcher)
    (h : Reachable (Guarded (Keyed K) Step) (init opt digest sendBuffer handlers) d) :
    (∀ c call, d.calls c = some call →
      (∀ ok, ∃ d', d.Step (.middleware c ok) d') ∨ (∃ d', d.Step (.claim c) d') ∨
        ∃ d', d.Step (.lookup c) d') ∧
    (∀ o ∈ d.done, o.before <+: d.claims o.session ∧ (o.msg.idempotencyKey ≠ "" →
      (o.ran = true ↔ o.accepted = true ∧ o.msg.event ≠ "" ∧ o.registered = true ∧
        o.msg.idempotencyKey ∉ o.before.rtake (windowSize opt digest)))) ∧
    (∀ c d', d.Step (.middleware c false) d' →
      d'.layer = d.layer ∧ d'.claims = d.claims ∧ d'.calls c = none) ∧
    d.done.Pairwise fun o₁ o₂ => o₁.session = o₂.session →
      o₁.msg.idempotencyKey = o₂.msg.idempotencyKey → o₁.msg.idempotencyKey ≠ "" →
      o₁.ran = true → o₂.ran = true →
      SeparatedBy (windowSize opt digest) o₁.msg.idempotencyKey o₁.before o₂.before ∨
        SeparatedBy (windowSize opt digest) o₁.msg.idempotencyKey o₂.before o₁.before := by
  have hinv := Inv.of_reachable hK h
  exact ⟨fun _ _ hcall => hinv.progress hcall,
    fun o ho => ⟨(hinv.done o ho).prefixed, (hinv.done o ho).ran_iff⟩,
    fun _ _ hstep => hstep.rejected, hinv.separated⟩

/-- A session with a window of one key, over its first connection and the one that resumed
it: the key `k` runs, its retry does not, `l` runs, and then `k` runs again. -/
theorem idempotent_dispatch_resumed :
    ∃ d, Reachable (Guarded (Keyed Set.univ) Step)
        (init ⟨0, 0, 0, 0, 1⟩ id (fun _ => 0) fun event => event == "pay") d ∧
      d.done.map (fun o => (o.msg.idempotencyKey, o.ran)) =
        [("k", true), ("k", false), ("l", true), ("k", true)] ∧
      ∀ o ∈ d.done, o.before <+: d.claims o.session := by
  let msg (key : String) : ClientWireMessage := ⟨"pay", "", [], "", key⟩
  let pay (c : ClientRef) (key : String) : List DispatchOp :=
    [.receive c (msg key), .middleware c true, .claim c]
  obtain ⟨d, hd, hp⟩ := Reachable.of_exec step
    (s := init ⟨0, 0, 0, 0, 1⟩ id (fun _ => 0) fun event => event == "pay")
    (.layer (.openSession 0 ⟨false, false, "", 0, "alice"⟩ 0 (some "a")) ::
      pay 0 "k" ++ .lookup 0 :: pay 0 "k" ++
      .layer (.openSession 1 ⟨true, false, "a", 0, "alice"⟩ 1 none) ::
      pay 1 "l" ++ .lookup 1 :: pay 0 "k" ++ [.lookup 0])
    (p := fun d => d.done.map (fun o => (o.msg.idempotencyKey, o.ran)) =
      [("k", true), ("k", false), ("l", true), ("k", true)])
    (by decide +kernel)
  have hr : Reachable (Guarded (Keyed Set.univ) Step) _ d :=
    hd.mono fun _ _ _ hstep => ⟨fun _ _ _ => trivial, hstep⟩
  have hinj : Set.InjOn (hashedKey id) Set.univ := fun a _ b _ hab => by
    simpa only [hashedKey, id, ite_self] using hab
  obtain ⟨-, hdone, -⟩ := idempotent_dispatch _ _ _ _ _ hinj d hr
  exact ⟨d, hr, of_decide_eq_true hp, fun o ho => (hdone o ho).1⟩

end Dispatcher
end GoSocket
