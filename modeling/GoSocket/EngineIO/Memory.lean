/-
# The shared memory of the Engine.IO handler

What the goroutines of `internal/engineio_handler.go`, `poll_manager.go` and the
transports share: the manager's map of sessions, the polling transport and the
current transport of every connection `create` has made, and the WebSockets the
upgrade requests have brought.  `Effect` lists everything a goroutine does to it in
one atomic step: a critical section of the manager, one operation on a channel, an
atomic flag, a `Swap`, a raw write or close.

Some fields only record what has happened: which messages `deliverInbound` has
accepted and `Read` has returned, whether the polling side has reported its end to
the read pump, which payloads were accepted by `Write` and where they went, which
wires polls have taken, which packets POSTs have brought, and which upgrades have
succeeded.  No step reads them.

The memory only grows in the sense of `Grows`: what is closed stays closed, and
histories are continued.

`randomPollSID` is taken not to return a sid twice.
-/

import GoSocket.EngineIO.Transport
import Mathlib.Data.List.Infix
import Mathlib.Logic.Function.Basic

namespace GoSocket

open Lib

namespace EngineIO

/-- A session made by `create`: its polling transport and its `sessionTransport`. -/
abbrev ConnRef := ℕ

/-- A WebSocket returned by `Upgrade`. -/
abbrev SockRef := ℕ

/-- A request: of a client to the handler, or of the server to a `sessionTransport`. -/
abbrev RequestRef := ℕ

/-- What a `sessionTransport` has as its current transport. -/
inductive Active where
  | polling
  | websocket (w : SockRef)
  deriving DecidableEq

/-- `pollSession`. -/
structure PollSession where
  conn : ConnRef
  probed : Bool
  upgradeOK : Bool
  upgraded : Bool
  deriving DecidableEq

/-- What belongs to one session. -/
structure Conn where
  polling : PollingTransport
  current : Active
  /-- The messages `deliverInbound` has accepted. -/
  accepted : List Bytes
  /-- The messages `Read` has returned from the polling side. -/
  returned : List Bytes
  /-- The polling side has reported its end, or the upgrade, to the read pump. -/
  ended : Bool
  /-- The payloads `Write` has accepted, with where they went. -/
  writes : List (RequestRef × Active × Bytes)
  /-- The wires polls have taken. -/
  polled : List (RequestRef × Bytes)
  deriving DecidableEq

def newConn (sid : String) (maxPayload : ℤ) : Conn where
  polling := newPollingTransport sid maxPayload
  current := .polling
  accepted := []
  returned := []
  ended := false
  writes := []
  polled := []

/-- The shared memory. -/
structure Memory where
  /-- `Config.MaxPayload`. -/
  maxPayload : ℤ
  sessions : String → Option PollSession
  conn : ConnRef → Conn
  connCount : ℕ
  socket : SockRef → EioWebSocketTransport
  socketCount : ℕ
  /-- The upgrade request that has brought a WebSocket. -/
  owner : SockRef → RequestRef
  /-- How many requests there were. -/
  requestCount : ℕ
  /-- The packets POSTs have brought, by the `sid` of the request. -/
  posted : List (String × Packet)
  /-- The successful calls of `applyUpgrade`. -/
  won : List (String × SockRef)

/-- What an atomic step does to one session. -/
inductive ConnEffect where
  /-- `t.inbox <- cp`. -/
  | accept (data : Bytes)
  /-- `<-t.inbox`. -/
  | receive
  /-- `Read` returns `io.EOF`. -/
  | eof
  /-- `<-t.upgrade`: `Read` returns `errTransportUpgraded`. -/
  | upgraded
  /-- `t.outbox <- wire`, by the request `n`. -/
  | enqueue (n : RequestRef) (wire : Bytes)
  /-- `<-t.outbox`, into the body of the poll `n`. -/
  | dequeue (n : RequestRef)
  /-- `signalPoll`. -/
  | wake
  /-- `<-t.wake`. -/
  | awake
  /-- `signalUpgrade`. -/
  | signal
  /-- `t.closed.Swap(true)`. -/
  | close
  /-- `close(t.inbox)`. -/
  | closeInbox
  /-- `Swap`. -/
  | swap (w : SockRef)
  deriving DecidableEq

/-- One atomic step on the memory. -/
inductive Effect where
  | nothing
  | markProbed (sid : String)
  | markUpgrade (sid : String)
  /-- `applyUpgrade` finds the session ready and marks it. -/
  | mark (sid : String) (w : SockRef)
  | remove (sid : String)
  | conn (c : ConnRef) (e : ConnEffect)
  /-- `Upgrade` has made the next WebSocket, for the request `n`. -/
  | connect (n : RequestRef)
  /-- `raw.Write` of the request `n` on the connection `c`. -/
  | send (n : RequestRef) (c : ConnRef) (w : SockRef) (wire : Bytes)
  /-- `raw.Write` of a pong by `Read`. -/
  | reply (w : SockRef) (wire : Bytes)
  /-- `t.closed.Swap(true)` of an `eioWebSocketTransport`. -/
  | closeEio (w : SockRef)
  /-- `raw.Close`. -/
  | closeRaw (w : SockRef)
  /-- A POST comes to a packet. -/
  | post (sid : String) (p : Packet)
  deriving DecidableEq

/-- What is recorded of a wire that was sent: its payload, if it is a message. -/
def sentBy (n : RequestRef) (dest : Active) (wire : Bytes) : List (RequestRef × Active × Bytes) :=
  (messageOf wire).toList.map fun data => (n, dest, data)

def Conn.apply (s : Conn) : ConnEffect → Conn
  | .accept data =>
      { s with polling.inbox := s.polling.inbox ++ [data], accepted := s.accepted ++ [data] }
  | .receive =>
      { s with
        polling.inbox := s.polling.inbox.tail
        returned := s.returned ++ s.polling.inbox.head?.toList }
  | .eof => { s with ended := true }
  | .upgraded => { s with polling.upgrade := false, ended := true }
  | .enqueue n wire =>
      { s with
        polling.outbox := s.polling.outbox ++ [wire]
        writes := s.writes ++ sentBy n .polling wire }
  | .dequeue n =>
      { s with
        polling.outbox := s.polling.outbox.tail
        polled := s.polled ++ s.polling.outbox.head?.toList.map fun wire => (n, wire) }
  | .wake => { s with polling.wake := true }
  | .awake => { s with polling.wake := false }
  | .signal => { s with polling.upgrade := true }
  | .close => { s with polling.closed := true }
  | .closeInbox => { s with polling.inboxClosed := true }
  | .swap w => { s with current := .websocket w }

namespace Memory

/-- A handler that has just started. -/
def init (maxPayload : ℤ) : Memory where
  maxPayload := maxPayload
  sessions := fun _ => none
  conn := fun _ => newConn "" 0
  connCount := 0
  socket := fun _ => newEIOWebSocketTransport newWsTransport
  socketCount := 0
  owner := fun _ => 0
  requestCount := 0
  posted := []
  won := []

def setConn (m : Memory) (c : ConnRef) (s : Conn) : Memory :=
  { m with conn := Function.update m.conn c s }

def setSocket (m : Memory) (w : SockRef) (s : EioWebSocketTransport) : Memory :=
  { m with socket := Function.update m.socket w s }

/-- A change of the session with this sid, if it is there. -/
def modifySession (m : Memory) (sid : String) (f : PollSession → PollSession) : Memory :=
  { m with sessions := Function.update m.sessions sid ((m.sessions sid).map f) }

def apply (m : Memory) : Effect → Memory
  | .nothing => m
  | .markProbed sid => m.modifySession sid fun ps => { ps with probed := true }
  | .markUpgrade sid => m.modifySession sid fun ps => { ps with upgradeOK := true }
  | .mark sid w =>
      { m.modifySession sid fun ps => { ps with upgraded := true } with
        won := m.won ++ [(sid, w)] }
  | .remove sid => { m with sessions := Function.update m.sessions sid none }
  | .conn c e => m.setConn c ((m.conn c).apply e)
  | .connect n =>
      { m with
        socketCount := m.socketCount + 1
        owner := Function.update m.owner m.socketCount n }
  | .send n c w wire =>
      { m.setSocket w { m.socket w with raw.written := (m.socket w).raw.written ++ [wire] } with
        conn := Function.update m.conn c
          { m.conn c with writes := (m.conn c).writes ++ sentBy n (.websocket w) wire } }
  | .reply w wire =>
      m.setSocket w { m.socket w with raw.written := (m.socket w).raw.written ++ [wire] }
  | .closeEio w => m.setSocket w { m.socket w with closed := true }
  | .closeRaw w => m.setSocket w { m.socket w with raw.closed := true }
  | .post sid p => { m with posted := m.posted ++ [(sid, p)] }

/-- `create`, with the sid it draws. -/
def create (m : Memory) (sid : String) : Memory :=
  { m with
    sessions := Function.update m.sessions sid (some ⟨m.connCount, false, false, false⟩)
    conn := Function.update m.conn m.connCount (newConn sid m.maxPayload)
    connCount := m.connCount + 1 }

/-- No session has had this sid. -/
def Fresh (m : Memory) (sid : String) : Prop := ∀ c < m.connCount, (m.conn c).polling.sid ≠ sid

instance (m : Memory) (sid : String) : Decidable (m.Fresh sid) :=
  inferInstanceAs (Decidable (∀ c < m.connCount, _))

/-- `getPolling`. -/
def getPolling (m : Memory) (sid : String) : Option ConnRef :=
  match m.sessions sid with
  | some ps => if ps.upgraded then none else some ps.conn
  | none => none

/-- `readyForUpgrade`, which is also what `applyUpgrade` checks. -/
def readyForUpgrade (m : Memory) (sid : String) : Bool :=
  match m.sessions sid with
  | some ps => ps.probed && ps.upgradeOK && !ps.upgraded
  | none => false

variable {m m' : Memory} {e : Effect}

@[simp] theorem apply_connCount : (m.apply e).connCount = m.connCount := by cases e <;> rfl

/-- No effect starts a request. -/
@[simp] theorem apply_requestCount : (m.apply e).requestCount = m.requestCount := by
  cases e <;> rfl

/-- An effect on a connection, at that connection. -/
@[simp] theorem apply_conn_self (m : Memory) (c : ConnRef) (b : ConnEffect) :
    (m.apply (.conn c b)).conn c = (m.conn c).apply b :=
  Function.update_self ..

/-- A send on a socket logs its message at the connection. -/
theorem apply_send_conn (m : Memory) (n : RequestRef) (c : ConnRef) (w : SockRef) (bytes : Bytes) :
    (m.apply (.send n c w bytes)).conn c =
      { m.conn c with writes := (m.conn c).writes ++ sentBy n (.websocket w) bytes } :=
  Function.update_self ..

/-- **What an effect does to a session of the manager.** -/
theorem sessions_apply {sid : String} {ps' : PollSession}
    (h : (m.apply e).sessions sid = some ps') :
    ∃ ps, m.sessions sid = some ps ∧ ps'.conn = ps.conn ∧
      (ps'.probed = ps.probed ∨ e = .markProbed sid) ∧
      (ps'.upgradeOK = ps.upgradeOK ∨ e = .markUpgrade sid) ∧
      (ps'.upgraded = ps.upgraded ∨ ∃ w, e = .mark sid w ∧ ps'.upgraded = true) := by
  have hsame : m.sessions sid = some ps' → ∃ ps, m.sessions sid = some ps ∧ ps'.conn = ps.conn ∧
      (ps'.probed = ps.probed ∨ e = .markProbed sid) ∧
      (ps'.upgradeOK = ps.upgradeOK ∨ e = .markUpgrade sid) ∧
      (ps'.upgraded = ps.upgraded ∨ ∃ w, e = .mark sid w ∧ ps'.upgraded = true) :=
    fun heq => ⟨ps', heq, rfl, Or.inl rfl, Or.inl rfl, Or.inl rfl⟩
  -- a critical section is for one sid
  have hmodify : ∀ {sid' f}, (m.modifySession sid' f).sessions sid = some ps' →
      (sid = sid' ∧ ∃ ps, m.sessions sid = some ps ∧ ps' = f ps) ∨ m.sessions sid = some ps' := by
    intro sid' f h
    by_cases hsid : sid = sid'
    · subst hsid
      simp only [modifySession, Function.update_self, Option.map_eq_some_iff] at h
      obtain ⟨ps, hps, rfl⟩ := h
      exact Or.inl ⟨rfl, ps, hps, rfl⟩
    · exact Or.inr (by simpa only [modifySession, Function.update_of_ne hsid] using h)
  cases e with
  | markProbed sid' =>
      rcases hmodify h with ⟨rfl, ps, hps, rfl⟩ | h
      · exact ⟨ps, hps, rfl, Or.inr rfl, Or.inl rfl, Or.inl rfl⟩
      · exact hsame h
  | markUpgrade sid' =>
      rcases hmodify h with ⟨rfl, ps, hps, rfl⟩ | h
      · exact ⟨ps, hps, rfl, Or.inl rfl, Or.inr rfl, Or.inl rfl⟩
      · exact hsame h
  | mark sid' w =>
      rcases hmodify h with ⟨rfl, ps, hps, rfl⟩ | h
      · exact ⟨ps, hps, rfl, Or.inl rfl, Or.inl rfl, Or.inr ⟨w, rfl, rfl⟩⟩
      · exact hsame h
  | remove sid' =>
      by_cases hsid : sid = sid'
      · subst hsid
        simp [apply] at h
      · exact hsame (by simpa only [apply, Function.update_of_ne hsid] using h)
  | _ => exact hsame h

end Memory

/-- No effect changes the sid of a session. -/
@[simp] theorem Conn.apply_sid (s : Conn) (e : ConnEffect) :
    (s.apply e).polling.sid = s.polling.sid := by
  cases e <;> rfl

/-- The flag of a polling transport is set and never cleared. -/
theorem Conn.apply_closed (s : Conn) (e : ConnEffect) :
    (s.apply e).polling.closed = (s.polling.closed || e = .close) := by
  cases e <;> simp [Conn.apply]

namespace Memory

variable {m m' : Memory} {e : Effect}

/-- **What an effect does to a connection.** -/
theorem conn_apply (m : Memory) (e : Effect) (c : ConnRef) :
    (m.apply e).conn c = m.conn c ∨
      (∃ b, e = .conn c b ∧ (m.apply e).conn c = (m.conn c).apply b) ∨
      ∃ n w bytes, e = .send n c w bytes ∧ (m.apply e).conn c =
        { m.conn c with writes := (m.conn c).writes ++ sentBy n (.websocket w) bytes } := by
  cases e with
  | conn c' b =>
      by_cases hc : c = c'
      · subst hc
        exact Or.inr (Or.inl ⟨b, rfl, m.apply_conn_self c b⟩)
      · exact Or.inl (by simp [apply, setConn, Function.update_of_ne hc])
  | send n c' w bytes =>
      by_cases hc : c = c'
      · subst hc
        exact Or.inr (Or.inr ⟨n, w, bytes, rfl, m.apply_send_conn n c w bytes⟩)
      · exact Or.inl (by simp [apply, Function.update_of_ne hc])
  | _ => exact Or.inl rfl

/-- What holds of a connection after an effect held before, or the effect is on this
connection; a raw write only adds to what is recorded as written. -/
theorem of_apply {c : ConnRef} {P : Conn → Prop} (hwrites : ∀ s ws, P { s with writes := ws } → P s)
    (h : P ((m.apply e).conn c)) : P (m.conn c) ∨ ∃ b, e = .conn c b ∧ P ((m.conn c).apply b) := by
  rcases m.conn_apply e c with heq | ⟨b, rfl, heq⟩ | ⟨n, w, bytes, -, heq⟩
  · exact Or.inl (heq ▸ h)
  · exact Or.inr ⟨b, rfl, heq ▸ h⟩
  · rw [heq] at h
    exact Or.inl (hwrites _ _ h)

/-- Only `Close` sets the flag of a polling transport. -/
theorem closed_of_apply {c : ConnRef} (h : ((m.apply e).conn c).polling.closed = true) :
    (m.conn c).polling.closed = true ∨ e = .conn c .close := by
  rcases of_apply (P := fun s => s.polling.closed = true) (fun _ _ => id) h with
    hwas | ⟨b, rfl, hb⟩
  · exact Or.inl hwas
  · rw [Conn.apply_closed, Bool.or_eq_true, decide_eq_true_iff] at hb
    exact hb.imp_right fun hb => by rw [hb]

/-- What a raw write and the effect, if it is on this connection, keep. -/
theorem apply_of {c : ConnRef} {P : Conn → Prop} (hwrites : ∀ s ws, P s → P { s with writes := ws })
    (hconn : ∀ b, e = .conn c b → P ((m.conn c).apply b)) (h : P (m.conn c)) :
    P ((m.apply e).conn c) := by
  rcases m.conn_apply e c with heq | ⟨b, hb, heq⟩ | ⟨n, w, bytes, -, heq⟩ <;> rw [heq]
  · exact h
  · exact hconn b hb
  · exact hwrites _ _ h

/-- The flag of a polling transport is never cleared. -/
theorem closed_apply_of_closed {c : ConnRef} (h : (m.conn c).polling.closed = true) :
    ((m.apply e).conn c).polling.closed = true := by
  refine apply_of (P := fun s => s.polling.closed = true) (fun _ _ => id) (fun b _ => ?_) h
  rw [Conn.apply_closed, h, Bool.true_or]

/-- No effect changes a connection's sid. -/
@[simp] theorem apply_sid (c : ConnRef) :
    ((m.apply e).conn c).polling.sid = (m.conn c).polling.sid := by
  rcases m.conn_apply e c with heq | ⟨b, -, heq⟩ | ⟨n, w, bytes, -, heq⟩
  · rw [heq]
  · rw [heq, Conn.apply_sid]
  · rw [heq]

/-- What was there stays there: sids, flags, sockets, and the histories. -/
structure Grows (m m' : Memory) : Prop where
  connCount : m.connCount ≤ m'.connCount
  sid : ∀ c < m.connCount, (m'.conn c).polling.sid = (m.conn c).polling.sid
  socketCount : m.socketCount ≤ m'.socketCount
  owner : ∀ w < m.socketCount, m'.owner w = m.owner w
  rawClosed : ∀ w, (m.socket w).raw.closed = true → (m'.socket w).raw.closed = true
  posted : m.posted <+: m'.posted
  won : m.won <+: m'.won

/-- Writing a socket that stays closed if it was leaves every closed socket closed. -/
theorem rawClosed_setSocket {w : SockRef} {s : EioWebSocketTransport}
    (hs : (m.socket w).raw.closed = true → s.raw.closed = true) (v : SockRef)
    (h : (m.socket v).raw.closed = true) :
    (Function.update m.socket w s v).raw.closed = true := by
  by_cases hv : v = w
  · subst hv
    rw [Function.update_self]
    exact hs h
  · rwa [Function.update_of_ne hv]

/-- Every effect only adds to memory. -/
theorem grows_apply (m : Memory) (e : Effect) : m.Grows (m.apply e) where
  connCount := apply_connCount.ge
  sid c _ := apply_sid c
  socketCount := by cases e <;> first | exact le_rfl | exact Nat.le_succ _
  owner w hw := by
    cases e with
    | connect n => exact Function.update_of_ne hw.ne ..
    | _ => rfl
  rawClosed w h := by
    cases e with
    | send | reply | closeEio =>
        refine rawClosed_setSocket ?_ w h
        exact id
    | closeRaw => exact rawClosed_setSocket (fun _ => rfl) w h
    | _ => exact h
  posted := by cases e <;> first | exact List.prefix_refl _ | exact List.prefix_append ..
  won := by cases e <;> first | exact List.prefix_refl _ | exact List.prefix_append ..

/-- A new connection leaves the others as they are. -/
theorem create_conn {sid : String} {c : ConnRef} (hc : c < m.connCount) :
    (m.create sid).conn c = m.conn c :=
  Function.update_of_ne hc.ne ..

/-- Past a `create` a connection is as before or the new one. -/
theorem create_conn_cases (m : Memory) (sid : String) (c : ConnRef) :
    (m.create sid).conn c = m.conn c ∨
      (c = m.connCount ∧ (m.create sid).conn c = newConn sid m.maxPayload) := by
  by_cases hc : c = m.connCount
  · exact Or.inr ⟨hc, by simp [Memory.create, hc]⟩
  · exact Or.inl (Function.update_of_ne hc ..)

/-- A new session leaves the entries of the other sids alone. -/
theorem create_sessions_of_ne {sid sid' : String} (h : sid' ≠ sid) :
    (m.create sid).sessions sid' = m.sessions sid' :=
  Function.update_of_ne h ..

/-- A new connection only adds to memory. -/
theorem grows_create (m : Memory) (sid : String) : m.Grows (m.create sid) where
  connCount := Nat.le_succ _
  sid c hc := by rw [create_conn hc]
  socketCount := le_rfl
  owner _ _ := rfl
  rawClosed _ h := h
  posted := List.prefix_refl _
  won := List.prefix_refl _

/-- Counting a request only adds to memory. -/
theorem grows_requestCount (m : Memory) (n : ℕ) : m.Grows { m with requestCount := n } :=
  ⟨le_rfl, fun _ _ => rfl, le_rfl, fun _ _ => rfl, fun _ h => h, List.prefix_refl _,
    List.prefix_refl _⟩

end Memory
end EngineIO
end GoSocket
