/-
# What is left when a session is closed

`Client.closeRaw` calls `Close` once, on the transport that is current at that
moment.

Only the polling transport's `Close` takes the sid out of the manager's map.  After
an upgrade the current transport is the WebSocket, and nobody closes the polling
transport, although the comment on `Swap` asks its caller to: the entry stays for
ever (`sid_leaked`).  A session that is closed while it is polling does leave the map
(`sid_removed`), unless `closeRaw` finds the transport being closed by a POST and
returns before that POST has removed it.

`applyUpgrade` marks the session under the lock and swaps the transport after it.
When `closeRaw` comes in between it closes the polling side, and the WebSocket that is
installed afterwards is closed by nobody (`socket_left_open`), while a WebSocket that
is refused is closed.  If `Swap` comes before `closeRaw` has loaded the current
transport, the WebSocket is closed (`socket_closed`).
-/

import GoSocket.EngineIO.Upgrade

namespace GoSocket

open Lib

namespace EngineIO

/-- The request is a POST in the middle of `Close` on the connection: the flag is set and
the sid is still to be removed. -/
def Request.Removes (c : ConnRef) : Request → Prop
  | .post _ d (.closing e) => d = c ∧ e ≠ .swap
  | _ => False

instance (c : ConnRef) (r : Request) : Decidable (r.Removes c) := by
  unfold Request.Removes
  split <;> infer_instance

/-- `closeRaw` is in the middle of `Close` of the polling transport. -/
def CloserStage.Removes : CloserStage → Prop
  | .polling e => e ≠ .swap
  | _ => False

/-- A sid that is not in the map stays out of it. -/
theorem Memory.sessions_none_apply {m : Memory} {sid : String} (h : m.sessions sid = none)
    (e : Effect) : (m.apply e).sessions sid = none := by
  cases hps : (m.apply e).sessions sid with
  | none => rfl
  | some ps' =>
      obtain ⟨ps, hps, -⟩ := sessions_apply hps
      rw [h] at hps
      cases hps

namespace Machine

variable {m : Machine} {c : ConnRef}

/-- The sid of a connection. -/
def sid (m : Machine) (c : ConnRef) : String := (m.shared.conn c).polling.sid

/-- Someone is about to remove the sid of the connection. -/
def Removing (m : Machine) (c : ConnRef) : Prop :=
  (∃ n, (m.request n).Removes c) ∨ (m.closer c).Removes

/-- What `CloseRawUnraced` asks of `closeRaw` where it is. -/
def CloserUnraced (m : Machine) (c : ConnRef) : CloserStage → Prop
  | .idle => (m.shared.conn c).current = .polling
  | .polling .swap => (m.shared.conn c).polling.closed = true →
      ∀ n < m.shared.requestCount, ¬ (m.request n).Removes c
  | _ => True

instance (m : Machine) (c : ConnRef) (s : CloserStage) : Decidable (m.CloserUnraced c s) := by
  unfold CloserUnraced
  split <;> infer_instance

/-- `closeRaw` loads the current transport before an upgrade, and if it finds the polling
transport closed, no POST is still in the middle of closing it. -/
def CloseRawUnraced (m : Machine) : MachineOp → Prop
  | .run (.closer c) _ => m.CloserUnraced c (m.closer c)
  | _ => True

instance (m : Machine) (a : MachineOp) : Decidable (m.CloseRawUnraced a) := by
  unfold CloseRawUnraced
  split <;> infer_instance

/-- What is known of the map between two steps of a run of `CloseRawUnraced`. -/
structure Unlisted (m : Machine) : Prop where
  spawned : m.Spawned
  /-- A closed polling transport is not in the map, or is about to be removed. -/
  closed : ∀ c < m.shared.connCount, (m.shared.conn c).polling.closed = true →
    m.shared.sessions (m.sid c) = none ∨ m.Removing c
  done : ∀ c < m.shared.connCount, m.closer c = .done → m.shared.sessions (m.sid c) = none
  polling : ∀ c, (m.closer c).socket = none

/-- The goroutine that is about to remove the sid goes on to do it. -/
theorem removing_run {i : ThreadRef} {l : i.Local} {e : Effect}
    (hs : ThreadStep m.shared i (m.thread i) l e) (h : m.Removing c) :
    Removing (m.put i (m.shared.apply e) l) c ∨
      (m.shared.apply e).sessions (m.sid c) = none := by
  rcases h with ⟨n, hn⟩ | hc
  · by_cases hi : i = .request n
    · subst hi
      generalize hr : m.thread (.request n) = r at hs
      rw [show m.request n = r from hr] at hn
      cases hs with
      | post hs =>
          cases hs with
          | closing hs =>
              obtain ⟨rfl, he⟩ := hn
              refine Or.inl (Or.inl ⟨n, ?_⟩)
              rw [request_put_self]
              cases hs with
              | swap => exact absurd rfl he
              | closeInbox => exact ⟨rfl, by simp⟩
          | closed hs =>
              obtain ⟨rfl, he⟩ := hn
              cases hs with
              | again => exact absurd rfl he
              | remove => exact Or.inr (by simp [Memory.apply, sid])
          | _ => exact absurd hn id
      | _ => exact absurd hn id
    · refine Or.inl (Or.inl ⟨n, ?_⟩)
      rw [request_put_of_ne _ _ _ hi]
      exact hn
  · by_cases hi : i = .closer c
    · subst hi
      generalize hr : m.thread (.closer c) = s at hs
      rw [show m.closer c = s from hr] at hc
      cases hs with
      | closer hlt hs =>
          cases hs with
          | closing hs =>
              refine Or.inl (Or.inr ?_)
              rw [closer_put_self]
              cases hs with
              | swap => exact absurd rfl hc
              | closeInbox => simp [CloserStage.Removes]
          | closed hs =>
              cases hs with
              | again => exact absurd rfl hc
              | remove => exact Or.inr (by simp [Memory.apply, sid])
          | _ => exact absurd hc id
    · refine Or.inl (Or.inr ?_)
      rw [closer_put_of_ne _ _ _ hi]
      exact hc

/-- Whoever sets the flag is about to remove the sid. -/
theorem removing_close {i : ThreadRef} {l : i.Local}
    (hs : ThreadStep m.shared i (m.thread i) l (.conn c .close)) :
    Removing (m.put i (m.shared.apply (.conn c .close)) l) c := by
  obtain ⟨-, ⟨n, sid, -, -, hr⟩ | ⟨-, -, hr⟩⟩ : m.Cause i _ (.conn c .close) := cause hs
  · refine Or.inl ⟨n, ?_⟩
    rw [hr]
    exact ⟨rfl, by simp⟩
  · refine Or.inr ?_
    simp [hr, CloserStage.Removes]

namespace Unlisted

/-- Nothing is torn down at first. -/
theorem init (maxPayload : ℤ) : (Machine.init maxPayload).Unlisted where
  spawned := .init maxPayload
  closed _ hc := absurd hc (Nat.not_lt_zero _)
  done _ hc := absurd hc (Nat.not_lt_zero _)
  polling _ := rfl

variable {i : ThreadRef} {k : Choice} {l : i.Local} {e : Effect}

/-- The flag of a polling transport after a step of a goroutine. -/
theorem run_closed (h : m.Unlisted) (hs : ThreadStep m.shared i (m.thread i) l e)
    (hc : c < m.shared.connCount)
    (hclosed : ((m.shared.apply e).conn c).polling.closed = true) :
    (m.shared.apply e).sessions (m.sid c) = none ∨ Removing (m.put i (m.shared.apply e) l) c := by
  rcases Memory.closed_of_apply hclosed with hwas | rfl
  · rcases h.closed c hc hwas with hnone | hrem
    · exact Or.inl (Memory.sessions_none_apply hnone e)
    · exact (removing_run hs hrem).symm
  · exact Or.inr (removing_close hs)

/-- `closeRaw` returns, in a run of `CloseRawUnraced`. -/
theorem run_done (h : m.Unlisted) {l : CloserStage}
    (hs : ThreadStep m.shared (.closer c) (m.closer c) l e)
    (hunraced : m.CloseRawUnraced (.run (.closer c) k)) (hl : l = .done)
    (hc : c < m.shared.connCount) :
    (m.shared.apply e).sessions (m.sid c) = none := by
  have hpolling := h.polling c
  have hstage : m.CloserUnraced c (m.closer c) := hunraced
  generalize hr : m.closer c = s at hs hstage hpolling
  cases hs with
  | closer _ hs =>
      cases hs with
      | closed hs =>
          cases hs with
          | again hclosed =>
              rcases h.closed c hc hclosed with hnone | ⟨n, hn⟩ | hrem
              · exact hnone
              · -- no POST is in the middle of `Close`
                exact absurd hn (h.spawned.forall_not id (hstage hclosed) n)
              · rw [hr] at hrem
                exact absurd rfl hrem
          | remove => simp [Memory.apply, sid]
      | again => cases hpolling
      | closeRaw => cases hpolling
      | _ => cases hl

/-- A step of `CloseRawUnraced` keeps closed polling transports out of the map. -/
theorem run (h : m.Unlisted) (hs : ThreadStep m.shared i (m.thread i) l e)
    (hunraced : m.CloseRawUnraced (.run i k)) :
    Unlisted (m.put i (m.shared.apply e) l) where
  spawned := h.spawned.run hs
  closed c hc hclosed := by
    have hlt : c < m.shared.connCount := by simpa using hc
    show (m.shared.apply e).sessions ((m.shared.apply e).conn c).polling.sid = none ∨ _
    rw [Memory.apply_sid]
    exact h.run_closed hs hlt hclosed
  done c hc hdone := by
    have hlt : c < m.shared.connCount := by simpa using hc
    show (m.shared.apply e).sessions ((m.shared.apply e).conn c).polling.sid = none
    rw [Memory.apply_sid]
    by_cases hi : i = .closer c
    · subst hi
      rw [closer_put_self] at hdone
      exact h.run_done hs hunraced hdone hlt
    · rw [closer_put_of_ne _ _ _ hi] at hdone
      exact Memory.sessions_none_apply (h.done c hlt hdone) e
  polling c := by
    by_cases hi : i = .closer c
    · subst hi
      rw [closer_put_self]
      have hstage : m.CloserUnraced c (m.thread (.closer c)) := hunraced
      have hpolling : CloserStage.socket (m.thread (.closer c)) = none := h.polling c
      generalize m.thread (.closer c) = s at hs hstage hpolling
      cases hs with
      | closer _ hs =>
          cases hs with
          | websocket hcur =>
              -- it has loaded the polling transport
              rw [show (m.shared.conn c).current = .polling from hstage] at hcur
              cases hcur
          | swap => cases hpolling
          | _ => rfl
    · rw [closer_put_of_ne _ _ _ hi]
      exact h.polling c

/-- A request that starts lists no session. -/
theorem spawn (h : m.Unlisted) {r : Request} (_ : m.Starts r) : (m.spawn r).Unlisted where
  spawned := h.spawned.spawn r
  closed c hc hclosed := by
    refine (h.closed c hc hclosed).imp_right fun hrem => ?_
    rcases hrem with ⟨n, hn⟩ | hrem
    · refine Or.inl ⟨n, ?_⟩
      have hne : n ≠ m.shared.requestCount := by
        rintro rfl
        rw [h.spawned.request _ le_rfl] at hn
        exact hn
      rwa [spawn_request_of_ne _ _ hne]
    · exact Or.inr (by rwa [spawn_closer])
  done c hc hdone := h.done c hc (by rwa [spawn_closer] at hdone)
  polling c := by
    rw [spawn_closer]
    exact h.polling c

/-- A new session is listed and its connection open. -/
theorem create (h : m.Unlisted) {s : String} (hfresh : m.shared.Fresh s) :
    Unlisted { m with shared := m.shared.create s } := by
  -- the sid of a connection there was is not the new one
  have hold : ∀ c < m.shared.connCount, m.shared.sessions (m.sid c) = none →
      (m.shared.create s).sessions ((m.shared.create s).conn c).polling.sid = none := by
    intro c hc hnone
    rw [Memory.create_conn hc, Memory.create_sessions_of_ne (hfresh c hc)]
    exact hnone
  refine ⟨h.spawned.create s, fun c hc hclosed => ?_, fun c hc hdone => ?_, h.polling⟩
  · rcases Nat.lt_succ_iff_lt_or_eq.1 hc with hc | rfl
    · have hwas : (m.shared.conn c).polling.closed = true := Memory.create_conn hc ▸ hclosed
      exact (h.closed c hc hwas).imp_left (hold c hc)
    · simp [Memory.create, newConn, newPollingTransport] at hclosed
  · rcases Nat.lt_succ_iff_lt_or_eq.1 hc with hc | rfl
    · exact hold c hc (h.done c hc hdone)
    · have hidle : m.closer m.shared.connCount = .idle := h.spawned.closer _ le_rfl
      rw [show m.closer m.shared.connCount = .done from hdone] at hidle
      cases hidle

end Unlisted

/-- **A closed session leaves the map**, if it was not upgraded: in every state of a run
of `CloseRawUnraced`, the sid of a connection whose `closeRaw` has returned is not in the manager's
map. -/
theorem sid_removed (maxPayload : ℤ) (m : Machine)
    (h : Reachable (Guarded CloseRawUnraced Step) (init maxPayload) m) (c : ConnRef)
    (hc : c < m.shared.connCount) (hdone : m.closer c = .done) :
    m.shared.sessions (m.sid c) = none :=
  (invariant h (Unlisted.init maxPayload) Unlisted.create Unlisted.spawn
    Unlisted.run).done c hc hdone

/-- `closeRaw` of a session that is polling. -/
theorem sid_removed_polling :
    ∃ m, Reachable (Guarded CloseRawUnraced Step) (init 100) m ∧ m.sid 0 = "s" ∧
      m.closer 0 = .done ∧ m.shared.sessions "s" = none := by
  obtain ⟨m, hm, hp⟩ := Reachable.of_exec_guarded (G := CloseRawUnraced) step (s := init 100)
    (readySession ++ advance (.closer 0) 4)
    (p := fun m => 0 < m.shared.connCount ∧ m.sid 0 = "s" ∧ m.closer 0 = .done)
    (by decide +kernel)
  obtain ⟨hc, hsid, hdone⟩ := of_decide_eq_true hp
  exact ⟨m, hm, hsid, hdone, hsid ▸ sid_removed 100 m hm 0 hc hdone⟩

/-- **Counterexample.**  A session is upgraded and then closed: its sid stays in the map. -/
theorem sid_leaked :
    ∃ m, Reachable Step (init 100) m ∧ m.sid 0 = "s" ∧ m.closer 0 = .done ∧
      m.shared.sessions "s" = some ⟨0, true, true, true⟩ := by
  obtain ⟨m, hm, hp⟩ := Reachable.of_exec step (s := init 100)
    (readySession ++ .upgrade "s" :: advance (.request 2) 8 ++ advance (.closer 0) 3)
    (p := fun m => m.sid 0 = "s" ∧ m.closer 0 = .done ∧
      m.shared.sessions "s" = some ⟨0, true, true, true⟩)
    (by decide +kernel)
  exact ⟨m, hm, of_decide_eq_true hp⟩

/-- What `SwapsBeforeCloseRaw` asks of `closeRaw` where it is. -/
def CloserWaitsForPump (m : Machine) (c : ConnRef) : CloserStage → Prop
  | .websocket w => (m.shared.socket w).closed = true → m.pump c ≠ .closing w
  | _ => True

instance (m : Machine) (c : ConnRef) (s : CloserStage) : Decidable (m.CloserWaitsForPump c s) := by
  unfold CloserWaitsForPump
  split <;> infer_instance

/-- What `SwapsBeforeCloseRaw` asks of a request where it is. -/
def RequestSwapsFirst (m : Machine) : Request → Prop
  | .upgrade _ (.swapping c _) => m.closer c = .idle
  | _ => True

instance (m : Machine) (r : Request) : Decidable (m.RequestSwapsFirst r) := by
  unfold RequestSwapsFirst
  split <;> infer_instance

/-- `Swap` comes before `closeRaw` has loaded the current transport, and if `closeRaw` finds
the WebSocket's flag set, the read pump is not still in the middle of closing it. -/
def SwapsBeforeCloseRaw (m : Machine) : MachineOp → Prop
  | .run (.request n) _ => m.RequestSwapsFirst (m.request n)
  | .run (.closer c) _ => m.CloserWaitsForPump c (m.closer c)
  | _ => True

instance (m : Machine) (a : MachineOp) : Decidable (m.SwapsBeforeCloseRaw a) := by
  unfold SwapsBeforeCloseRaw
  split <;> infer_instance

/-- What is known of the WebSockets between two steps of a run of `SwapsBeforeCloseRaw`. -/
structure Attended (m : Machine) : Prop where
  sound : m.Sound
  /-- A WebSocket that is installed is closed, or `closeRaw` is still to come to it. -/
  installed : ∀ c < m.shared.connCount, ∀ w, (m.shared.conn c).current = .websocket w →
    (m.shared.socket w).raw.closed = true ∨ m.closer c = .idle ∨ (m.closer c).socket = some w
  /-- Whoever has set its flag goes on to close it. -/
  flagged : ∀ w, (m.shared.socket w).closed = true → (m.shared.socket w).raw.closed = true ∨
    ∃ c, m.closer c = .raw w ∨ m.pump c = .closing w

end Machine

/-- Only `Close` sets the flag of a WebSocket. -/
theorem Memory.closed_apply {m : Memory} {e : Effect} {w : SockRef}
    (h : ((m.apply e).socket w).closed = true) : (m.socket w).closed = true ∨ e = .closeEio w := by
  have hset : ∀ {v s}, (Function.update m.socket v s w).closed = true →
      s.closed = (m.socket v).closed → (m.socket w).closed = true := by
    intro v s h hs
    by_cases hw : w = v
    · subst hw
      rwa [Function.update_self, hs] at h
    · rwa [Function.update_of_ne hw] at h
  cases e with
  | send | reply | closeRaw => exact Or.inl (hset h rfl)
  | closeEio v =>
      by_cases hw : w = v
      · exact Or.inr (by rw [hw])
      · exact Or.inl (by
          simpa only [Memory.apply, Memory.setSocket, Function.update_of_ne hw] using h)
  | _ => exact Or.inl h

namespace Machine

variable {m : Machine} {c : ConnRef}

/-- A WebSocket is installed in one session only. -/
theorem Sound.installed_inj (h : m.Sound) {c d : ConnRef} {w : SockRef}
    (hc : c < m.shared.connCount) (hd : d < m.shared.connCount)
    (hcw : (m.shared.conn c).current = .websocket w)
    (hdw : (m.shared.conn d).current = .websocket w) : c = d := by
  have hpair := List.inj_on_of_nodup_map h.shared.socketOnce (h.shared.current hc hcw)
    (h.shared.current hd hdw) rfl
  exact h.shared.distinct hc hd (Prod.mk.inj hpair).1

namespace Attended

/-- No connection is on a socket at first. -/
theorem init (maxPayload : ℤ) : (Machine.init maxPayload).Attended where
  sound := sound_init maxPayload
  installed _ hc := absurd hc (Nat.not_lt_zero _)
  flagged _ h := nomatch h

/-- `closeRaw` takes a step while the WebSocket is installed. -/
theorem run_closer (h : m.Attended) {l : CloserStage} {e : Effect} {k : Choice} {w : SockRef}
    (hs : ThreadStep m.shared (.closer c) (m.closer c) l e)
    (hfirst : m.SwapsBeforeCloseRaw (.run (.closer c) k)) (hc : c < m.shared.connCount)
    (hcur : (m.shared.conn c).current = .websocket w)
    (hcloser : m.closer c = .idle ∨ (m.closer c).socket = some w) :
    ((m.shared.apply e).socket w).raw.closed = true ∨ l.socket = some w := by
  have hstage : m.CloserWaitsForPump c (m.closer c) := hfirst
  generalize hr : m.closer c = s at hs hstage hcloser
  cases hs with
  | closer _ hs =>
      cases hs with
      | polling hpolling =>
          rw [hpolling] at hcur
          cases hcur
      | websocket hcur' =>
          obtain rfl := Active.websocket.inj (hcur'.symm.trans hcur)
          exact Or.inr rfl
      | again hclosed =>
          obtain rfl := Option.some.inj (hcloser.resolve_left (by simp))
          rcases h.flagged _ hclosed with hraw | ⟨d, hd | hd⟩
          · exact Or.inl hraw
          · -- it would be `closeRaw` itself that has set the flag
            obtain ⟨hlt, hcur'⟩ := h.sound.thread (.closer d) _ (by
              rw [show m.thread (.closer d) = _ from hd]
              rfl)
            obtain rfl := h.sound.installed_inj hc hlt hcur hcur'
            rw [hr] at hd
            cases hd
          · obtain ⟨hlt, hcur'⟩ := h.sound.thread (.pump d) _ (by
              rw [show m.thread (.pump d) = _ from hd]
              rfl)
            obtain rfl := h.sound.installed_inj hc hlt hcur hcur'
            exact absurd hd (hstage hclosed)
      | swap hopen => exact Or.inr (hcloser.resolve_left (by simp))
      | closeRaw v =>
          obtain rfl := Option.some.inj (hcloser.resolve_left (by simp))
          exact Or.inl (by simp [Memory.apply, Memory.setSocket])
      | closing | closed => rcases hcloser with h | h <;> cases h

variable {i : ThreadRef} {k : Choice} {l : i.Local} {e : Effect}

/-- A step of `SwapsBeforeCloseRaw` leaves no installed WebSocket unattended. -/
theorem run (h : m.Attended) (hs : ThreadStep m.shared i (m.thread i) l e)
    (hfirst : m.SwapsBeforeCloseRaw (.run i k)) :
    Attended (m.put i (m.shared.apply e) l) where
  sound := h.sound.run hs
  installed c hc w hcur := by
    have hlt : c < m.shared.connCount := by simpa using hc
    rcases Memory.current_of_apply hcur with hold | rfl
    · rcases h.installed c hlt w hold with hraw | hcloser
      · exact Or.inl ((m.shared.grows_apply e).rawClosed w hraw)
      · by_cases hi : i = .closer c
        · subst hi
          rw [closer_put_self]
          exact (h.run_closer hs hfirst hlt hold hcloser).imp_right Or.inr
        · rw [closer_put_of_ne _ _ _ hi]
          exact Or.inr hcloser
    · obtain ⟨n, sid, rfl, hr⟩ : m.Cause i _ (.conn c (.swap w)) := cause hs
      have hidle : m.RequestSwapsFirst (m.request n) := hfirst
      rw [hr] at hidle
      rw [closer_put_of_ne _ _ _ (by simp)]
      exact Or.inr (Or.inl hidle)
  flagged w hflag := by
    rcases Memory.closed_apply hflag with hwas | rfl
    · rcases h.flagged w hwas with hraw | ⟨d, hd | hd⟩
      · exact Or.inl ((m.shared.grows_apply e).rawClosed w hraw)
      · by_cases hi : i = .closer d
        · subst hi
          rw [show m.thread (.closer d) = _ from hd] at hs
          cases hs with
          | closer _ hs =>
              cases hs
              exact Or.inl (by simp [Memory.apply, Memory.setSocket])
        · exact Or.inr ⟨d, Or.inl (by rwa [closer_put_of_ne _ _ _ hi])⟩
      · by_cases hi : i = .pump d
        · subst hi
          rw [show m.thread (.pump d) = _ from hd] at hs
          cases hs with
          | pump _ hs =>
              cases hs
              exact Or.inl (by simp [Memory.apply, Memory.setSocket])
        · exact Or.inr ⟨d, Or.inr (by rwa [pump_put_of_ne _ _ _ hi])⟩
    · rcases (cause hs : m.Cause i _ (.closeEio w)) with ⟨d, -, hd⟩ | ⟨d, -, hd⟩
      · exact Or.inr ⟨d, Or.inr hd⟩
      · exact Or.inr ⟨d, Or.inl hd⟩

/-- A request that starts swaps nothing. -/
theorem spawn (h : m.Attended) {r : Request} (hr : m.Starts r) : (m.spawn r).Attended where
  sound := h.sound.spawn hr
  installed c hc w hcur := by
    rw [spawn_closer]
    exact h.installed c hc w hcur
  flagged w hflag := by
    simp only [spawn_closer, spawn_pump]
    exact h.flagged w hflag

/-- A new connection is on its polling transport. -/
theorem create (h : m.Attended) {s : String} (hfresh : m.shared.Fresh s) :
    Attended { m with shared := m.shared.create s } where
  sound := h.sound.create hfresh
  installed c hc w hcur := by
    rcases Nat.lt_succ_iff_lt_or_eq.1 hc with hc | rfl
    · exact h.installed c hc w (Memory.create_conn hc ▸ hcur)
    · simp [Memory.create, newConn] at hcur
  flagged := h.flagged

end Attended

/-- **No socket is left open**, if `closeRaw` does not overtake `Swap`: in every state of a
run of `SwapsBeforeCloseRaw`, once the upgrade request has returned and `closeRaw` has
returned, the WebSocket the request has brought is closed; if it was refused, without
`closeRaw`. -/
theorem socket_closed (maxPayload : ℤ) (m : Machine)
    (h : Reachable (Guarded SwapsBeforeCloseRaw Step) (init maxPayload) m) (n : RequestRef)
    (sid : String) :
    (∀ c w, m.request n = .upgrade sid (.upgraded c w) → m.closer c = .done →
      (m.shared.socket w).raw.closed = true) ∧
    ∀ w, m.request n = .upgrade sid (.refused w) → (m.shared.socket w).raw.closed = true := by
  have hm := invariant h (Attended.init maxPayload) Attended.create Attended.spawn Attended.run
  have hknows : (m.request n).Ok m.shared n := hm.sound.thread (.request n)
  refine ⟨fun c w hr hdone => ?_, fun w hr => ?_⟩
  · rw [hr] at hknows
    obtain ⟨hc, -, hcur⟩ := hknows
    rcases hm.installed c hc w hcur with hraw | hidle | hsocket
    · exact hraw
    · rw [hdone] at hidle
      cases hidle
    · rw [hdone] at hsocket
      cases hsocket
  · rw [hr] at hknows
    exact hknows.2.2.2

/-- Two upgrade requests make their handshakes, one of them wins, and the session is
closed. -/
theorem socket_closed_raced :
    ∃ m, Reachable (Guarded SwapsBeforeCloseRaw Step) (init 100) m ∧
      m.request 2 = .upgrade "s" (.upgraded 0 0) ∧ m.request 3 = .upgrade "s" (.refused 1) ∧
      m.closer 0 = .done ∧ (m.shared.socket 0).raw.closed = true ∧
      (m.shared.socket 1).raw.closed = true := by
  obtain ⟨m, hm, hp⟩ := Reachable.of_exec_guarded (G := SwapsBeforeCloseRaw) step (s := init 100)
    (readySession ++ .upgrade "s" :: .upgrade "s" :: advance (.request 2) 2 ++
      advance (.request 3) 2 ++ advance (.request 2) 6 ++ advance (.request 3) 2 ++
      advance (.closer 0) 3)
    (p := fun m => m.request 2 = .upgrade "s" (.upgraded 0 0) ∧
      m.request 3 = .upgrade "s" (.refused 1) ∧ m.closer 0 = .done)
    (by decide +kernel)
  obtain ⟨hwon, hrefused, hdone⟩ := of_decide_eq_true hp
  exact ⟨m, hm, hwon, hrefused, hdone, (socket_closed 100 m hm 2 "s").1 0 0 hwon hdone,
    (socket_closed 100 m hm 3 "s").2 1 hrefused⟩

/-- **Counterexample.**  `closeRaw` comes between `applyUpgrade`'s critical section and its
`Swap`: the WebSocket that is installed then is open when both have returned. -/
theorem socket_left_open :
    ∃ m, Reachable Step (init 100) m ∧ m.request 2 = .upgrade "s" (.upgraded 0 0) ∧
      m.closer 0 = .done ∧ (m.shared.socket 0).raw.closed = false := by
  obtain ⟨m, hm, hp⟩ := Reachable.of_exec step (s := init 100)
    (readySession ++ .upgrade "s" :: advance (.request 2) 3 ++ advance (.closer 0) 4 ++
      advance (.request 2) 3)
    (p := fun m => m.request 2 = .upgrade "s" (.upgraded 0 0) ∧ m.closer 0 = .done ∧
      (m.shared.socket 0).raw.closed = false)
    (by decide +kernel)
  exact ⟨m, hm, of_decide_eq_true hp⟩

end Machine
end EngineIO
end GoSocket
