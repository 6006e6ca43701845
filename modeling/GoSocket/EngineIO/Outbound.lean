/-
# What `Write` has accepted reaches the client

A `Write` through the `sessionTransport` goes into the outbox of the polling transport,
from which polls take it, or to the WebSocket, depending on which transport was current
when it was loaded.  `Conn.Queued` says where the payloads of the first kind are: what
polls have taken, followed by what is in the outbox, in order and each once.

A session that is upgraded is not polled any more, and nobody moves what is in its
outbox over to the WebSocket: `applyUpgrade` only adds a noop, for a poll that is
waiting.  A message that is in the outbox when the session is marked, or that is put
there by a `Write` that has loaded the polling transport before `Swap`, stays there
(`message_stranded`).  If at the mark the outbox holds no message and no `Write` is on
its way there, and none sets out before `Swap`, nothing is lost: a message that is in an
outbox can still be polled (`outbound_kept`).

Sessions are not closed here; what `Close` does to them is in `Teardown`.
-/

import GoSocket.EngineIO.Teardown

namespace GoSocket

open Lib

namespace EngineIO

/-- The payloads of the messages among some wires. -/
def messages (wires : List Bytes) : List Bytes := wires.filterMap messageOf

/-- The payloads that were written to one destination. -/
def payloads (dest : Active) (writes : List (RequestRef × Active × Bytes)) : List Bytes :=
  (writes.filter fun r => r.2.1 = dest).map fun r => r.2.2

/-- The messages of two lists of wire packets. -/
@[simp] theorem messages_append (xs ys : List Bytes) :
    messages (xs ++ ys) = messages xs ++ messages ys :=
  List.filterMap_append

/-- The message of one wire packet, if it is one. -/
theorem messages_singleton (bytes : Bytes) : messages [bytes] = (messageOf bytes).toList := by
  cases h : messageOf bytes <;> simp [messages, h]

/-- The first wire and the rest. -/
theorem messages_head_tail (wires : List Bytes) :
    messages wires.head?.toList ++ messages wires.tail = messages wires := by
  rw [← messages_append]
  cases wires <;> rfl

/-- The payloads in two logs, one after the other. -/
@[simp] theorem payloads_append (dest : Active) (xs ys : List (RequestRef × Active × Bytes)) :
    payloads dest (xs ++ ys) = payloads dest xs ++ payloads dest ys := by
  simp [payloads]

/-- What a send adds to its own destination's log. -/
@[simp] theorem payloads_sentBy_self (n : RequestRef) (dest : Active) (bytes : Bytes) :
    payloads dest (sentBy n dest bytes) = (messageOf bytes).toList := by
  cases h : messageOf bytes <;> simp [payloads, sentBy, h]

/-- A send adds nothing to another destination's log. -/
theorem payloads_sentBy_of_ne {dest dest' : Active} (hne : dest' ≠ dest) (n : RequestRef)
    (bytes : Bytes) : payloads dest (sentBy n dest' bytes) = [] := by
  cases h : messageOf bytes <;> simp [payloads, sentBy, h, hne]

/-- Of the calls through the `sessionTransport` only `Write` sends a message. -/
theorem messageOf_outgoing (o : Outgoing) {data : Bytes}
    (h : messageOf (wire o.packet.type o.packet.data) = some data) : o = .write data := by
  cases o with
  | write data' => exact congrArg Outgoing.write (Option.some.inj h)
  | ping => cases h
  | sendClose => cases h

/-- A write that is sent is in the log. -/
theorem mem_sentBy_write (n : RequestRef) (dest : Active) (data : Bytes) :
    (n, dest, data) ∈ sentBy n dest (wire (Outgoing.write data).packet.type
      (Outgoing.write data).packet.data) :=
  List.mem_cons_self

/-- The payloads that have gone into an outbox are those that polls have taken and those
that are still there, in this order. -/
def Conn.Queued (s : Conn) : Prop :=
  payloads .polling s.writes = messages (s.polled.map Prod.snd) ++ messages s.polling.outbox

/-- Every effect on a connection keeps its payloads those polled and those in the outbox. -/
theorem Conn.Queued.apply {s : Conn} (h : s.Queued) (b : ConnEffect) : (s.apply b).Queued := by
  unfold Conn.Queued at h ⊢
  cases b with
  | enqueue n bytes => simp [Conn.apply, h, messages_singleton]
  | dequeue n =>
      have hpolled : (s.polled ++ s.polling.outbox.head?.toList.map fun bytes => (n, bytes)).map
          Prod.snd = s.polled.map Prod.snd ++ s.polling.outbox.head?.toList := by
        simp [Function.comp_def]
      simp only [Conn.apply]
      rw [h, hpolled, messages_append, List.append_assoc, messages_head_tail]
  | _ => exact h

namespace Memory

variable {m : Memory} {e : Effect} {c : ConnRef}

/-- Every effect keeps a connection's payloads those polled and those in the outbox. -/
theorem queued_apply (h : (m.conn c).Queued) : ((m.apply e).conn c).Queued := by
  rcases m.conn_apply e c with heq | ⟨b, -, heq⟩ | ⟨n, w, bytes, -, heq⟩
  · rwa [heq]
  · rw [heq]
    exact h.apply b
  · rw [heq]
    unfold Conn.Queued
    rw [payloads_append, payloads_sentBy_of_ne (by simp), List.append_nil]
    exact h

/-- What is recorded of the writes is continued. -/
theorem writes_apply (m : Memory) (e : Effect) (c : ConnRef) :
    (m.conn c).writes <+: ((m.apply e).conn c).writes := by
  rcases m.conn_apply e c with heq | ⟨b, -, heq⟩ | ⟨n, w, bytes, -, heq⟩
  · rw [heq]
  · rw [heq]
    cases b with
    | enqueue n bytes => exact List.prefix_append ..
    | _ => exact List.prefix_refl _
  · rw [heq]
    exact List.prefix_append ..

/-- What polls have taken. -/
theorem polled_of_apply {n : RequestRef} {bytes : Bytes}
    (h : (n, bytes) ∈ ((m.apply e).conn c).polled) :
    (n, bytes) ∈ (m.conn c).polled ∨
      (e = .conn c (.dequeue n) ∧ (m.conn c).polling.outbox.head? = some bytes) := by
  rcases of_apply (P := fun s => (n, bytes) ∈ s.polled) (fun _ _ => id) h with
    hwas | ⟨b, rfl, hb⟩
  · exact Or.inl hwas
  · cases b with
    | dequeue n' =>
        rcases List.mem_append.1 hb with hwas | hnew
        · exact Or.inl hwas
        · obtain ⟨bytes', hhead, heq⟩ := List.mem_map.1 hnew
          obtain ⟨rfl, rfl⟩ := Prod.mk.inj heq
          exact Or.inr ⟨rfl, Option.mem_toList.1 hhead⟩
    | _ => exact Or.inl hb

/-- Only an enqueued message puts a message into an outbox. -/
theorem messages_apply (h : messages (m.conn c).polling.outbox = []) :
    messages ((m.apply e).conn c).polling.outbox = [] ∨
      ∃ n bytes data, e = .conn c (.enqueue n bytes) ∧ messageOf bytes = some data := by
  rcases m.conn_apply e c with heq | ⟨b, rfl, heq⟩ | ⟨n, w, bytes, -, heq⟩
  · exact Or.inl (heq ▸ h)
  · cases b with
    | enqueue n bytes =>
        cases hbytes : messageOf bytes with
        | none => exact Or.inl (by simp [heq, Conn.apply, h, messages_singleton, hbytes])
        | some data => exact Or.inr ⟨n, bytes, data, rfl, hbytes⟩
    | dequeue n =>
        rw [← messages_head_tail, List.append_eq_nil_iff] at h
        exact Or.inl (by rw [heq]; exact h.2)
    | _ => exact Or.inl (by rw [heq]; exact h)
  · exact Or.inl (by rw [heq]; exact h)

/-- The payloads written to a WebSocket are among the messages on its wire, in order. -/
def Sent (m : Memory) : Prop :=
  ∀ c w, (payloads (.websocket w) (m.conn c).writes).Sublist (messages (m.socket w).raw.written)

/-- A socket's written bytes only grow. -/
theorem written_apply (m : Memory) (e : Effect) (w : SockRef) :
    (m.socket w).raw.written <+: ((m.apply e).socket w).raw.written := by
  have hset : ∀ {v s}, (m.socket v).raw.written <+: s.raw.written →
      (m.socket w).raw.written <+: (Function.update m.socket v s w).raw.written := by
    intro v s hs
    by_cases hw : w = v
    · subst hw
      rwa [Function.update_self]
    · rw [Function.update_of_ne hw]
  cases e with
  | send | reply => exact hset (List.prefix_append ..)
  | closeEio | closeRaw => exact hset (List.prefix_refl _)
  | _ => exact List.prefix_refl _

/-- Every effect keeps the log of socket writes in step with what the sockets were given. -/
theorem Sent.apply (h : m.Sent) (e : Effect) : (m.apply e).Sent := by
  intro c w
  rcases m.conn_apply e c with heq | ⟨b, rfl, heq⟩ | ⟨n, v, bytes, rfl, heq⟩
  · rw [heq]
    exact (h c w).trans ((m.written_apply e w).sublist.filterMap _)
  · rw [heq]
    cases b with
    | enqueue n bytes =>
        simp only [Conn.apply, payloads_append]
        rw [payloads_sentBy_of_ne (by simp), List.append_nil]
        exact h c w
    | _ => exact h c w
  · rw [heq, payloads_append]
    by_cases hw : w = v
    · subst hw
      have hwritten : ((m.apply (.send n c w bytes)).socket w).raw.written =
          (m.socket w).raw.written ++ [bytes] := by
        simp [Memory.apply, setSocket]
      rw [payloads_sentBy_self, hwritten, messages_append, messages_singleton]
      exact (h c w).append (List.Sublist.refl _)
    · rw [payloads_sentBy_of_ne (by simpa using Ne.symm hw), List.append_nil]
      exact (h c w).trans ((m.written_apply _ w).sublist.filterMap _)

/-- A session is taken out of the map only by `remove`. -/
theorem sessions_none_of_apply {sid : String} (h : (m.apply e).sessions sid = none) :
    m.sessions sid = none ∨ e = .remove sid := by
  have hmodify : ∀ {sid' f}, (m.modifySession sid' f).sessions sid = none →
      m.sessions sid = none := by
    intro sid' f h
    by_cases hsid : sid = sid'
    · subst hsid
      simpa [modifySession] using h
    · simpa [modifySession, Function.update_of_ne hsid] using h
  cases e with
  | markProbed | markUpgrade => exact Or.inl (hmodify h)
  | mark => exact Or.inl (hmodify h)
  | remove sid' =>
      by_cases hsid : sid = sid'
      · exact Or.inr (by rw [hsid])
      · exact Or.inl (by simpa [Memory.apply, Function.update_of_ne hsid] using h)
  | _ => exact Or.inl h

end Memory

/-- The wires a poll has taken, which go into its body. -/
def GetStage.wires : GetStage → List Bytes
  | .collecting wires => wires
  | .done (.batch wires) => wires
  | _ => []

/-- The request is a `Write` to the connection that has loaded the polling transport and has
not put its message into the outbox. -/
def Request.Writes (c : ConnRef) : Request → Prop
  | .send d (.write _) .polling => d = c
  | .send d (.write _) (.enqueuing .check) => d = c
  | .send d (.write _) (.enqueuing .send) => d = c
  | _ => False

instance (c : ConnRef) (r : Request) : Decidable (r.Writes c) := by
  unfold Request.Writes
  split <;> infer_instance

/-- The request is a poll of the connection that has not returned. -/
def Request.Polls (c : ConnRef) : Request → Prop
  | .get _ (.done _) => False
  | .get d _ => d = c
  | _ => False

instance (c : ConnRef) (r : Request) : Decidable (r.Polls c) := by
  unfold Request.Polls
  split <;> infer_instance

/-- A `Write` that has put its message somewhere is recorded. -/
def Request.Recorded (m : Memory) (n : RequestRef) : Request → Prop
  | .send c (.write data) (.enqueuing .signal) => ∃ dest, (n, dest, data) ∈ (m.conn c).writes
  | .send c (.write data) (.done true) => ∃ dest, (n, dest, data) ∈ (m.conn c).writes
  | _ => True

namespace Machine

variable {m : Machine} {c : ConnRef}

/-- The outbox holds no message and no `Write` is on its way there. -/
def Drained (m : Machine) (c : ConnRef) : Prop :=
  messages (m.shared.conn c).polling.outbox = [] ∧
    ∀ n < m.shared.requestCount, ¬ (m.request n).Writes c

instance (m : Machine) (c : ConnRef) : Decidable (m.Drained c) :=
  inferInstanceAs (Decidable (_ ∧ _))

/-- What `Flushed` asks of a request where it is. -/
def FlushedRequest (m : Machine) : Request → Prop
  | .post _ _ (.closing _) => False
  | .upgrade sid (.applying _) => m.shared.readyForUpgrade sid = true →
      ∀ c < m.shared.connCount, m.sid c = sid → m.Drained c
  | .send c (.write _) .loading => (m.shared.conn c).current = .polling →
      m.sid c ∉ m.shared.won.map Prod.fst
  | _ => True

instance (m : Machine) (r : Request) : Decidable (m.FlushedRequest r) := by
  induction r using Request.casesOn with
  | post _ _ s =>
      induction s using PostStage.casesOn <;> dsimp only [FlushedRequest] <;> infer_instance
  | upgrade _ s =>
      induction s using UpgradeStage.casesOn <;> dsimp only [FlushedRequest] <;> infer_instance
  | send _ o s =>
      induction o using Outgoing.casesOn <;> induction s using SendStage.casesOn <;>
        dsimp only [FlushedRequest] <;> infer_instance
  | _ => dsimp only [FlushedRequest]; infer_instance

/-- `applyUpgrade` marks a session when its outbox holds no message and no `Write` is on its
way there; no `Write` loads the polling transport of a marked session; and nobody closes a
session. -/
def Flushed (m : Machine) : MachineOp → Prop
  | .run (.request n) _ => m.FlushedRequest (m.request n)
  | .run (.closer _) _ => False
  | _ => True

instance (m : Machine) (a : MachineOp) : Decidable (m.Flushed a) := by
  induction a using MachineOp.casesOn with
  | run i => induction i using ThreadRef.casesOn <;> dsimp only [Flushed] <;> infer_instance
  | _ => dsimp only [Flushed]; infer_instance

section run

variable {i : ThreadRef} {l : i.Local} {e : Effect} {n : RequestRef}

/-- A `Write` sets out for an outbox by loading the polling transport. -/
theorem writes_of_run (hs : ThreadStep m.shared i (m.thread i) l e)
    (h : (request (m.put i (m.shared.apply e) l) n).Writes c) :
    (m.request n).Writes c ∨
      (i = .request n ∧ e = .nothing ∧ (m.shared.conn c).current = .polling ∧
        ∃ data, m.request n = .send c (.write data) .loading) := by
  rcases of_put_request hs h with hwas | ⟨r', hi, hreq, hr'⟩
  · exact Or.inl hwas
  · generalize m.request n = r at hreq
    cases hreq with
    | @send _ d o _ _ _ hs =>
        cases o with
        | write data =>
            cases hs with
            | polling hcur =>
                obtain rfl : d = c := hr'
                exact Or.inr ⟨hi, rfl, hcur, data, rfl⟩
            | checked => exact Or.inl hr'
            | enqueuing hs =>
                cases hs with
                | checked => exact Or.inl hr'
                | sent => exact absurd hr' id
            | _ => exact absurd hr' id
        | ping => exact absurd hr' id
        | sendClose => exact absurd hr' id
    | _ => exact absurd hr' id

end run

end Machine

/-- A recorded send stays recorded while the log only grows. -/
theorem Request.Recorded.mono {m m' : Memory} {n : RequestRef} {r : Request} (h : r.Recorded m n)
    (hwrites : ∀ c o s, r = .send c o s → (m.conn c).writes ⊆ (m'.conn c).writes) :
    r.Recorded m' n := by
  cases r with
  | send c o s =>
      have hsub := hwrites c o s rfl
      cases o with
      | write data =>
          have hkept : (∃ dest, (n, dest, data) ∈ (m.conn c).writes) →
              ∃ dest, (n, dest, data) ∈ (m'.conn c).writes := fun ⟨dest, hmem⟩ =>
            ⟨dest, hsub hmem⟩
          cases s with
          | enqueuing e =>
              cases e with
              | signal => exact hkept h
              | _ => trivial
          | done ok =>
              cases ok with
              | true => exact hkept h
              | false => trivial
          | _ => trivial
      | _ => trivial
  | _ => trivial

/-- A `Write` is recorded by the step that puts its message somewhere. -/
theorem SendStep.recorded {m : Memory} {n : RequestRef} {c : ConnRef} {o : Outgoing}
    {s s' : SendStage} {e : Effect} (h : SendStep m n c o s s' e)
    (hok : (Request.send c o s).Recorded m n) : (Request.send c o s').Recorded (m.apply e) n := by
  cases o with
  | write data =>
      cases h with
      | enqueuing hs =>
          cases hs with
          | checked => trivial
          | sent =>
              refine ⟨.polling, ?_⟩
              rw [Memory.apply_conn_self]
              exact List.mem_append_right _ (mem_sentBy_write n _ data)
      | enqueued r hs =>
          cases hs with
          | eof => trivial
          | full => trivial
          | signal =>
              obtain ⟨dest, hmem⟩ := hok
              exact ⟨dest, (m.writes_apply _ c).subset hmem⟩
      | sent w =>
          refine ⟨.websocket w, ?_⟩
          rw [Memory.apply_send_conn]
          exact List.mem_append_right _ (mem_sentBy_write n _ data)
      | _ => trivial
  | ping => trivial
  | sendClose => trivial

/-- A poll keeps what it has taken. -/
theorem GetStep.wires {m : Memory} {n : RequestRef} {c : ConnRef} {s s' : GetStage} {e : Effect}
    (h : GetStep m n c s s' e) : s.wires <+: s'.wires := by
  cases h with
  | collect => exact List.prefix_append ..
  | batch => exact List.prefix_refl _
  | _ => exact List.nil_prefix

/-- A poll takes the first wire of the outbox. -/
theorem GetStep.dequeue {m : Memory} {n n' : RequestRef} {c : ConnRef} {s s' : GetStage}
    {bytes : Bytes} (h : GetStep m n c s s' (.conn c (.dequeue n')))
    (hhead : (m.conn c).polling.outbox.head? = some bytes) : bytes ∈ s'.wires := by
  have hbytes : ∀ {bytes' rest}, (m.conn c).polling.outbox = bytes' :: rest → bytes = bytes' := by
    intro bytes' rest hout
    rw [hout] at hhead
    exact (Option.some.inj hhead).symm
  cases h with
  | take hout | takeWoken hout =>
      rw [hbytes hout]
      exact List.mem_singleton_self _
  | collect hout =>
      rw [hbytes hout]
      exact List.mem_append_right _ (List.mem_singleton_self _)

namespace Machine

variable {m : Machine} {c : ConnRef}

/-- What is known of the outboxes between two steps of a run of `Flushed`. -/
structure Kept (m : Machine) : Prop where
  sound : m.Sound
  spawned : m.Spawned
  queued : ∀ c, (m.shared.conn c).Queued
  sent : m.shared.Sent
  recorded : ∀ n, (m.request n).Recorded m.shared n
  taken : ∀ c n bytes, (n, bytes) ∈ (m.shared.conn c).polled →
    ∃ s, m.request n = .get c s ∧ bytes ∈ s.wires
  /-- A session that was not marked can be polled. -/
  polls : ∀ c < m.shared.connCount, m.sid c ∉ m.shared.won.map Prod.fst →
    m.shared.getPolling (m.sid c) = some c
  /-- A session that was marked has no message in its outbox, and none on its way there. -/
  marked : ∀ c < m.shared.connCount, m.sid c ∈ m.shared.won.map Prod.fst →
    messages (m.shared.conn c).polling.outbox = [] ∧ ∀ n, ¬ (m.request n).Writes c

namespace Kept

/-- Nothing is written or polled at first. -/
theorem init (maxPayload : ℤ) : (Machine.init maxPayload).Kept where
  sound := sound_init maxPayload
  spawned := .init maxPayload
  queued _ := rfl
  sent _ _ := List.Sublist.refl _
  recorded _ := trivial
  taken _ _ _ h := absurd h List.not_mem_nil
  polls _ hc := absurd hc (Nat.not_lt_zero _)
  marked _ hc := absurd hc (Nat.not_lt_zero _)

variable {i : ThreadRef} {k : Choice} {l : i.Local} {e : Effect}

/-- A step keeps every finished send in the log. -/
theorem run_recorded (h : m.Kept) (hs : ThreadStep m.shared i (m.thread i) l e) (n : RequestRef) :
    (request (m.put i (m.shared.apply e) l) n).Recorded (m.shared.apply e) n := by
  have hok : (m.request n).Recorded m.shared n := h.recorded n
  refine put_request (P := fun r => r.Recorded (m.shared.apply e) n) hs
    (hok.mono fun c _ _ _ => (m.shared.writes_apply e c).subset) fun r _ hs => ?_
  generalize m.request n = r at hs hok
  cases hs with
  | send hs => exact hs.recorded hok
  | _ => trivial

/-- A wire that was polled is in the batch of the poll that took it. -/
theorem run_taken (h : m.Kept) (hs : ThreadStep m.shared i (m.thread i) l e) {n : RequestRef}
    {bytes : Bytes} (hpolled : (n, bytes) ∈ ((m.shared.apply e).conn c).polled) :
    ∃ s, request (m.put i (m.shared.apply e) l) n = .get c s ∧ bytes ∈ s.wires := by
  rcases Memory.polled_of_apply hpolled with hwas | ⟨rfl, hhead⟩
  · obtain ⟨s, hr, hmem⟩ := h.taken c n bytes hwas
    refine put_request (P := fun r => ∃ s, r = .get c s ∧ bytes ∈ s.wires) hs ⟨s, hr, hmem⟩
      fun r _ hs => ?_
    rw [hr] at hs
    cases hs with
    | get hs => exact ⟨_, rfl, hs.wires.subset hmem⟩
  · obtain ⟨rfl, s, hr⟩ : m.Cause i _ (.conn c (.dequeue n)) := cause hs
    rw [request_put_self]
    rw [show m.thread (.request n) = _ from hr] at hs
    cases hs with
    | get hs => exact ⟨_, rfl, hs.dequeue hhead⟩

/-- An outbox without messages, with none on its way there, stays so. -/
theorem outbox_run (hs : ThreadStep m.shared i (m.thread i) l e)
    (hout : messages (m.shared.conn c).polling.outbox = [])
    (hno : ∀ n, ¬ (m.request n).Writes c) :
    messages ((m.shared.apply e).conn c).polling.outbox = [] := by
  rcases Memory.messages_apply (e := e) hout with hout | ⟨n, bytes, data, rfl, hdata⟩
  · exact hout
  · obtain ⟨rfl, ⟨sid, pong, rest, -, rfl⟩ | ⟨sid, w, -, rfl⟩ | ⟨o, hr, rfl⟩⟩ :
      m.Cause i _ (.conn c (.enqueue n bytes)) := cause hs
    · cases hdata
    · cases hdata
    · obtain rfl := messageOf_outgoing o hdata
      refine absurd ?_ (hno n)
      rw [hr]
      rfl

/-- `Flushed`, at the moment a session is marked. -/
theorem flushed_mark (h : m.Kept) {w : SockRef}
    (hs : ThreadStep m.shared i (m.thread i) l (.mark (m.sid c) w))
    (hflushed : m.Flushed (.run i k)) (hc : c < m.shared.connCount) :
    messages (m.shared.conn c).polling.outbox = [] ∧ ∀ n, ¬ (m.request n).Writes c := by
  obtain ⟨hready, n, rfl, hr⟩ : m.Cause i _ (.mark (m.sid c) w) := cause hs
  have hreq : m.FlushedRequest (m.request n) := hflushed
  rw [hr] at hreq
  obtain ⟨hout, hno⟩ := hreq hready c hc rfl
  exact ⟨hout, h.spawned.forall_not id hno⟩

/-- After a step of `Flushed` a marked session has no message in its outbox, and none on its way
there. -/
theorem run_marked (h : m.Kept) (hs : ThreadStep m.shared i (m.thread i) l e)
    (hflushed : m.Flushed (.run i k)) (hc : c < m.shared.connCount)
    (hmem : m.sid c ∈ (m.shared.apply e).won.map Prod.fst) :
    messages ((m.shared.apply e).conn c).polling.outbox = [] ∧
      ∀ n, ¬ (request (m.put i (m.shared.apply e) l) n).Writes c := by
  have hbefore : (messages (m.shared.conn c).polling.outbox = [] ∧
      ∀ n, ¬ (m.request n).Writes c) ∧ (e = .nothing → m.sid c ∈ m.shared.won.map Prod.fst) := by
    rcases m.shared.won_apply e with heq | ⟨sid, w, rfl, heq⟩
    · rw [heq] at hmem
      exact ⟨h.marked c hc hmem, fun _ => hmem⟩
    · refine ⟨?_, fun he => nomatch he⟩
      rw [heq, List.map_append, List.mem_append, List.map_singleton, List.mem_singleton] at hmem
      rcases hmem with hmem | rfl
      · exact h.marked c hc hmem
      · exact h.flushed_mark hs hflushed hc
  obtain ⟨⟨hout, hno⟩, hmarked⟩ := hbefore
  refine ⟨outbox_run hs hout hno, fun n hn => ?_⟩
  rcases writes_of_run hs hn with hn | ⟨rfl, he, hcur, data, hr⟩
  · exact hno n hn
  · -- a `Write` does not load the polling transport of a marked session
    have hreq : m.FlushedRequest (m.request n) := hflushed
    rw [hr] at hreq
    exact hreq hcur (hmarked he)

/-- After a step of `Flushed` a session that is not marked can be polled. -/
theorem run_polls (h : m.Kept) (hs : ThreadStep m.shared i (m.thread i) l e)
    (hflushed : m.Flushed (.run i k)) (hc : c < m.shared.connCount)
    (hno : m.sid c ∉ (m.shared.apply e).won.map Prod.fst) :
    (m.shared.apply e).getPolling (m.sid c) = some c := by
  have hwas : m.sid c ∉ m.shared.won.map Prod.fst := fun hmem =>
    hno (List.map_subset _ (m.shared.grows_apply e).won.subset hmem)
  obtain ⟨ps, hps, hup, rfl⟩ := getPolling_session (h.polls c hc hwas)
  cases hps' : (m.shared.apply e).sessions (m.sid ps.conn) with
  | none =>
      rcases Memory.sessions_none_of_apply hps' with hnone | rfl
      · rw [hps] at hnone
        cases hnone
      · -- nobody closes a session
        rcases (cause hs : m.Cause i _ (.remove _)) with ⟨n, sid, d, rfl, hr⟩ | ⟨d, rfl, -⟩
        · have hreq : m.FlushedRequest (m.request n) := hflushed
          rw [hr] at hreq
          exact absurd hreq id
        · exact absurd hflushed id
  | some ps' =>
      obtain ⟨ps₀, hps₀, hconn, -, -, heq | ⟨w, rfl, -⟩⟩ := Memory.sessions_apply hps'
      · obtain rfl := Option.some.inj (hps₀.symm.trans hps)
        simp [Memory.getPolling, hps', heq, hup, hconn]
      · refine absurd ?_ hno
        simp [Memory.apply]

/-- A step of `Flushed` keeps what is known of the outboxes. -/
theorem run (h : m.Kept) (hs : ThreadStep m.shared i (m.thread i) l e)
    (hflushed : m.Flushed (.run i k)) : Kept (m.put i (m.shared.apply e) l) := by
  have hsid : ∀ c, sid (m.put i (m.shared.apply e) l) c = m.sid c := fun c => Memory.apply_sid c
  refine ⟨h.sound.run hs, h.spawned.run hs, fun c => Memory.queued_apply (h.queued c),
    h.sent.apply e, h.run_recorded hs, fun c n bytes => h.run_taken hs, fun c hc hno => ?_,
    fun c hc hmem => ?_⟩
  · rw [hsid] at hno ⊢
    exact h.run_polls hs hflushed (by simpa using hc) hno
  · rw [hsid] at hmem
    exact h.run_marked hs hflushed (by simpa using hc) hmem

/-- A request that starts has written and polled nothing. -/
theorem spawn (h : m.Kept) {r : Request} (hr : m.Starts r) : (m.spawn r).Kept where
  sound := h.sound.spawn hr
  spawned := h.spawned.spawn r
  queued := h.queued
  sent := h.sent
  recorded n := by
    by_cases hn : n = m.shared.requestCount
    · subst hn
      rw [spawn_request_self]
      cases hr with
      | send o _ => cases o <;> trivial
      | _ => trivial
    · rw [spawn_request_of_ne _ _ hn]
      exact (h.recorded n).mono fun _ _ _ _ => List.Subset.refl _
  taken c n bytes hpolled := by
    obtain ⟨s, hs, hmem⟩ := h.taken c n bytes hpolled
    have hlt := h.spawned.lt (n := n) (by rw [hs]; simp)
    exact ⟨s, by rwa [spawn_request_of_ne _ _ hlt.ne], hmem⟩
  polls := h.polls
  marked c hc hmem := by
    have hnew : ¬ r.Writes c := by
      cases hr with
      | send o _ => cases o <;> exact id
      | _ => exact id
    obtain ⟨hout, hno⟩ := h.marked c hc hmem
    exact ⟨hout, fun n hn => hno n (of_spawn m hnew hn)⟩

/-- A new connection has an empty outbox, and can be polled. -/
theorem create (h : m.Kept) {s : String} (hfresh : m.shared.Fresh s) :
    Kept { m with shared := m.shared.create s } where
  sound := h.sound.create hfresh
  spawned := h.spawned.create s
  queued c := by
    rcases m.shared.create_conn_cases s c with heq | ⟨-, heq⟩ <;> rw [heq]
    · exact h.queued c
    · rfl
  sent c w := by
    rcases m.shared.create_conn_cases s c with heq | ⟨-, heq⟩ <;> rw [heq]
    · exact h.sent c w
    · exact List.nil_sublist _
  recorded n := by
    refine (h.recorded n).mono fun c o st hr => ?_
    have hlt : Request.Ok m.shared n (.send c o st) := hr ▸ h.sound.thread (.request n)
    rw [Memory.create_conn hlt]
    exact List.Subset.refl _
  taken c n bytes hpolled := by
    rcases m.shared.create_conn_cases s c with heq | ⟨-, heq⟩ <;> rw [heq] at hpolled
    · exact h.taken c n bytes hpolled
    · exact absurd hpolled List.not_mem_nil
  polls c hc hno := by
    rcases Nat.lt_succ_iff_lt_or_eq.1 hc with hlt | rfl
    · rw [sid, Memory.create_conn hlt] at hno ⊢
      have hsession : (m.shared.create s).sessions (m.sid c) = m.shared.sessions (m.sid c) :=
        Memory.create_sessions_of_ne (hfresh c hlt)
      have hpolls := h.polls c hlt hno
      unfold Memory.getPolling at hpolls ⊢
      rwa [show (m.shared.create s).sessions (m.shared.conn c).polling.sid = _ from hsession]
    · simp [Memory.getPolling, Memory.create, sid, newConn, newPollingTransport]
  marked c hc hmem := by
    rcases Nat.lt_succ_iff_lt_or_eq.1 hc with hlt | rfl
    · rw [sid, Memory.create_conn hlt] at hmem
      rw [Memory.create_conn hlt]
      exact h.marked c hlt hmem
    · -- no session has had the new sid
      obtain ⟨⟨s', w⟩, hwon, heq⟩ := List.mem_map.1 hmem
      obtain ⟨-, ⟨d, hd, hsid⟩, -⟩ := h.sound.shared.won hwon
      refine absurd ?_ (hfresh d hd)
      rw [hsid]
      simpa [sid, Memory.create, newConn, newPollingTransport] using heq

end Kept

/-- **No message is lost by an upgrade**, in a run of `Flushed`.  In every state of it a
`Write` that has returned without an error is recorded with its destination, and for every
connection:

* the payloads that went to the polling side are those polls have taken, followed by those
  in the outbox, and what a poll has taken is in its body;
* the payloads that went to a WebSocket are on its wire;
* if a message is in the outbox, the session can be polled, and there is none after a
  successful upgrade. -/
theorem outbound_kept (maxPayload : ℤ) (m : Machine)
    (h : Reachable (Guarded Flushed Step) (init maxPayload) m) :
    (∀ n c data, m.request n = .send c (.write data) (.done true) →
      ∃ dest, (n, dest, data) ∈ (m.shared.conn c).writes) ∧
    ∀ c < m.shared.connCount,
      payloads .polling (m.shared.conn c).writes =
        messages ((m.shared.conn c).polled.map Prod.snd) ++
          messages (m.shared.conn c).polling.outbox ∧
      (∀ n bytes, (n, bytes) ∈ (m.shared.conn c).polled →
        ∃ s, m.request n = .get c s ∧ bytes ∈ s.wires) ∧
      (∀ w, (payloads (.websocket w) (m.shared.conn c).writes).Sublist
        (messages (m.shared.socket w).raw.written)) ∧
      (messages (m.shared.conn c).polling.outbox ≠ [] →
        m.shared.getPolling (m.sid c) = some c) ∧
      ∀ n sid w, m.request n = .upgrade sid (.upgraded c w) →
        messages (m.shared.conn c).polling.outbox = [] := by
  have hm := invariant h (Kept.init maxPayload) Kept.create Kept.spawn Kept.run
  refine ⟨fun n c data hr => ?_, fun c hc => ⟨hm.queued c, hm.taken c, hm.sent c, fun hout => ?_,
    fun n sid w hr => ?_⟩⟩
  · have hrecorded := hm.recorded n
    rw [hr] at hrecorded
    exact hrecorded
  · exact hm.polls c hc fun hmem => hout (hm.marked c hc hmem).1
  · have hknows : (m.request n).Ok m.shared n := hm.sound.thread (.request n)
    rw [hr] at hknows
    obtain ⟨hlt, -, hcur⟩ := hknows
    exact (hm.marked c hlt (List.mem_map_of_mem (hm.sound.shared.current hlt hcur))).1

/-- A message is polled, the session is upgraded, and the next message goes to the
WebSocket. -/
theorem outbound_kept_upgraded :
    ∃ m, Reachable (Guarded Flushed Step) (init 100) m ∧
      m.request 4 = .upgrade "s" (.upgraded 0 0) ∧
      m.request 5 = .send 0 (.write (ascii "n")) (.done true) ∧
      (∃ dest, (5, dest, ascii "n") ∈ (m.shared.conn 0).writes) ∧
      messages (m.shared.conn 0).polling.outbox = [] := by
  obtain ⟨m, hm, hp⟩ := Reachable.of_exec_guarded (G := Flushed) step (s := init 100)
    (readySession ++ .send 0 (.write (ascii "m")) :: advance (.request 2) 5 ++
      .get "s" :: advance (.request 3) 4 ++ .upgrade "s" :: advance (.request 4) 8 ++
      .send 0 (.write (ascii "n")) :: advance (.request 5) 3)
    (p := fun m => 0 < m.shared.connCount ∧ m.request 4 = .upgrade "s" (.upgraded 0 0) ∧
      m.request 5 = .send 0 (.write (ascii "n")) (.done true))
    (by decide +kernel)
  obtain ⟨hc, hup, hsend⟩ := of_decide_eq_true hp
  obtain ⟨hrecorded, hconn⟩ := outbound_kept 100 m hm
  exact ⟨m, hm, hup, hsend, hrecorded 5 0 _ hsend, (hconn 0 hc).2.2.2.2 4 "s" 0 hup⟩

/-- **Counterexample.**  A `Write` returns without an error while no poll is waiting, and
then the session is upgraded: the message stays in the outbox, no poll has taken it, none
is running, and the session cannot be polled. -/
theorem message_stranded :
    ∃ m, Reachable Step (init 100) m ∧
      m.request 2 = .send 0 (.write (ascii "m")) (.done true) ∧
      m.request 3 = .upgrade "s" (.upgraded 0 0) ∧
      messages (m.shared.conn 0).polling.outbox = [ascii "m"] ∧
      (m.shared.conn 0).polled = [] ∧ (m.shared.socket 0).raw.written = [] ∧
      (∀ n < m.shared.requestCount, ¬ (m.request n).Polls 0) ∧
      m.shared.getPolling "s" = none := by
  obtain ⟨m, hm, hp⟩ := Reachable.of_exec step (s := init 100)
    (readySession ++ .send 0 (.write (ascii "m")) :: advance (.request 2) 5 ++
      .upgrade "s" :: advance (.request 3) 8)
    (p := fun m => m.request 2 = .send 0 (.write (ascii "m")) (.done true) ∧
      m.request 3 = .upgrade "s" (.upgraded 0 0) ∧
      messages (m.shared.conn 0).polling.outbox = [ascii "m"] ∧
      (m.shared.conn 0).polled = [] ∧ (m.shared.socket 0).raw.written = [] ∧
      (∀ n < m.shared.requestCount, ¬ (m.request n).Polls 0) ∧
      m.shared.getPolling "s" = none)
    (by decide +kernel)
  exact ⟨m, hm, of_decide_eq_true hp⟩

end Machine
end EngineIO
end GoSocket
