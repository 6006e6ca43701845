/-
# Long polls deliver every message once and in order

A `Write` puts its wire into the outbox of the polling transport; a poll takes what it
finds there, one wire after the other, while others go on writing, and joins it to the body
of its response.  The client reads the bodies with `DecodeBatch`.

`Conn.Queued` says where the messages are: taken by polls, or in the outbox.  Here the
wires that polls have taken are put together from the bodies of the polls, one after the
other (`Polled.taken`), which needs that the polls of a session do not overlap; and a body
is read back as the packets it was made of, which needs that no payload holds a record
separator.  The payloads of pongs come from the bodies of POSTs, which were split at the
separators, so that only those of `Write` matter.

`polling_fifo` is about a session that was not upgraded; what an upgrade does to the
messages in the outbox is in `Outbound`.
-/

import GoSocket.EngineIO.Batch
import GoSocket.EngineIO.Outbound

namespace GoSocket

open Lib

namespace EngineIO

section bodies

/-- The payload of a message. -/
def Packet.message : Packet → Option Bytes
  | ⟨.message, data⟩ => some data
  | _ => none

/-- The messages a client reads in a body. -/
def bodyMessages (body : Bytes) : List Bytes :=
  match decodeBatch body with
  | .ok packets => packets.filterMap Packet.message
  | .error _ => []

/-- The body `collectBatch` makes of the wires a poll has taken. -/
def batchBody : List Bytes → Bytes
  | [] => []
  | first :: outbox => collectBatch first outbox

/-- The body `servePoll` answers with; there is none after an error. -/
def PollResult.body : PollResult → Option Bytes
  | .closed => none
  | .batch wires => some (batchBody wires)
  | .heartbeat => some (wire .ping [])
  | .nothing => some []

/-- The body of a poll, as far as it is written. -/
def GetStage.body : GetStage → Option Bytes
  | .collecting wires => some (batchBody wires)
  | .done r => r.body
  | _ => none

/-- The wires that a request, if it is a poll of the connection, has taken. -/
def Request.wires (c : ConnRef) : Request → List Bytes
  | .get d s => if d = c then s.wires else []
  | _ => []

/-- The body of a request, if it is a poll of the connection. -/
def Request.body (c : ConnRef) : Request → Option Bytes
  | .get d s => if d = c then s.body else none
  | _ => none

/-- The payload of a `Write` to the connection that has put its message into the outbox; it
returns nil, or has returned. -/
def Request.accepted (c : ConnRef) : Request → Option Bytes
  | .send d (.write data) (.enqueuing .signal) => if d = c then some data else none
  | .send d (.write data) (.done true) => if d = c then some data else none
  | _ => none

/-- The request is a call that has loaded the WebSocket of the connection. -/
def Request.OnSocket (c : ConnRef) : Request → Prop
  | .send d _ (.websocket _) => d = c
  | .send d _ (.sending _) => d = c
  | _ => False

/-- A wire that is read back when it is joined with others. -/
def CleanWire (bytes : Bytes) : Prop := ∃ p, encode p = .ok bytes ∧ recordSeparator ∉ p.data

/-- The message of a wire packet is that of the packet it decodes to. -/
theorem messageOf_of_decode {bytes : Bytes} {p : Packet} (h : decode bytes = .ok p) :
    messageOf bytes = p.message := by
  obtain ⟨type, data⟩ := p
  unfold messageOf
  rw [h]
  cases type <;> rfl

/-- Encoding a valid packet without a separator in its data gives a clean wire packet. -/
theorem cleanWire_wire {type : PacketType} {data : Bytes} (htype : type.valid = true)
    (hdata : recordSeparator ∉ data) : CleanWire (wire type data) := by
  obtain ⟨digit, hdigit⟩ := exists_digit htype
  have hencode : encode ⟨type, data⟩ = .ok (digit :: data) := encode_eq_ok.2 ⟨digit, hdigit, rfl⟩
  refine ⟨⟨type, data⟩, ?_, hdata⟩
  rw [wire, hencode]

/-- The body of a batch is its wire packets joined by the separator. -/
theorem batchBody_eq (wires : List Bytes) : batchBody wires = joinWires wires := by
  cases wires with
  | nil => rfl
  | cons first outbox => exact collectBatch_eq first outbox

/-- **A batch is read back**: packet for packet, so that its messages are those of its wires. -/
theorem decodeBatch_batchBody {wires : List Bytes} (h : ∀ bytes ∈ wires, CleanWire bytes) :
    ∃ packets, decodeBatch (batchBody wires) = .ok packets ∧ packets.length = wires.length ∧
      packets.filterMap Packet.message = messages wires := by
  have hpackets : ∃ packets, List.Forall₂ (fun p bytes => encode p = .ok bytes) packets wires ∧
      ∀ p ∈ packets, recordSeparator ∉ p.data := by
    induction wires with
    | nil => exact ⟨[], .nil, by simp⟩
    | cons bytes wires ih =>
        obtain ⟨⟨p, hencode, hsep⟩, hrest⟩ := List.forall_mem_cons.1 h
        obtain ⟨packets, hwires, hclean⟩ := ih hrest
        exact ⟨p :: packets, .cons hencode hwires, List.forall_mem_cons.2 ⟨hsep, hclean⟩⟩
  obtain ⟨packets, hwires, hclean⟩ := hpackets
  refine ⟨packets, ?_, hwires.length_eq, ?_⟩
  · rw [batchBody_eq]
    exact decodeBatch_joinWires hwires hclean
  · clear hclean h
    induction hwires with
    | nil => rfl
    | cons hencode _ ih =>
        rw [messages, List.filterMap_cons, List.filterMap_cons, ih,
          messageOf_of_decode (decode_encode hencode), messages]

/-- A body is read without an error, and its messages are those the poll has taken. -/
theorem GetStage.decodeBatch_body {s : GetStage} (h : ∀ bytes ∈ s.wires, CleanWire bytes)
    {body : Bytes} (hbody : s.body = some body) :
    ∃ packets, decodeBatch body = .ok packets ∧
      packets.filterMap Packet.message = messages s.wires := by
  cases s with
  | collecting wires =>
      obtain rfl := Option.some.inj hbody
      obtain ⟨packets, hdecode, -, hmessages⟩ := decodeBatch_batchBody h
      exact ⟨packets, hdecode, hmessages⟩
  | done r =>
      cases r with
      | batch wires =>
          obtain rfl := Option.some.inj hbody
          obtain ⟨packets, hdecode, -, hmessages⟩ := decodeBatch_batchBody h
          exact ⟨packets, hdecode, hmessages⟩
      | closed => cases hbody
      | heartbeat =>
          obtain rfl := Option.some.inj hbody
          exact ⟨[⟨.ping, []⟩], by decide +kernel, rfl⟩
      | nothing =>
          obtain rfl := Option.some.inj hbody
          exact ⟨[], by decide +kernel, rfl⟩
  | _ => cases hbody

/-- A poll without a body has taken nothing. -/
theorem GetStage.wires_of_body_none {s : GetStage} (h : s.body = none) : s.wires = [] := by
  cases s with
  | collecting wires => cases h
  | done r =>
      cases r with
      | closed => rfl
      | _ => cases h
  | _ => rfl

/-- What the client reads in the body of a poll is what the poll has taken. -/
theorem GetStage.bodyMessages_body {s : GetStage} (h : ∀ bytes ∈ s.wires, CleanWire bytes) :
    s.body.toList.flatMap bodyMessages = messages s.wires := by
  cases hbody : s.body with
  | none =>
      rw [s.wires_of_body_none hbody]
      rfl
  | some body =>
      obtain ⟨packets, hdecode, hmessages⟩ := s.decodeBatch_body h hbody
      rw [Option.toList_some, List.flatMap_singleton, bodyMessages, hdecode]
      exact hmessages

end bodies

section clean

/-- No payload of the packets that a POST still has to handle holds a separator. -/
def PostStage.Clean : PostStage → Prop
  | .packets rest => ∀ p ∈ rest, recordSeparator ∉ p.data
  | .handling p rest => ∀ q ∈ p :: rest, recordSeparator ∉ q.data
  | .replying _ data rest => recordSeparator ∉ data ∧ ∀ p ∈ rest, recordSeparator ∉ p.data
  | .delivering _ rest => ∀ p ∈ rest, recordSeparator ∉ p.data
  | .closing _ | .done _ => True

/-- A poll of the connection has taken clean wires, and a `Write` to it brings one. -/
def Request.Clean (c : ConnRef) : Request → Prop
  | .get d s => d = c → ∀ bytes ∈ s.wires, CleanWire bytes
  | .post _ _ s => s.Clean
  | .send d (.write data) _ => d = c → recordSeparator ∉ data
  | _ => True

/-- The payloads `DecodeBatch` finds were between two separators. -/
theorem clean_of_decodeBatch {body : Bytes} {packets : List Packet}
    (h : decodeBatch body = .ok packets) : ∀ p ∈ packets, recordSeparator ∉ p.data := by
  have hparts : ∀ part ∈ segments recordSeparator body, recordSeparator ∉ part := fun part hpart =>
    sep_notMem_of_mem_splitOn _ ((mem_segments _).1 hpart).1
  have hall := decodeBatch_eq_ok.1 h
  generalize segments recordSeparator body = parts at hparts hall
  clear h
  induction hall with
  | nil => simp
  | cons hdecode _ ih =>
      obtain ⟨hpart, hrest⟩ := List.forall_mem_cons.1 hparts
      obtain ⟨digit, -, rfl⟩ := encode_eq_ok.1 (encode_decode hdecode)
      exact List.forall_mem_cons.2 ⟨fun hsep => hpart (List.mem_cons_of_mem _ hsep), ih hrest⟩

/-- A POST that has just been judged holds clean packets. -/
theorem clean_servePost (maxPayload : ℤ) (body : Bytes) : (servePost maxPayload body).Clean := by
  unfold servePost
  dsimp only
  split_ifs
  · trivial
  · split
    next hdecode => exact clean_of_decodeBatch hdecode
    next => trivial

variable {m : Memory} {n : RequestRef} {c : ConnRef} {e : Effect}

/-- A step of a POST keeps its packets clean. -/
theorem PostStep.clean {sid : String} {s s' : PostStage} (h : PostStep m n sid c s s' e)
    (hs : s.Clean) : s'.Clean := by
  have htail : ∀ {p : Packet} {rest : List Packet}, (PostStage.handling p rest).Clean →
      ∀ q ∈ rest, recordSeparator ∉ q.data := fun h => (List.forall_mem_cons.1 h).2
  cases h with
  | next => exact hs
  | probe | ping => exact ⟨(List.forall_mem_cons.1 hs).1, htail hs⟩
  | probed | message | upgrade | skip => exact htail hs
  | replying => exact hs
  | replied => exact hs.2
  | accept => exact hs
  | _ => trivial

/-- The wires that go into an outbox. -/
theorem Request.Clean.enqueued {r : Request} {bytes : Bytes} (h : r.Clean c)
    (hr : (∃ sid data rest, r = .post sid c (.replying .send data rest) ∧
        bytes = wire .pong data) ∨
      (∃ sid w, r = .upgrade sid (.flushing c w .send) ∧ bytes = wire .noop []) ∨
      ∃ o, r = .send c o (.enqueuing .send) ∧ bytes = wire o.packet.type o.packet.data) :
    CleanWire bytes := by
  rcases hr with ⟨sid, data, rest, rfl, rfl⟩ | ⟨sid, w, rfl, rfl⟩ | ⟨o, rfl, rfl⟩
  · exact cleanWire_wire rfl h.1
  · exact cleanWire_wire rfl List.not_mem_nil
  · cases o with
    | write data => exact cleanWire_wire rfl (h rfl)
    | ping => exact cleanWire_wire rfl List.not_mem_nil
    | sendClose => exact cleanWire_wire rfl List.not_mem_nil

/-- What a step of a poll takes. -/
theorem GetStep.taken {s s' : GetStage} (h : GetStep m n c s s' e) :
    (s'.wires = s.wires ∧ ∀ d n', e ≠ .conn d (.dequeue n')) ∨
      ∃ bytes rest, (m.conn c).polling.outbox = bytes :: rest ∧ e = .conn c (.dequeue n) ∧
        s'.wires = s.wires ++ [bytes] := by
  cases h with
  | take hout | takeWoken hout => exact Or.inr ⟨_, _, hout, rfl, rfl⟩
  | collect hout => exact Or.inr ⟨_, _, hout, rfl, rfl⟩
  | _ => exact Or.inl ⟨rfl, by simp⟩

/-- A send on another connection is no accepted send of this one. -/
theorem Request.accepted_of_ne {d : ConnRef} (h : d ≠ c) (o : Outgoing) (s : SendStage) :
    (Request.send d o s).accepted c = none := by
  unfold Request.accepted
  split
  next heq =>
    cases heq
    exact if_neg h
  next heq =>
    cases heq
    exact if_neg h
  next => rfl

/-- A call off the WebSocket is accepted when it puts its message into the outbox. -/
theorem SendStep.accepted {o : Outgoing} {s s' : SendStage} (h : SendStep m n c o s s' e)
    (hno : ¬ (Request.send c o s).OnSocket c) :
    (Request.send c o s').accepted c = (Request.send c o s).accepted c ∨
      ∃ data, o = .write data ∧ s = .enqueuing .send ∧
        e = .conn c (.enqueue n (wire .message data)) := by
  cases o with
  | write data =>
      cases h with
      | enqueuing hs =>
          cases hs with
          | checked => exact Or.inl rfl
          | sent => exact Or.inr ⟨data, rfl, rfl, rfl⟩
      | enqueued r hs => cases hs <;> exact Or.inl rfl
      | sent w => exact absurd rfl hno
      | _ => exact Or.inl rfl
  | _ => exact Or.inl rfl

/-- The polling transport does not come back. -/
theorem Memory.polling_of_apply (h : ((m.apply e).conn c).current = .polling) :
    (m.conn c).current = .polling := by
  cases hcur : (m.conn c).current with
  | polling => rfl
  | websocket w =>
      obtain ⟨w', hw'⟩ := Memory.websocket_apply (e := e) ⟨w, hcur⟩
      rw [h] at hw'
      cases hw'

/-- Only a poll takes something out of the outbox. -/
theorem Memory.polled_apply (h : ∀ n, e ≠ .conn c (.dequeue n)) :
    ((m.apply e).conn c).polled = (m.conn c).polled := by
  rcases m.conn_apply e c with heq | ⟨b, rfl, heq⟩ | ⟨n, w, bytes, -, heq⟩ <;> rw [heq]
  cases b with
  | dequeue n => exact absurd rfl (h n)
  | _ => rfl

end clean

/-- A list that is put together in parts grows at its end when the last part does. -/
theorem flatMap_range_append {α : Type*} {f g : ℕ → List α} {n k : ℕ} {xs : List α} (hn : n < k)
    (hself : g n = f n ++ xs) (hne : ∀ i, i ≠ n → g i = f i) (hafter : ∀ i, n < i → f i = []) :
    (List.range k).flatMap g = (List.range k).flatMap f ++ xs := by
  induction k with
  | zero => exact absurd hn (Nat.not_lt_zero n)
  | succ k ih =>
      simp only [List.range_succ, List.flatMap_append, List.flatMap_singleton]
      rcases Nat.lt_succ_iff_lt_or_eq.1 hn with hlt | rfl
      · rw [ih hlt, hne k hlt.ne', hafter k hlt, List.append_nil, List.append_nil]
      · have hbefore : (List.range n).flatMap g = (List.range n).flatMap f :=
          List.flatMap_congr fun i hi => hne i (List.mem_range.1 hi).ne
        rw [hbefore, hself, List.append_assoc]

namespace Machine

variable {m : Machine} {c : ConnRef}

/-- The polls of the connection do not overlap, and no payload of a `Write` to it holds a
separator. -/
def Sequential (c : ConnRef) (m : Machine) : MachineOp → Prop
  | .get sid => m.shared.getPolling sid = some c →
      ∀ n < m.shared.requestCount, ¬ (m.request n).Polls c
  | .send d (.write data) => d = c → recordSeparator ∉ data
  | _ => True

instance (c : ConnRef) (m : Machine) (a : MachineOp) : Decidable (Sequential c m a) := by
  unfold Sequential
  split <;> infer_instance

/-- The bodies of the polls of a connection, in the order of the requests. -/
def bodies (m : Machine) (c : ConnRef) : List Bytes :=
  (List.range m.shared.requestCount).filterMap fun n => (m.request n).body c

/-- What is known of the polls of a connection between two steps of a run of
`Sequential`. -/
structure Polled (c : ConnRef) (m : Machine) : Prop where
  sound : m.Sound
  spawned : m.Spawned
  queued : (m.shared.conn c).Queued
  /-- A poll that has not returned is the last one. -/
  last : ∀ n n' s, (m.request n).Polls c → n < n' → m.request n' ≠ .get c s
  clean : ∀ n, (m.request n).Clean c
  outbox : ∀ bytes ∈ (m.shared.conn c).polling.outbox, CleanWire bytes
  taken : (m.shared.conn c).polled.map Prod.snd =
    (List.range m.shared.requestCount).flatMap fun n => (m.request n).wires c

section run

variable {i : ThreadRef} {l : i.Local} {e : Effect} {n : RequestRef}

/-- A poll that is running after a step was running before. -/
theorem polls_of_run (hs : ThreadStep m.shared i (m.thread i) l e)
    (h : (request (m.put i (m.shared.apply e) l) n).Polls c) : (m.request n).Polls c := by
  rcases of_put_request hs h with hwas | ⟨r', -, hreq, hr'⟩
  · exact hwas
  · generalize m.request n = r at hreq
    cases hreq with
    | @get _ d s s' _ hs =>
        have hd : d = c := by
          cases s' with
          | done => exact absurd hr' id
          | _ => exact hr'
        cases hs <;> exact hd
    | _ => exact absurd hr' id

/-- A request does not change its kind. -/
theorem get_of_run (hs : ThreadStep m.shared i (m.thread i) l e)
    (h : ∃ s, request (m.put i (m.shared.apply e) l) n = .get c s) :
    ∃ s, m.request n = .get c s := by
  rcases of_put_request (P := fun r => ∃ s, r = .get c s) hs h with hwas | ⟨r', -, hreq, s, rfl⟩
  · exact hwas
  · generalize m.request n = r at hreq
    cases hreq with
    | get hs => exact ⟨_, rfl⟩

end run

namespace Polled

/-- Nothing is polled at first. -/
theorem init (maxPayload : ℤ) (c : ConnRef) : (Machine.init maxPayload).Polled c where
  sound := sound_init maxPayload
  spawned := .init maxPayload
  queued := rfl
  last _ _ _ h := absurd h id
  clean _ := trivial
  outbox _ h := absurd h List.not_mem_nil
  taken := rfl

variable {i : ThreadRef} {l : i.Local} {e : Effect}

/-- A step queues only clean wire packets. -/
theorem run_outbox (h : m.Polled c) (hs : ThreadStep m.shared i (m.thread i) l e) {bytes : Bytes}
    (hmem : bytes ∈ ((m.shared.apply e).conn c).polling.outbox) : CleanWire bytes := by
  rcases Memory.of_apply (P := fun s => bytes ∈ s.polling.outbox) (fun _ _ => id) hmem with
    hwas | ⟨b, rfl, hb⟩
  · exact h.outbox bytes hwas
  · cases b with
    | enqueue n bytes' =>
        obtain ⟨rfl, hr⟩ : m.Cause i _ (.conn c (.enqueue n bytes')) := cause hs
        rcases List.mem_append.1 hb with hwas | hnew
        · exact h.outbox bytes hwas
        · rw [List.mem_singleton.1 hnew]
          exact (h.clean n).enqueued hr
    | dequeue n => exact h.outbox bytes (List.mem_of_mem_tail hb)
    | _ => exact h.outbox bytes hb

/-- A step keeps every request's packets clean. -/
theorem run_clean (h : m.Polled c) (hs : ThreadStep m.shared i (m.thread i) l e) (n : RequestRef) :
    (request (m.put i (m.shared.apply e) l) n).Clean c := by
  have hok : (m.request n).Clean c := h.clean n
  refine put_request hs hok fun r _ hs => ?_
  generalize m.request n = r at hs hok
  cases hs with
  | get hs =>
      rintro rfl
      rcases hs.taken with ⟨heq, -⟩ | ⟨bytes, rest, hout, -, heq⟩ <;> rw [heq]
      · exact hok rfl
      · refine List.forall_mem_append.2 ⟨hok rfl, List.forall_mem_singleton.2 ?_⟩
        exact h.outbox bytes (hout ▸ List.mem_cons_self)
  | post hs => exact hs.clean hok
  | @send _ d o s s' _ hs =>
      cases o with
      | write data => exact hok
      | _ => trivial
  | _ => trivial

/-- A step that takes nothing out of the outbox changes no body. -/
theorem run_wires (hs : ThreadStep m.shared i (m.thread i) l e)
    (he : ∀ n, e ≠ .conn c (.dequeue n)) (n : RequestRef) :
    (request (m.put i (m.shared.apply e) l) n).wires c = (m.request n).wires c := by
  refine put_request (P := fun r => r.wires c = (m.request n).wires c) hs rfl fun r _ hs => ?_
  generalize m.request n = r at hs ⊢
  cases hs with
  | @get _ d s s' _ hs =>
      by_cases hd : d = c
      · subst hd
        rcases hs.taken with ⟨heq, -⟩ | ⟨bytes, rest, -, rfl, -⟩
        · simp [Request.wires, heq]
        · exact absurd rfl (he n)
      · simp [Request.wires, hd]
  | _ => rfl

/-- A step keeps the polled wires those of the polls, in the order the polls came. -/
theorem run_taken (h : m.Polled c) (hs : ThreadStep m.shared i (m.thread i) l e) :
    ((m.shared.apply e).conn c).polled.map Prod.snd =
      (List.range m.shared.requestCount).flatMap fun n =>
        (request (m.put i (m.shared.apply e) l) n).wires c := by
  by_cases he : ∃ n, e = .conn c (.dequeue n)
  · obtain ⟨n, rfl⟩ := he
    obtain ⟨rfl, s, hr⟩ : m.Cause i _ (.conn c (.dequeue n)) := cause hs
    have hlt := h.spawned.lt (n := n) (by rw [hr]; simp)
    rw [show m.thread (.request n) = _ from hr] at hs
    cases hs with
    | @get _ _ _ s' _ hs =>
        -- the poll is running, so it is the last one
        have hpolls : (m.request n).Polls c := by
          rw [hr]
          cases s with
          | done r => cases hs
          | _ => rfl
        rcases hs.taken with ⟨-, hne⟩ | ⟨bytes, rest, hout, -, hwires⟩
        · exact absurd rfl (hne c n)
        · have hpolled : ((m.shared.apply (.conn c (.dequeue n))).conn c).polled.map Prod.snd =
              (m.shared.conn c).polled.map Prod.snd ++ [bytes] := by
            simp [Conn.apply, hout]
          rw [hpolled, h.taken]
          refine (flatMap_range_append hlt ?_ (fun k hk => ?_) fun k hk => ?_).symm
          · rw [request_put_self, hr]
            simp [Request.wires, hwires]
          · rw [request_put_of_ne _ _ _ (by simpa using hk.symm)]
          · cases hk' : m.request k with
            | get d s =>
                have hd : d ≠ c := fun hd => h.last n k s hpolls hk (hd ▸ hk')
                simp [Request.wires, hd]
            | _ => rfl
  · have hne : ∀ n, e ≠ .conn c (.dequeue n) := fun n hn => he ⟨n, hn⟩
    rw [Memory.polled_apply hne, h.taken]
    exact List.flatMap_congr fun n _ => (run_wires hs hne n).symm

/-- A step keeps the invariant. -/
theorem run (h : m.Polled c) (hs : ThreadStep m.shared i (m.thread i) l e) :
    Polled c (m.put i (m.shared.apply e) l) where
  sound := h.sound.run hs
  spawned := h.spawned.run hs
  queued := Memory.queued_apply h.queued
  last n n' s hpolls hlt hget := by
    obtain ⟨s', hr⟩ := get_of_run hs ⟨s, hget⟩
    exact h.last n n' s' (polls_of_run hs hpolls) hlt hr
  clean := h.run_clean hs
  outbox _ := h.run_outbox hs
  taken := by
    rw [Pool.put_shared, Memory.apply_requestCount]
    exact h.run_taken hs

/-- A new request has no body yet. -/
theorem spawn (h : m.Polled c) {a : MachineOp} {r : Request} (hr : m.Brings a r)
    (ha : m.Sequential c a) : (m.spawn r).Polled c where
  sound := h.sound.spawn hr.starts
  spawned := h.spawned.spawn r
  queued := h.queued
  last n n' s hpolls hlt hget := by
    by_cases hn' : n' = m.shared.requestCount
    · subst hn'
      rw [spawn_request_of_ne _ _ hlt.ne] at hpolls
      rw [spawn_request_self] at hget
      subst hget
      cases hr with
      | get hc => exact ha hc n hlt hpolls
    · rw [spawn_request_of_ne _ _ hn'] at hget
      have hlt' := h.spawned.lt (n := n') (by rw [hget]; simp)
      rw [spawn_request_of_ne _ _ (hlt.trans hlt').ne] at hpolls
      exact h.last n n' s hpolls hlt hget
  clean n := by
    by_cases hn : n = m.shared.requestCount
    · subst hn
      rw [spawn_request_self]
      cases hr with
      | get => exact fun _ _ hmem => absurd hmem List.not_mem_nil
      | post body _ => exact clean_servePost _ body
      | send o _ =>
          cases o with
          | write data => exact ha
          | _ => trivial
      | _ => trivial
    · rw [spawn_request_of_ne _ _ hn]
      exact h.clean n
  outbox := h.outbox
  taken := by
    have hnew : r.wires c = [] := by
      cases hr with
      | get => simp [Request.wires, GetStage.wires]
      | _ => rfl
    have hold : ∀ n ∈ List.range m.shared.requestCount,
        ((m.spawn r).request n).wires c = (m.request n).wires c := fun n hn => by
      rw [spawn_request_of_ne _ _ (List.mem_range.1 hn).ne]
    change _ = (List.range (m.shared.requestCount + 1)).flatMap _
    rw [List.range_succ, List.flatMap_append, List.flatMap_singleton, spawn_request_self, hnew,
      List.append_nil, List.flatMap_congr hold]
    exact h.taken

/-- Nobody polls a connection before it is made. -/
theorem create (h : m.Polled c) {sid : String} (hfresh : m.shared.Fresh sid) :
    Polled c { m with shared := m.shared.create sid } := by
  have hconn : (m.shared.create sid).conn c = m.shared.conn c ∨
      ((m.shared.create sid).conn c = newConn sid m.shared.maxPayload ∧
        ∀ n, (m.request n).wires c = []) := by
    refine (m.shared.create_conn_cases sid c).imp_right fun ⟨hc, heq⟩ => ⟨heq, fun n => ?_⟩
    have hok : (m.request n).Ok m.shared n := h.sound.thread (.request n)
    cases hr : m.request n with
    | get d s =>
        rw [hr] at hok
        have hd : d ≠ c := fun hd => absurd hok (by simp [Request.Ok, hd, hc])
        simp [Request.wires, hd]
    | _ => rfl
  refine ⟨h.sound.create hfresh, h.spawned.create sid, ?_, h.last, h.clean, ?_, ?_⟩
  · rcases hconn with heq | ⟨heq, -⟩ <;> rw [heq]
    · exact h.queued
    · rfl
  · rcases hconn with heq | ⟨heq, -⟩ <;> rw [heq]
    · exact h.outbox
    · exact fun _ hmem => absurd hmem List.not_mem_nil
  · rcases hconn with heq | ⟨heq, hwires⟩ <;> rw [heq]
    · exact h.taken
    · exact (List.flatMap_eq_nil_iff.2 fun n _ => hwires n).symm

/-- What is known of the polls, in every run of `Sequential`. -/
theorem of_reachable {G : Machine → MachineOp → Prop} {maxPayload : ℤ}
    (h : Reachable (Guarded G Step) (Machine.init maxPayload) m)
    (hG : ∀ m a, G m a → m.Sequential c a) : m.Polled c :=
  invariant_next h (.init maxPayload c) create (fun hm _ _ hr ha => hm.spawn hr (hG _ _ ha))
    fun hm hnext _ => hm.run (ThreadRef.took hnext)

/-- **What the client reads** in the bodies of the polls, one after the other, is what the
polls have taken. -/
theorem bodyMessages_bodies (h : m.Polled c) :
    (m.bodies c).flatMap bodyMessages = messages ((m.shared.conn c).polled.map Prod.snd) := by
  have hbody : ∀ n ∈ List.range m.shared.requestCount,
      ((m.request n).body c).toList.flatMap bodyMessages = messages ((m.request n).wires c) := by
    intro n _
    have hclean := h.clean n
    cases hr : m.request n with
    | get d s =>
        by_cases hd : d = c
        · rw [hr] at hclean
          simp only [Request.body, Request.wires, if_pos hd]
          exact GetStage.bodyMessages_body (hclean hd)
        · simp [Request.body, Request.wires, hd, messages]
    | _ => rfl
  rw [bodies, List.filterMap_eq_flatMap_toList, List.flatMap_assoc, List.flatMap_congr hbody,
    h.taken, messages, List.filterMap_flatMap]
  rfl

/-- Every body is read without an error. -/
theorem decodeBatch_bodies (h : m.Polled c) :
    ∀ body ∈ m.bodies c, ∃ packets, decodeBatch body = .ok packets := by
  intro body hmem
  obtain ⟨n, -, hbody⟩ := List.mem_filterMap.1 hmem
  have hclean := h.clean n
  cases hr : m.request n with
  | get d s =>
      rw [hr] at hclean hbody
      obtain ⟨hd, hbody⟩ := Option.ite_none_right_eq_some.1 hbody
      obtain ⟨packets, hdecode, -⟩ := GetStage.decodeBatch_body (hclean hd) hbody
      exact ⟨packets, hdecode⟩
  | _ =>
      rw [hr] at hbody
      cases hbody

end Polled

/-- The payloads that `Write` has accepted on a connection, with the calls. -/
def accepted (m : Machine) (c : ConnRef) : List (RequestRef × Bytes) :=
  (m.shared.conn c).writes.map fun r => (r.1, r.2.2)

/-- What is known of the calls of `Write` before the connection is upgraded. -/
structure Direct (c : ConnRef) (m : Machine) : Prop where
  polling : ∀ n, ¬ (m.request n).OnSocket c
  dest : ∀ r ∈ (m.shared.conn c).writes, r.2.1 = .polling
  mem : ∀ n data, (n, data) ∈ m.accepted c ↔ (m.request n).accepted c = some data
  once : ((m.accepted c).map Prod.fst).Nodup

section accepted

variable {i : ThreadRef} {l : i.Local} {e : Effect}

/-- A new connection changes no accepted send. -/
theorem accepted_create {sid : String} (hc : c < m.shared.connCount) :
    accepted { m with shared := m.shared.create sid } c = m.accepted c := by
  rw [accepted, Memory.create_conn hc, accepted]

/-- A call is on a connection that was made. -/
theorem send_lt (h : m.Sound) {n : RequestRef} {o : Outgoing} {s : SendStage}
    (hr : m.request n = .send c o s) : c < m.shared.connCount := by
  have hok : Request.Ok m.shared n (.send c o s) := hr ▸ h.thread (.request n)
  exact hok

/-- A send is accepted on a connection that exists. -/
theorem accepted_lt (h : m.Sound) {n : RequestRef} {data : Bytes}
    (hn : (m.request n).accepted c = some data) : c < m.shared.connCount := by
  cases hr : m.request n with
  | send d o s =>
      rw [hr] at hn
      by_cases hd : d = c
      · exact hd ▸ send_lt h hr
      · rw [Request.accepted_of_ne hd] at hn
        cases hn
  | _ =>
      rw [hr] at hn
      cases hn

/-- A send is on the socket of a connection that exists. -/
theorem onSocket_lt (h : m.Sound) {n : RequestRef} (hn : (m.request n).OnSocket c) :
    c < m.shared.connCount := by
  unfold Request.OnSocket at hn
  split at hn
  next hr => exact hn ▸ send_lt h hr
  next hr => exact hn ▸ send_lt h hr
  next => exact absurd hn id

/-- Only a call that is on the WebSocket writes to it. -/
theorem onSocket_of_send {n : RequestRef} {w : SockRef} {bytes : Bytes}
    (hs : ThreadStep m.shared i (m.thread i) l (.send n c w bytes)) : (m.request n).OnSocket c := by
  generalize hl : m.thread i = l₀ at hs
  cases hs with
  | get hs => cases hs
  | post hs =>
      cases hs with
      | replying _ hs => cases hs
      | replied _ hs => cases hs
      | unreplied _ _ _ hs => cases hs
      | closing hs => cases hs
      | closed hs => cases hs
  | upgrade hs =>
      cases hs with
      | flushing hs => cases hs
      | flushed _ hs => cases hs
  | send hs =>
      cases hs with
      | enqueuing hs => cases hs
      | enqueued _ hs => cases hs
      | sent =>
          rw [show m.request n = _ from hl]
          rfl
  | pump _ hs => cases hs
  | closer _ hs =>
      cases hs with
      | closing hs => cases hs
      | closed hs => cases hs

/-- A call gets onto the WebSocket after an upgrade only. -/
theorem onSocket_of_run (hs : ThreadStep m.shared i (m.thread i) l e)
    (hcur : (m.shared.conn c).current = .polling) {n : RequestRef}
    (h : (request (m.put i (m.shared.apply e) l) n).OnSocket c) : (m.request n).OnSocket c := by
  rcases of_put_request hs h with hwas | ⟨r', -, hreq, hr'⟩
  · exact hwas
  · generalize m.request n = r at hreq
    cases hreq with
    | send hs =>
        cases hs with
        | websocket hw =>
            obtain rfl := hr'
            rw [hcur] at hw
            cases hw
        | checkedEio => exact hr'
        | _ => exact absurd hr' id
    | _ => exact absurd hr' id

/-- The step puts the message of a `Write` into the outbox. -/
def Puts (m : Machine) (c : ConnRef) (i : ThreadRef) (e : Effect) (n : RequestRef)
    (data : Bytes) : Prop :=
  i = .request n ∧ e = .conn c (.enqueue n (wire .message data)) ∧
    m.request n = .send c (.write data) (.enqueuing .send)

/-- No other step adds to the writes of a connection that is not upgraded. -/
theorem writes_run (hs : ThreadStep m.shared i (m.thread i) l e)
    (hpolling : ∀ n, ¬ (m.request n).OnSocket c) (hputs : ∀ n data, ¬ m.Puts c i e n data) :
    ((m.shared.apply e).conn c).writes = (m.shared.conn c).writes := by
  rcases m.shared.conn_apply e c with heq | ⟨b, rfl, heq⟩ | ⟨n, w, bytes, rfl, heq⟩
  · rw [heq]
  · rw [heq]
    cases b with
    | enqueue n bytes =>
        obtain ⟨rfl, ⟨sid, data, rest, -, rfl⟩ | ⟨sid, w, -, rfl⟩ | ⟨o, hr, rfl⟩⟩ :
          m.Cause i _ (.conn c (.enqueue n bytes)) := cause hs
        · exact List.append_nil _
        · exact List.append_nil _
        · cases o with
          | write data => exact absurd ⟨rfl, rfl, hr⟩ (hputs n data)
          | _ => exact List.append_nil _
    | _ => rfl
  · exact absurd (onSocket_of_send hs) (hpolling n)

/-- No other step has a call accepted. -/
theorem request_accepted_run (hs : ThreadStep m.shared i (m.thread i) l e)
    (hpolling : ∀ n, ¬ (m.request n).OnSocket c) (hputs : ∀ n data, ¬ m.Puts c i e n data)
    (n : RequestRef) :
    (request (m.put i (m.shared.apply e) l) n).accepted c = (m.request n).accepted c := by
  refine put_request (P := fun r => r.accepted c = (m.request n).accepted c) hs rfl
    fun r hi hs => ?_
  have hno := hpolling n
  generalize hr : m.request n = r at hs hno ⊢
  cases hs with
  | @send _ d o _ _ _ hs =>
      by_cases hd : d = c
      · subst hd
        rcases hs.accepted hno with heq | ⟨data, rfl, rfl, rfl⟩
        · exact heq
        · exact absurd ⟨hi, rfl, hr⟩ (hputs n data)
      · rw [Request.accepted_of_ne hd, Request.accepted_of_ne hd]
  | _ => rfl

/-- The call of the message is accepted with it. -/
theorem Puts.accepted {n : RequestRef} {data : Bytes} (h : m.Puts c i e n data)
    (hs : ThreadStep m.shared i (m.thread i) l e) :
    (request (m.put i (m.shared.apply e) l) n).accepted c = some data := by
  obtain ⟨rfl, rfl, hr⟩ := h
  rw [show m.thread (.request n) = _ from hr] at hs
  rw [request_put_self]
  cases hs with
  | send hs =>
      cases hs with
      | enqueuing hs =>
          cases hs
          simp [Request.accepted]
      | enqueued _ hs => cases hs

/-- **What a step does to the accepted payloads** of a connection that is not upgraded:
nothing, or a `Write` puts its message into the outbox. -/
theorem accepted_run (hs : ThreadStep m.shared i (m.thread i) l e)
    (hpolling : ∀ n, ¬ (m.request n).OnSocket c) :
    (((m.shared.apply e).conn c).writes = (m.shared.conn c).writes ∧
      ∀ n, (request (m.put i (m.shared.apply e) l) n).accepted c = (m.request n).accepted c) ∨
    ∃ n data, ((m.shared.apply e).conn c).writes =
        (m.shared.conn c).writes ++ [(n, .polling, data)] ∧
      (m.request n).accepted c = none ∧
      (request (m.put i (m.shared.apply e) l) n).accepted c = some data ∧
      ∀ n', n' ≠ n → request (m.put i (m.shared.apply e) l) n' = m.request n' := by
  by_cases hputs : ∃ n data, m.Puts c i e n data
  · obtain ⟨n, data, hput⟩ := hputs
    have haccepted := hput.accepted hs
    obtain ⟨rfl, rfl, hr⟩ := hput
    refine Or.inr ⟨n, data, by rw [Memory.apply_conn_self]; rfl, by rw [hr]; rfl, haccepted, ?_⟩
    exact fun n' hn' => request_put_of_ne _ _ _ (by simpa using hn'.symm)
  · have hno : ∀ n data, ¬ m.Puts c i e n data := fun n data hput => hputs ⟨n, data, hput⟩
    exact Or.inl ⟨writes_run hs hpolling hno, request_accepted_run hs hpolling hno⟩

end accepted

namespace Direct

variable {i : ThreadRef} {l : i.Local} {e : Effect}

/-- The polling transport was the only destination. -/
theorem payloads_eq (h : m.Direct c) :
    payloads .polling (m.shared.conn c).writes = (m.accepted c).map Prod.snd := by
  have hall : (m.shared.conn c).writes.filter (fun r => r.2.1 = .polling) =
      (m.shared.conn c).writes := by
    rw [List.filter_eq_self]
    exact fun r hr => decide_eq_true (h.dest r hr)
  rw [payloads, hall, accepted, List.map_map]
  rfl

/-- A step before the upgrade keeps what is known of the `Write`s. -/
theorem run (h : m.Direct c) (hcur : (m.shared.conn c).current = .polling)
    (hs : ThreadStep m.shared i (m.thread i) l e) : Direct c (m.put i (m.shared.apply e) l) := by
  have hpolling : ∀ n, ¬ (request (m.put i (m.shared.apply e) l) n).OnSocket c := fun n hn =>
    h.polling n (onSocket_of_run hs hcur hn)
  rcases accepted_run hs h.polling with ⟨hwrites, hsame⟩ | ⟨n, data, hwrites, hnone, hsome, hother⟩
  · have haccepted : accepted (m.put i (m.shared.apply e) l) c = m.accepted c := by
      rw [accepted, Pool.put_shared, hwrites, accepted]
    refine ⟨hpolling, fun r hr => h.dest r (hwrites ▸ hr), fun n data => ?_, ?_⟩
    · rw [haccepted, hsame]
      exact h.mem n data
    · rw [haccepted]
      exact h.once
  · have haccepted : accepted (m.put i (m.shared.apply e) l) c = m.accepted c ++ [(n, data)] := by
      rw [accepted, Pool.put_shared, hwrites, List.map_append]
      rfl
    have hnew : ∀ data', (n, data') ∉ m.accepted c := by
      intro data' hmem
      have hsome' := (h.mem n data').1 hmem
      rw [hnone] at hsome'
      cases hsome'
    refine ⟨hpolling, fun r hr => ?_, fun n' data' => ?_, ?_⟩
    · rw [Pool.put_shared, hwrites, List.mem_append, List.mem_singleton] at hr
      rcases hr with hr | rfl
      · exact h.dest r hr
      · rfl
    · rw [haccepted, List.mem_append, List.mem_singleton]
      by_cases hn : n' = n
      · subst hn
        simp [hnew, hsome, eq_comm]
      · simp [hother n' hn, h.mem, hn]
    · rw [haccepted, List.map_append, List.nodup_append]
      refine ⟨h.once, List.nodup_singleton _, ?_⟩
      rintro _ hmem _ hsingle rfl
      obtain ⟨⟨n', data'⟩, hmem', rfl⟩ := List.mem_map.1 hmem
      obtain rfl : n' = n := List.mem_singleton.1 hsingle
      exact hnew data' hmem'

/-- A call that starts has not put its message anywhere. -/
theorem spawn (h : m.Direct c) (hspawned : m.Spawned) {r : Request} (hr : m.Starts r) :
    (m.spawn r).Direct c := by
  have hnew : r.accepted c = none ∧ ¬ r.OnSocket c := by
    cases hr with
    | send o _ => cases o <;> exact ⟨rfl, id⟩
    | _ => exact ⟨rfl, id⟩
  have hsame : ∀ n, ((m.spawn r).request n).accepted c = (m.request n).accepted c := by
    intro n
    by_cases hn : n = m.shared.requestCount
    · subst hn
      rw [spawn_request_self, hnew.1, hspawned.request _ le_rfl]
      rfl
    · rw [spawn_request_of_ne _ _ hn]
  refine ⟨fun n hn => h.polling n (of_spawn m hnew.2 hn), h.dest, fun n data => ?_, h.once⟩
  rw [hsame]
  exact h.mem n data

/-- Nobody has called `Write` on a connection that is just made. -/
theorem create (hsound : m.Sound) (sid : String) :
    Direct m.shared.connCount { m with shared := m.shared.create sid } := by
  have hconn : (m.shared.create sid).conn m.shared.connCount = newConn sid m.shared.maxPayload :=
    Function.update_self ..
  have haccepted : accepted { m with shared := m.shared.create sid } m.shared.connCount = [] := by
    rw [accepted, hconn]
    rfl
  refine ⟨fun n hn => ?_, fun r hr => ?_, fun n data => ?_, ?_⟩
  · exact (onSocket_lt hsound hn).ne rfl
  · rw [hconn] at hr
    exact absurd hr List.not_mem_nil
  · rw [haccepted]
    exact iff_of_false List.not_mem_nil fun hsome => (accepted_lt hsound hsome).ne rfl
  · rw [haccepted]
    exact List.nodup_nil

/-- What is known of the `Write`s, in every run, until the connection is upgraded. -/
theorem of_reachable {G : Machine → MachineOp → Prop} {maxPayload : ℤ}
    (h : Reachable (Guarded G Step) (Machine.init maxPayload) m) (hc : c < m.shared.connCount)
    (hcur : (m.shared.conn c).current = .polling) : m.Direct c := by
  have hm : m.Sound ∧ m.Spawned ∧
      (c < m.shared.connCount → (m.shared.conn c).current = .polling → m.Direct c) := by
    refine invariant (P := fun m => m.Sound ∧ m.Spawned ∧
      (c < m.shared.connCount → (m.shared.conn c).current = .polling → m.Direct c)) h
      ⟨sound_init maxPayload, .init maxPayload, fun hc => absurd hc (Nat.not_lt_zero c)⟩ ?_ ?_ ?_
    · rintro m ⟨hsound, hspawned, hm⟩ sid hfresh
      refine ⟨hsound.create hfresh, hspawned.create sid, fun hc hcur => ?_⟩
      rcases Nat.lt_succ_iff_lt_or_eq.1 hc with hlt | rfl
      · rw [Memory.create_conn hlt] at hcur
        obtain ⟨hpolling, hdest, hmem, honce⟩ := hm hlt hcur
        refine ⟨hpolling, ?_, ?_, ?_⟩
        · rwa [Memory.create_conn hlt]
        · rwa [accepted_create hlt]
        · rwa [accepted_create hlt]
      · exact create hsound sid
    · rintro m ⟨hsound, hspawned, hm⟩ r hr
      exact ⟨hsound.spawn hr, hspawned.spawn r, fun hc hcur => (hm hc hcur).spawn hspawned hr⟩
    · rintro m i k l e ⟨hsound, hspawned, hm⟩ hs -
      refine ⟨hsound.run hs, hspawned.run hs, fun hc hcur => ?_⟩
      have hwas := Memory.polling_of_apply hcur
      exact (hm (by simpa using hc) hwas).run hwas hs
  exact hm.2.2 hc hcur

end Direct

/-- What is recorded of a connection is continued, and the polling transport does not come
back. -/
theorem accepted_grows {m' : Machine} (h : Reachable Step m m') (hc : c < m.shared.connCount) :
    c < m'.shared.connCount ∧ m.accepted c <+: m'.accepted c ∧
      ((m'.shared.conn c).current = .polling → (m.shared.conn c).current = .polling) := by
  refine h.invariant (P := fun x => c < x.shared.connCount ∧ m.accepted c <+: x.accepted c ∧
    ((x.shared.conn c).current = .polling → (m.shared.conn c).current = .polling))
    ⟨hc, List.prefix_refl _, id⟩ ?_
  rintro x a y ⟨hc, hprefix, hcur⟩ hstep
  cases hstep.moved with
  | create =>
      refine ⟨Nat.lt_succ_of_lt hc, ?_, ?_⟩
      · rwa [accepted_create hc]
      · rwa [Memory.create_conn hc]
  | spawn => exact ⟨hc, hprefix, hcur⟩
  | @run i k l e _ hs =>
      refine ⟨by simpa using hc, hprefix.trans ?_, fun hy => hcur (Memory.polling_of_apply hy)⟩
      exact (x.shared.writes_apply e c).map _

/-- **Long polls deliver every message once and in order**, on a connection that is not
upgraded and whose polls do not overlap, if no payload holds a separator.  Every body is
read without an error; the messages read from the bodies, followed by those in the outbox,
are the accepted payloads; a `Write` is accepted once if it has put its message into the
outbox, and not at all if it has returned an error; and a `Write` that was accepted before
another one has started comes first. -/
theorem polling_fifo (maxPayload : ℤ) (c : ConnRef) (m m' : Machine)
    (h : Reachable (Guarded (Sequential c) Step) (init maxPayload) m)
    (h' : Reachable (Guarded (Sequential c) Step) m m') (hc : c < m'.shared.connCount)
    (hcur : (m'.shared.conn c).current = .polling) :
    (∀ body ∈ m'.bodies c, ∃ packets, decodeBatch body = .ok packets) ∧
    (m'.bodies c).flatMap bodyMessages ++ messages (m'.shared.conn c).polling.outbox =
      (m'.accepted c).map Prod.snd ∧
    ((m'.accepted c).map Prod.fst).Nodup ∧
    (∀ n data, (n, data) ∈ m'.accepted c ↔ (m'.request n).accepted c = some data) ∧
    ∀ n n' data data', (m.request n).accepted c = some data → m.shared.requestCount ≤ n' →
      (m'.request n').accepted c = some data' →
      [(n, data), (n', data')].Sublist (m'.accepted c) := by
  have hm' := Polled.of_reachable (h.trans h') fun _ _ => id
  have hdirect' : m'.Direct c := .of_reachable (h.trans h') hc hcur
  refine ⟨hm'.decodeBatch_bodies, ?_, hdirect'.once, hdirect'.mem, ?_⟩
  · rw [hm'.bodyMessages_bodies, ← hdirect'.payloads_eq]
    exact hm'.queued.symm
  · intro n n' data data' hn hle hn'
    have hm := Polled.of_reachable h fun _ _ => id
    have hlt := accepted_lt hm.sound hn
    obtain ⟨-, ⟨later, hlater⟩, hback⟩ := accepted_grows h'.of_guarded hlt
    have hdirect : m.Direct c := .of_reachable h hlt (hback hcur)
    have hfirst : [(n, data)].Sublist (m.accepted c) :=
      List.singleton_sublist.2 ((hdirect.mem n data).2 hn)
    have hsecond : [(n', data')].Sublist later := by
      -- the later call had not started
      have hmem := (hdirect'.mem n' data').2 hn'
      rw [← hlater, List.mem_append, hdirect.mem, hm.spawned.request n' hle] at hmem
      rcases hmem with hmem | hmem
      · cases hmem
      · exact List.singleton_sublist.2 hmem
    rw [← hlater]
    exact hfirst.append hsecond

/-- A message and a pong come with the first poll, a message with the second, and one is in
the outbox; the heartbeat of a third poll brings none. -/
theorem polling_fifo_three_polls :
    ∃ m m', Reachable (Guarded (Sequential 0) Step) (init 100) m ∧
      Reachable (Guarded (Sequential 0) Step) m m' ∧
      m'.bodies 0 = [ascii "4a" ++ 0x1e :: ascii "3x", ascii "4b", ascii "2"] ∧
      (m'.bodies 0).flatMap bodyMessages ++ messages (m'.shared.conn 0).polling.outbox =
        (m'.accepted 0).map Prod.snd ∧
      [(0, ascii "a"), (5, ascii "c")].Sublist (m'.accepted 0) := by
  obtain ⟨m, hm, hp⟩ := Reachable.of_exec_guarded (G := Sequential 0) step (s := init 100)
    (.create "s" :: .send 0 (.write (ascii "a")) :: advance (.request 0) 5 ++
      .post "s" (ascii "2x") :: advance (.request 1) 6)
    (p := fun m => m.shared.requestCount ≤ 5 ∧ (m.request 0).accepted 0 = some (ascii "a") ∧
      (exec (fun s a => if Sequential 0 s a then step s a else none) m
        (.get "s" :: advance (.request 2) 4 ++ .send 0 (.write (ascii "b")) ::
          advance (.request 3) 5 ++ .get "s" :: .run (.request 4) .go ::
          .run (.request 4) .signal :: advance (.request 4) 2 ++ .send 0 (.write (ascii "c")) ::
          advance (.request 5) 5 ++
          [.get "s", .run (.request 6) .go, .run (.request 6) .timer])).map
        (fun m' => decide (0 < m'.shared.connCount ∧ (m'.shared.conn 0).current = .polling ∧
          m'.bodies 0 = [ascii "4a" ++ 0x1e :: ascii "3x", ascii "4b", ascii "2"] ∧
          (m'.request 5).accepted 0 = some (ascii "c"))) = some true)
    (by decide +kernel)
  obtain ⟨hle, hfirst, hrest⟩ := of_decide_eq_true hp
  obtain ⟨m', hm', hp'⟩ := Reachable.of_exec_guarded (G := Sequential 0) step _ hrest
  obtain ⟨hc, hcur, hbodies, hlast⟩ := of_decide_eq_true hp'
  obtain ⟨-, hmessages, -, -, horder⟩ := polling_fifo 100 0 m m' hm hm' hc hcur
  exact ⟨m, m', hm, hm', hbodies, hmessages, horder 0 5 _ _ hfirst hle hlast⟩

end Machine

end EngineIO
end GoSocket
