/-
# What wakes a poll

`enqueueOutbound` puts a wire into the outbox and a token into `wake`, and `poll` waits for
one of the two, or for its timer.  A poll that takes the wire leaves the token where it is.
The next poll may then find the token and nothing in the outbox, and answers at once with an
empty body, where the comment of `poll` announces a ping after the full time
(`poll_empty_handed`).

A poll takes everything there is in the outbox before it returns, so the only tokens that
can outlive their wires are those that are there at that moment, or are still to come from
a goroutine between its send and its `signalPoll`.  If there are none whenever a poll
returns a batch, and the polls of a session do not overlap, no poll is empty-handed
(`poll_answers`): a token that is there then stands for something in the outbox.
-/

import GoSocket.EngineIO.Delivery

namespace GoSocket

open Lib

namespace EngineIO

/-- The request has put a wire into the outbox of the connection and is to signal it. -/
def Request.Signals (c : ConnRef) : Request → Prop
  | .post _ d (.replying .signal _ _) => d = c
  | .upgrade _ (.flushing d _ .signal) => d = c
  | .send d _ (.enqueuing .signal) => d = c
  | _ => False

instance (c : ConnRef) (r : Request) : Decidable (r.Signals c) := by
  unfold Request.Signals
  split <;> infer_instance

/-- A batch has a first wire. -/
def GetStage.Filled : GetStage → Prop
  | .collecting wires => wires ≠ []
  | .done (.batch wires) => wires ≠ []
  | _ => True

section steps

variable {m : Memory} {n : RequestRef} {c : ConnRef} {k : Choice} {s s' : GetStage} {e : Effect}

/-- A poll is woken by a token. -/
theorem GetStage.next_woken (h : s.next m n c k = some (.woken, e)) :
    s = .selecting ∧ (m.conn c).polling.wake = true ∧ e = .conn c .awake := by
  cases s with
  | opened =>
      simp only [GetStage.next] at h
      split_ifs at h <;> cases h
  | selecting =>
      simp only [GetStage.next] at h
      split at h
      · cases h
      · cases h
      · split_ifs at h with hwake
        cases h
        exact ⟨rfl, hwake, rfl⟩
      · cases h
  | woken | collecting =>
      simp only [GetStage.next] at h
      split at h <;> cases h
  | done => cases h

/-- A poll returns nothing if it was woken and the outbox is empty. -/
theorem GetStage.next_nothing (h : s.next m n c k = some (.done .nothing, e)) :
    s = .woken ∧ (m.conn c).polling.outbox = [] := by
  cases s with
  | opened =>
      simp only [GetStage.next] at h
      split_ifs at h <;> cases h
  | selecting =>
      simp only [GetStage.next] at h
      split at h
      · cases h
      · cases h
      · split_ifs at h
        cases h
      · cases h
  | woken =>
      simp only [GetStage.next] at h
      split at h
      · cases h
      next hout => exact ⟨rfl, hout⟩
  | collecting =>
      simp only [GetStage.next] at h
      split at h <;> cases h
  | done => cases h

/-- A poll that has found the outbox filled goes on to empty it. -/
theorem GetStep.collecting (h : GetStep m n c s s' e) (he : e = .conn c (.dequeue n)) :
    ∃ wires, s' = .collecting wires := by
  cases h with
  | take | takeWoken | collect => exact ⟨_, rfl⟩
  | _ => cases he

/-- A step of a poll keeps a first wire in its batch. -/
theorem GetStep.filled (h : GetStep m n c s s' e) (hs : s.Filled) : s'.Filled := by
  cases h with
  | take | takeWoken => exact List.cons_ne_nil _ _
  | collect => exact List.append_ne_nil_of_right_ne_nil _ (List.cons_ne_nil _ _)
  | batch => exact hs
  | _ => trivial

/-- What is in an outbox stays there unless a poll takes it. -/
theorem Memory.outbox_apply (he : ∀ n, e ≠ .conn c (.dequeue n))
    (h : (m.conn c).polling.outbox ≠ []) : ((m.apply e).conn c).polling.outbox ≠ [] := by
  refine Memory.apply_of (P := fun s => s.polling.outbox ≠ []) (fun _ _ => id) ?_ h
  rintro b rfl
  cases b with
  | enqueue n bytes => exact List.append_ne_nil_of_right_ne_nil _ (List.cons_ne_nil _ _)
  | dequeue n => exact absurd rfl (he n)
  | _ => exact h

/-- Only `signalPoll` sets a token. -/
theorem Memory.wake_of_apply (h : ((m.apply e).conn c).polling.wake = true) :
    (m.conn c).polling.wake = true ∨ e = .conn c .wake := by
  rcases Memory.of_apply (P := fun s => s.polling.wake = true) (fun _ _ => id) h with
    hwas | ⟨b, rfl, hb⟩
  · exact Or.inl hwas
  · cases b with
    | wake => exact Or.inr rfl
    | awake => cases hb
    | _ => exact Or.inl hb

end steps

namespace Machine

variable {m : Machine} {c : ConnRef}

/-- No token is there for the connection, and none is on its way. -/
def Unsignalled (m : Machine) (c : ConnRef) : Prop :=
  (m.shared.conn c).polling.wake = false ∧
    ∀ n < m.shared.requestCount, ¬ (m.request n).Signals c

instance (m : Machine) (c : ConnRef) : Decidable (m.Unsignalled c) :=
  inferInstanceAs (Decidable (_ ∧ _))

/-- What `SequentialUnsignalled` asks of a request where it is. -/
def RequestUnsignalled (c : ConnRef) (m : Machine) : Request → Prop
  | .get d (.collecting _) => d = c → (m.shared.conn c).polling.outbox = [] → m.Unsignalled c
  | _ => True

instance (c : ConnRef) (m : Machine) (r : Request) : Decidable (m.RequestUnsignalled c r) := by
  unfold RequestUnsignalled
  split <;> infer_instance

/-- The run is `Sequential`, and when a poll has emptied the outbox and is to return, no token
is there and none is on its way. -/
def SequentialUnsignalled (c : ConnRef) (m : Machine) (a : MachineOp) : Prop :=
  m.Sequential c a ∧ ∀ n k, a = .run (.request n) k → m.RequestUnsignalled c (m.request n)

instance (c : ConnRef) (m : Machine) : (a : MachineOp) → Decidable (m.SequentialUnsignalled c a)
  | .run (.request n) k => decidable_of_iff (m.RequestUnsignalled c (m.request n))
      ⟨fun h => ⟨trivial, by rintro _ _ ⟨⟩; exact h⟩, fun h => h.2 n k rfl⟩
  | .run (.pump _) _ | .run (.closer _) _ => isTrue ⟨trivial, nofun⟩
  | .create _ | .post .. | .upgrade _ => isTrue ⟨trivial, nofun⟩
  | .get sid => decidable_of_iff (m.Sequential c (.get sid)) ⟨fun h => ⟨h, nofun⟩, fun h => h.1⟩
  | .send d o => decidable_of_iff (m.Sequential c (.send d o)) ⟨fun h => ⟨h, nofun⟩, fun h => h.1⟩

/-- What is known of the tokens between two steps of a run of `SequentialUnsignalled`. -/
structure TokenBacked (c : ConnRef) (m : Machine) : Prop where
  polled : m.Polled c
  /-- A token stands for something in the outbox, or a poll is there to take it. -/
  token : ((m.shared.conn c).polling.wake = true ∨ ∃ n, (m.request n).Signals c) →
    (m.shared.conn c).polling.outbox ≠ [] ∨ ∃ n wires, m.request n = .get c (.collecting wires)
  woken : ∀ n, m.request n = .get c .woken → (m.shared.conn c).polling.outbox ≠ []
  filled : ∀ n s, m.request n = .get c s → s.Filled
  answered : ∀ n, m.request n ≠ .get c (.done .nothing)

section run

variable {i : ThreadRef} {k : Choice} {l : i.Local} {e : Effect} {n : RequestRef}

/-- A token is on its way once a wire was put into the outbox. -/
theorem signals_of_run (hs : ThreadStep m.shared i (m.thread i) l e)
    (h : (request (m.put i (m.shared.apply e) l) n).Signals c) :
    (m.request n).Signals c ∨ ∃ bytes, e = .conn c (.enqueue n bytes) := by
  rcases of_put_request hs h with hwas | ⟨r', -, hreq, hr'⟩
  · exact Or.inl hwas
  · refine Or.inr ?_
    generalize m.request n = r at hreq
    cases hreq with
    | get => exact absurd hr' id
    | post hs =>
        cases hs with
        | replying _ hs =>
            cases hs with
            | checked => exact absurd hr' id
            | sent =>
                obtain rfl := hr'
                exact ⟨_, rfl⟩
        | _ => exact absurd hr' id
    | upgrade hs =>
        cases hs with
        | flushing hs =>
            cases hs with
            | checked => exact absurd hr' id
            | sent =>
                obtain rfl := hr'
                exact ⟨_, rfl⟩
        | _ => exact absurd hr' id
    | send hs =>
        cases hs with
        | enqueuing hs =>
            cases hs with
            | checked => exact absurd hr' id
            | sent =>
                obtain rfl := hr'
                exact ⟨_, rfl⟩
        | _ => exact absurd hr' id

/-- `signalPoll` comes after a send. -/
theorem signals_of_wake (hs : ThreadStep m.shared i (m.thread i) l (.conn c .wake)) :
    ∃ n, (m.request n).Signals c := by
  generalize hl : m.thread i = l₀ at hs
  have hsignals : ∀ {n r}, m.thread (.request n) = r → r.Signals c →
      ∃ n, (m.request n).Signals c := fun {n r} hr h => ⟨n, (show m.request n = r from hr) ▸ h⟩
  cases hs with
  | get hs => cases hs
  | post hs =>
      cases hs with
      | replying _ hs => cases hs
      | replied _ hs =>
          cases hs
          exact hsignals hl rfl
      | unreplied _ _ _ hs =>
          cases hs
          exact hsignals hl rfl
      | closing hs => cases hs
      | closed hs => cases hs
  | upgrade hs =>
      cases hs with
      | flushing hs => cases hs
      | flushed _ hs =>
          cases hs
          exact hsignals hl rfl
  | send hs =>
      cases hs with
      | enqueuing hs => cases hs
      | enqueued _ hs =>
          cases hs
          exact hsignals hl rfl
  | pump _ hs => cases hs
  | closer _ hs =>
      cases hs with
      | closing hs => cases hs
      | closed hs => cases hs

/-- A token, or one on its way, was there before, if the step puts nothing into the outbox. -/
theorem token_of_run (hs : ThreadStep m.shared i (m.thread i) l e)
    (hno : ¬ ∃ n bytes, e = .conn c (.enqueue n bytes))
    (h : ((m.shared.apply e).conn c).polling.wake = true ∨
      ∃ n, (request (m.put i (m.shared.apply e) l) n).Signals c) :
    (m.shared.conn c).polling.wake = true ∨ ∃ n, (m.request n).Signals c := by
  rcases h with hwake | ⟨n, hn⟩
  · rcases Memory.wake_of_apply hwake with hwas | rfl
    · exact Or.inl hwas
    · exact Or.inr (signals_of_wake hs)
  · rcases signals_of_run hs hn with hwas | ⟨bytes, rfl⟩
    · exact Or.inr ⟨n, hwas⟩
    · exact absurd ⟨n, bytes, rfl⟩ hno

end run

/-- A send signals a connection that exists. -/
theorem signals_lt (h : m.Sound) {n : RequestRef} (hn : (m.request n).Signals c) :
    c < m.shared.connCount := by
  have hok : (m.request n).Ok m.shared n := h.thread (.request n)
  generalize m.request n = r at hn hok
  unfold Request.Signals at hn
  split at hn
  · exact hn ▸ hok.1
  · exact hn ▸ hok.1
  · exact hn ▸ hok
  · exact absurd hn id

/-- Only one poll of the connection is running. -/
theorem Polled.unique (h : m.Polled c) {n n' : RequestRef} (hn : (m.request n).Polls c)
    (hn' : (m.request n').Polls c) : n = n' := by
  have hget : ∀ {n}, (m.request n).Polls c → ∃ s, m.request n = .get c s := by
    intro n hn
    generalize m.request n = r at hn
    cases r with
    | get d s =>
        cases s with
        | done => exact absurd hn id
        | _ => exact ⟨_, by rw [show d = c from hn]⟩
    | _ => exact absurd hn id
  rcases Nat.lt_trichotomy n n' with hlt | heq | hlt
  · obtain ⟨s, hs⟩ := hget hn'
    exact absurd hs (h.last n n' s hn hlt)
  · exact heq
  · obtain ⟨s, hs⟩ := hget hn
    exact absurd hs (h.last n' n s hn' hlt)

namespace TokenBacked

/-- No token is out at first. -/
theorem init (maxPayload : ℤ) (c : ConnRef) : (Machine.init maxPayload).TokenBacked c where
  polled := .init maxPayload c
  token h := by
    rcases h with h | ⟨n, h⟩
    · cases h
    · exact absurd h id
  woken _ h := nomatch h
  filled _ _ h := nomatch h
  answered _ h := nomatch h

variable {i : ThreadRef} {k : Choice} {l : i.Local} {e : Effect}

/-- A poll that takes something out of the outbox is running, and goes on to empty it. -/
theorem run_dequeue (hs : ThreadStep m.shared i (m.thread i) l e) {n : RequestRef}
    (he : e = .conn c (.dequeue n)) :
    (m.request n).Polls c ∧
      ∃ wires, request (m.put i (m.shared.apply e) l) n = .get c (.collecting wires) := by
  subst he
  obtain ⟨rfl, s, hr⟩ : m.Cause i _ (.conn c (.dequeue n)) := cause hs
  rw [request_put_self, hr]
  rw [show m.thread (.request n) = _ from hr] at hs
  cases hs with
  | get hs =>
      obtain ⟨wires, rfl⟩ := hs.collecting rfl
      refine ⟨?_, wires, rfl⟩
      cases s with
      | done => cases hs
      | _ => rfl

/-- A poll that empties the outbox does not stop while there is a token. -/
theorem run_collecting (h : m.TokenBacked c) (hnext : i.next m.shared k (m.thread i) = some (l, e))
    (hG : m.SequentialUnsignalled c (.run i k))
    (htoken : (m.shared.conn c).polling.wake = true ∨ ∃ n, (m.request n).Signals c)
    {n : RequestRef} {wires : List Bytes} (hr : m.request n = .get c (.collecting wires)) :
    ∃ wires, request (m.put i (m.shared.apply e) l) n = .get c (.collecting wires) := by
  by_cases hi : i = .request n
  · subst hi
    rw [show m.thread (.request n) = _ from hr] at hnext
    have hstep : RequestStep m.shared n k (.get c (.collecting wires)) l e := Request.took hnext
    cases hstep with
    | get hstep =>
        simp only [GetStage.next] at hstep
        split at hstep
        · cases hstep
          exact ⟨_, request_put_self ..⟩
        next hout =>
          -- it would return now, and the condition says that there is no token
          have hguard := hG.2 n k rfl
          rw [hr] at hguard
          obtain ⟨hwake, hsignals⟩ := hguard rfl hout
          rcases htoken with htrue | ⟨n', hn'⟩
          · rw [hwake] at htrue
            cases htrue
          · exact absurd hn' (h.polled.spawned.forall_not id hsignals n')
  · exact ⟨wires, by rw [request_put_of_ne _ _ _ hi, hr]⟩

/-- After a step of `SequentialUnsignalled` every token still has a wire or a collecting poll
behind it. -/
theorem run_token (h : m.TokenBacked c) (hnext : i.next m.shared k (m.thread i) = some (l, e))
    (hG : m.SequentialUnsignalled c (.run i k))
    (htoken : ((m.shared.apply e).conn c).polling.wake = true ∨
      ∃ n, (request (m.put i (m.shared.apply e) l) n).Signals c) :
    ((m.shared.apply e).conn c).polling.outbox ≠ [] ∨
      ∃ n wires, request (m.put i (m.shared.apply e) l) n = .get c (.collecting wires) := by
  have hs := ThreadRef.took hnext
  by_cases henqueue : ∃ n bytes, e = .conn c (.enqueue n bytes)
  · obtain ⟨n, bytes, rfl⟩ := henqueue
    left
    rw [Memory.apply_conn_self]
    exact List.append_ne_nil_of_right_ne_nil _ (List.cons_ne_nil _ _)
  · have hbefore := token_of_run hs henqueue htoken
    rcases h.token hbefore with hout | ⟨n, wires, hr⟩
    · by_cases hdequeue : ∃ n, e = .conn c (.dequeue n)
      · obtain ⟨n, hn⟩ := hdequeue
        obtain ⟨-, wires, hwires⟩ := run_dequeue hs hn
        exact Or.inr ⟨n, wires, hwires⟩
      · exact Or.inl (Memory.outbox_apply (fun n hn => hdequeue ⟨n, hn⟩) hout)
    · exact Or.inr ⟨n, h.run_collecting hnext hG hbefore hr⟩

/-- After a step a woken poll still has a wire to take. -/
theorem run_woken (h : m.TokenBacked c) (hnext : i.next m.shared k (m.thread i) = some (l, e))
    {n : RequestRef} (hr : request (m.put i (m.shared.apply e) l) n = .get c .woken) :
    ((m.shared.apply e).conn c).polling.outbox ≠ [] := by
  rcases of_put_next (P := (· = .get c .woken)) hnext hr with hwas | ⟨_, rfl, hstep, rfl⟩
  · refine Memory.outbox_apply (fun n' hn' => ?_) (h.woken n hwas)
    obtain ⟨hpolls, wires, hwires⟩ := run_dequeue (ThreadRef.took hnext) hn'
    obtain rfl : n = n' := h.polled.unique (by rw [hwas]; rfl) hpolls
    rw [hr] at hwires
    cases hwires
  · generalize hwas : m.request n = r at hstep
    cases hstep with
    | get hstep =>
        obtain ⟨rfl, hwake, rfl⟩ := GetStage.next_woken hstep
        rw [Memory.apply_conn_self]
        rcases h.token (Or.inl hwake) with hout | ⟨n', wires, hr'⟩
        · exact hout
        · -- the poll that is emptying the outbox would be a second one
          obtain rfl : n = n' := h.polled.unique (by rw [hwas]; rfl) (by rw [hr']; rfl)
          rw [hwas] at hr'
          cases hr'

/-- A step of `SequentialUnsignalled` keeps every token backed. -/
theorem run (h : m.TokenBacked c) (hnext : i.next m.shared k (m.thread i) = some (l, e))
    (hG : m.SequentialUnsignalled c (.run i k)) : TokenBacked c (m.put i (m.shared.apply e) l) where
  polled := h.polled.run (ThreadRef.took hnext)
  token := h.run_token hnext hG
  woken _ := h.run_woken hnext
  filled n s hr := by
    rcases of_put_next (P := (· = .get c s)) hnext hr with hwas | ⟨_, -, hstep, rfl⟩
    · exact h.filled n s hwas
    · generalize hwas : m.request n = r at hstep
      cases hstep with
      | get hstep => exact (GetStage.took hstep).filled (h.filled n _ hwas)
  answered n hr := by
    rcases of_put_next (P := (· = .get c (.done .nothing))) hnext hr with
      hwas | ⟨_, -, hstep, rfl⟩
    · exact h.answered n hwas
    · generalize hwas : m.request n = r at hstep
      cases hstep with
      | get hstep =>
          obtain ⟨rfl, hout⟩ := GetStage.next_nothing hstep
          exact h.woken n hwas hout

/-- A request that starts in such a run keeps every token backed. -/
theorem spawn (h : m.TokenBacked c) {a : MachineOp} {r : Request} (hr : m.Brings a r)
    (hG : m.SequentialUnsignalled c a) : (m.spawn r).TokenBacked c where
  polled := h.polled.spawn hr hG.1
  token htoken := by
    have hnew : ¬ r.Signals c := by
      cases hr with
      | post body _ =>
          unfold servePost
          dsimp only
          split_ifs
          · exact id
          · split <;> exact id
      | _ => exact id
    have hbefore : (m.shared.conn c).polling.wake = true ∨ ∃ n, (m.request n).Signals c :=
      htoken.imp_right fun ⟨n, hn⟩ => ⟨n, of_spawn m hnew hn⟩
    refine (h.token hbefore).imp_right fun ⟨n, wires, hn⟩ => ⟨n, wires, ?_⟩
    have hlt := h.polled.spawned.lt (n := n) (by rw [hn]; simp)
    rwa [spawn_request_of_ne _ _ hlt.ne]
  woken n hn := by
    refine h.woken n (of_spawn (P := (· = .get c .woken)) m ?_ hn)
    rintro rfl
    cases hr
  filled n s hn := by
    by_cases hcount : n = m.shared.requestCount
    · subst hcount
      rw [spawn_request_self] at hn
      subst hn
      cases hr
      trivial
    · rw [spawn_request_of_ne _ _ hcount] at hn
      exact h.filled n s hn
  answered n hn := by
    refine h.answered n (of_spawn (P := (· = .get c (.done .nothing))) m ?_ hn)
    rintro rfl
    cases hr

/-- A new connection has no token. -/
theorem create (h : m.TokenBacked c) {sid : String} (hfresh : m.shared.Fresh sid) :
    TokenBacked c { m with shared := m.shared.create sid } := by
  have hpolled := h.polled.create hfresh
  rcases m.shared.create_conn_cases sid c with heq | ⟨hc, heq⟩
  · refine ⟨hpolled, ?_, ?_, h.filled, h.answered⟩
    · rw [heq]
      exact h.token
    · rw [heq]
      exact h.woken
  · have hno : ¬ c < m.shared.connCount := by simp [hc]
    refine ⟨hpolled, fun htoken => ?_, fun n hn => ?_, h.filled, h.answered⟩
    · rcases htoken with hwake | ⟨n, hn⟩
      · rw [heq] at hwake
        cases hwake
      · exact absurd (signals_lt h.polled.sound hn) hno
    · have hok : Request.Ok m.shared n (.get c .woken) := hn ▸ h.polled.sound.thread (.request n)
      exact absurd hok hno

end TokenBacked

/-- **No poll is empty-handed** in a run of `SequentialUnsignalled`: what a poll returns without
an error is read as a list of packets that is not empty, either the ping of a timer that has
fired, or the packets that were queued. -/
theorem poll_answers (maxPayload : ℤ) (c : ConnRef) (m : Machine)
    (h : Reachable (Guarded (SequentialUnsignalled c) Step) (init maxPayload) m) (n : RequestRef)
    (r : PollResult) (hr : m.request n = .get c (.done r)) (hok : r ≠ .closed) :
    ∃ body packets, r.body = some body ∧ decodeBatch body = .ok packets ∧ packets ≠ [] ∧
      ((r = .heartbeat ∧ packets = [⟨.ping, []⟩]) ∨
        ∃ wires, r = .batch wires ∧ packets.length = wires.length) := by
  have hm : m.TokenBacked c :=
    invariant_next h (.init maxPayload c) .create (fun hm _ _ => hm.spawn) .run
  cases r with
  | closed => exact absurd rfl hok
  | nothing => exact absurd hr (hm.answered n)
  | heartbeat =>
      exact ⟨_, [⟨.ping, []⟩], rfl, by decide +kernel, List.cons_ne_nil _ _, Or.inl ⟨rfl, rfl⟩⟩
  | batch wires =>
      have hclean := hm.polled.clean n
      rw [hr] at hclean
      obtain ⟨packets, hdecode, hlength, -⟩ := decodeBatch_batchBody (hclean rfl)
      refine ⟨_, packets, rfl, hdecode, ?_, Or.inr ⟨wires, rfl, hlength⟩⟩
      have hfilled : wires ≠ [] := hm.filled n _ hr
      rintro rfl
      exact hfilled (List.eq_nil_of_length_eq_zero hlength.symm)

/-- A poll is woken by a message and takes it, and the next one waits for its timer. -/
theorem poll_answers_heartbeat :
    ∃ m, Reachable (Guarded (SequentialUnsignalled 0) Step) (init 100) m ∧
      m.request 1 = .get 0 (.done (.batch [ascii "4a"])) ∧
      m.request 2 = .get 0 (.done .heartbeat) ∧
      ∃ body packets, PollResult.heartbeat.body = some body ∧ decodeBatch body = .ok packets ∧
        packets ≠ [] := by
  obtain ⟨m, hm, hp⟩ := Reachable.of_exec_guarded (G := SequentialUnsignalled 0) step
    (s := init 100)
    (.create "s" :: .send 0 (.write (ascii "a")) :: advance (.request 0) 5 ++
      .get "s" :: .run (.request 1) .go :: .run (.request 1) .signal :: advance (.request 1) 2 ++
      [.get "s", .run (.request 2) .go, .run (.request 2) .timer])
    (p := fun m => m.request 1 = .get 0 (.done (.batch [ascii "4a"])) ∧
      m.request 2 = .get 0 (.done .heartbeat))
    (by decide +kernel)
  obtain ⟨hbatch, hheartbeat⟩ := of_decide_eq_true hp
  obtain ⟨body, packets, hbody, hdecode, hne, -⟩ :=
    poll_answers 100 0 m hm 2 _ hheartbeat (by decide)
  exact ⟨m, hm, hbatch, hheartbeat, body, packets, hbody, hdecode, hne⟩

/-- **Counterexample.**  A message is written, a poll takes it out of the outbox, and the next
poll finds the token: on an open transport, and without an error, its body is empty. -/
theorem poll_empty_handed :
    ∃ m, Reachable Step (init 100) m ∧
      m.request 1 = .get 0 (.done (.batch [ascii "4a"])) ∧
      m.request 2 = .get 0 (.done .nothing) ∧
      (m.shared.conn 0).polling.closed = false ∧
      PollResult.nothing.body = some [] ∧ decodeBatch [] = .ok [] := by
  obtain ⟨m, hm, hp⟩ := Reachable.of_exec step (s := init 100)
    (.create "s" :: .send 0 (.write (ascii "a")) :: advance (.request 0) 5 ++
      .get "s" :: advance (.request 1) 3 ++
      [.get "s", .run (.request 2) .go, .run (.request 2) .signal, .run (.request 2) .go])
    (p := fun m => m.request 1 = .get 0 (.done (.batch [ascii "4a"])) ∧
      m.request 2 = .get 0 (.done .nothing) ∧ (m.shared.conn 0).polling.closed = false)
    (by decide +kernel)
  obtain ⟨hbatch, hnothing, hopen⟩ := of_decide_eq_true hp
  exact ⟨m, hm, hbatch, hnothing, hopen, rfl, by decide +kernel⟩

end Machine

end EngineIO
end GoSocket
