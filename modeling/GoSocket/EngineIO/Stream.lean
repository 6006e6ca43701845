/-
# What a polling peer reads

Between a frame that is queued for a connection and the peer that reads it stand the write
pump, the `Write` of the transport, its outbox, the polls with their bodies, and `DecodeBatch`
of the peer.  Session recovery (`Session/Recovery`) takes all of it for a channel: a connection
that drops has given the peer the frames it was given, up to some point.  Here that is proved
of the polling transport: **what the peer has read is a prefix of what the connection was
given, and while the write pump is there, the rest of it is on its way** (`polled_stream`).

`given` is a history: the replay the pump was started with, and what the send channel took
after it.  Only the pump of a connection writes to its transport, one call after the other, so
that at most one frame is between the pump and the outbox (`Fed.alone`).

A session that is upgraded loses what is in its outbox (`Outbound`), so this is about a
connection that is not; and its polls do not overlap and its frames hold no record separator, as
for `polling_fifo`.
-/

import GoSocket.EngineIO.WritePump

namespace GoSocket

open Lib

namespace EngineIO

namespace WriterStage

/-- The frame the pump is writing, with the call. -/
def frame : WriterStage → Option (RequestRef × Bytes)
  | .replayed n frame _ | .writing n frame => some (n, frame)
  | _ => none

/-- What the pump has taken and not yet put into the outbox of the connection. -/
def unsent (m : Machine) (c : ConnRef) : WriterStage → List Bytes
  | .replaying rest => rest
  | .replayed n frame rest =>
      (if ((m.request n).accepted c).isSome then [] else [frame]) ++ rest
  | .writing n frame => if ((m.request n).accepted c).isSome then [] else [frame]
  | _ => []

/-- What the pump has taken, with the frame it is writing. -/
def pending : WriterStage → List Bytes
  | .replaying rest => rest
  | .replayed _ frame rest => frame :: rest
  | .writing _ frame => [frame]
  | _ => []

/-- A pump with a frame in hand has not returned. -/
theorem not_gone_of_frame {s : WriterStage} {x : RequestRef × Bytes} (h : s.frame = some x) :
    ¬ s.Gone := by
  cases s with
  | replayed | writing => exact id
  | _ => cases h

end WriterStage

namespace Writers

/-- What a step of the pump does to its connection. -/
inductive Pumps (w : Writers) (c : ConnRef) : Machine → WriterStage → Client → Prop where
  | replay {frame : Bytes} {rest : List Bytes} : w.stage c = .replaying (frame :: rest) →
      Pumps w c (w.machine.spawn (.send c (.write frame) .loading))
        (.replayed w.machine.shared.requestCount frame rest) (w.client c)
  | replayed {n : RequestRef} {frame : Bytes} {rest : List Bytes} :
      w.stage c = .replayed n frame rest → (w.machine.request n).result = some true →
      Pumps w c w.machine (.replaying rest)
        { w.client c with written := (w.client c).written ++ [frame] }
  | caughtUp : w.stage c = .replaying [] →
      Pumps w c w.machine .selecting { w.client c with replay := [] }
  | receive {frame : Bytes} {send : List Bytes} : w.stage c = .selecting →
      (w.client c).send = frame :: send →
      Pumps w c (w.machine.spawn (.send c (.write frame) .loading))
        (.writing w.machine.shared.requestCount frame) { w.client c with send := send }
  | wrote {n : RequestRef} {frame : Bytes} :
      w.stage c = .writing n frame → (w.machine.request n).result = some true →
      Pumps w c w.machine .selecting
        { w.client c with written := (w.client c).written ++ [frame] }
  | tick : w.stage c = .selecting →
      Pumps w c (w.machine.spawn (.send c .ping .loading))
        (.pinging w.machine.shared.requestCount) (w.client c)
  | pinged {n : RequestRef} : w.stage c = .pinging n →
      Pumps w c w.machine .selecting (w.client c)
  | gone {s : WriterStage} : s.Gone → w.stage c ≠ .idle →
      (∀ n frame, (w.stage c).frame = some (n, frame) → (w.machine.request n).result ≠ none) →
      Pumps w c w.machine s (w.client c)
  | closing : w.stage c = .closing →
      Pumps w c (w.machine.spawn (.send c .sendClose .loading))
        (.closeFrame w.machine.shared.requestCount) (w.client c)

variable {w w' : Writers} {c : ConnRef}

/-- **Everything a pump can do to its connection.** -/
theorem pumps {k : WriterChoice} (h : w.pumpStep c k (w.stage c) = some w') :
    w.Pumps c w'.machine (w'.stage c) (w'.client c) := by
  -- the pump gives up, or returns
  have hgone : ∀ {s' : WriterStage}, s'.Gone → w.stage c ≠ .idle →
      (∀ n frame, (w.stage c).frame = some (n, frame) → (w.machine.request n).result ≠ none) →
      w.Pumps c (w.setStage c s').machine ((w.setStage c s').stage c)
        ((w.setStage c s').client c) := by
    intro s' hs' hne hdone
    rw [setStage_stage_self]
    exact .gone hs' hne hdone
  generalize hs : w.stage c = s at h
  cases s with
  | idle | returned => cases h
  | replaying rest =>
      cases rest with
      | nil =>
          obtain rfl := Option.some.inj h
          simpa using .caughtUp hs
      | cons frame rest =>
          obtain rfl := Option.some.inj h
          simpa using .replay hs
  | replayed n frame rest =>
      simp only [pumpStep] at h
      split at h
      next hresult =>
        obtain rfl := Option.some.inj h
        simpa [Writers.wrote] using .replayed hs hresult
      next hresult =>
        obtain rfl := Option.some.inj h
        refine hgone trivial (by simp [hs]) fun n frame hn => ?_
        rw [hs] at hn
        cases hn
        simp [hresult]
      next => cases h
  | selecting =>
      simp only [pumpStep] at h
      split at h
      next hsend =>
        obtain rfl := Option.some.inj h
        simpa using .receive hs hsend
      next =>
        obtain ⟨-, h⟩ := Option.ite_none_right_eq_some.1 h
        obtain rfl := Option.some.inj h
        exact hgone trivial (by simp [hs]) (by simp [hs, WriterStage.frame])
      next =>
        obtain rfl := Option.some.inj h
        simpa using .tick hs
  | writing n frame =>
      simp only [pumpStep] at h
      split at h
      next hresult =>
        obtain rfl := Option.some.inj h
        simpa [Writers.wrote] using .wrote hs hresult
      next hresult =>
        obtain rfl := Option.some.inj h
        refine hgone trivial (by simp [hs]) fun n frame hn => ?_
        rw [hs] at hn
        cases hn
        simp [hresult]
      next => cases h
  | pinging n =>
      simp only [pumpStep] at h
      split at h
      next =>
        obtain rfl := Option.some.inj h
        simpa using .pinged hs
      next =>
        obtain rfl := Option.some.inj h
        exact hgone trivial (by simp [hs]) (by simp [hs, WriterStage.frame])
      next => cases h
  | closing =>
      obtain rfl := Option.some.inj h
      simpa using .closing hs
  | closeFrame n =>
      simp only [pumpStep] at h
      split at h
      · obtain rfl := Option.some.inj h
        exact hgone trivial (by simp [hs]) (by simp [hs, WriterStage.frame])
      · cases h

variable {m : Machine} {s : WriterStage} {cl : Client}

/-- The frames the pump goes on with are those it had. -/
theorem Pumps.subset (h : w.Pumps c m s cl) :
    s.pending ++ cl.send ⊆ (w.stage c).pending ++ (w.client c).send := by
  cases h with
  | replay hs | caughtUp hs | tick hs | pinged hs | closing hs => simp [hs, WriterStage.pending]
  | replayed hs => simp [hs, WriterStage.pending]
  | receive hs hsend => simp [hs, hsend, WriterStage.pending]
  | wrote hs => simp [hs, WriterStage.pending]
  | gone hgone =>
      have hnone : s.pending = [] := by
        cases s with
        | closing | closeFrame | returned => rfl
        | _ => exact absurd hgone id
      rw [hnone]
      exact List.subset_append_right ..

/-- The pump goes on without the handler, or calls its transport. -/
theorem Pumps.machine (h : w.Pumps c m s cl) :
    m = w.machine ∨ ∃ o, m = w.machine.spawn (.send c o .loading) ∧
      ∀ data, o = .write data → data ∈ (w.stage c).pending ++ (w.client c).send := by
  cases h with
  | replay hs => exact Or.inr ⟨_, rfl, fun data ho => by cases ho; simp [hs, WriterStage.pending]⟩
  | receive hs hsend =>
      exact Or.inr ⟨_, rfl, fun data ho => by cases ho; simp [hsend]⟩
  | tick | closing => exact Or.inr ⟨_, rfl, nofun⟩
  | _ => exact Or.inl rfl

end Writers

/-- An accepted send is a write on this connection of the data accepted. -/
theorem Request.eq_of_accepted {c d : ConnRef} {o : Outgoing} {t : SendStage} {data : Bytes}
    (h : (Request.send d o t).accepted c = some data) : d = c ∧ o = .write data := by
  unfold Request.accepted at h
  split at h
  next heq =>
    cases heq
    obtain ⟨hd, h⟩ := Option.ite_none_right_eq_some.1 h
    exact ⟨hd, congrArg _ (Option.some.inj h)⟩
  next heq =>
    cases heq
    obtain ⟨hd, h⟩ := Option.ite_none_right_eq_some.1 h
    exact ⟨hd, congrArg _ (Option.some.inj h)⟩
  next => cases h

/-- What is known of a connection between two steps: the stage of its pump, its send channel,
and what it was given. -/
structure Fed (c : ConnRef) (m : Machine) (s : WriterStage) (send given : List Bytes) : Prop where
  made : s ≠ .idle → c < m.shared.connCount
  idle : s = .idle → given = send
  called : ∀ n frame, s.frame = some (n, frame) → ∃ t, m.request n = .send c (.write frame) t
  /-- A `Write` that has not returned is that of the pump. -/
  alone : ∀ n data t, m.request n = .send c (.write data) t → (∀ ok, t ≠ .done ok) →
    s.frame = some (n, data)
  /-- While the pump is there, nothing is lost. -/
  balance : (m.shared.conn c).current = .polling → ¬ s.Gone →
    (m.accepted c).map Prod.snd ++ s.unsent m c ++ send = given
  behind : (m.shared.conn c).current = .polling → (m.accepted c).map Prod.snd <+: given

/-- What a pump has in hand depends only on whether its `Write` is accepted. -/
theorem WriterStage.unsent_congr {s : WriterStage} {m m' : Machine} {c : ConnRef}
    (h : ∀ n frame, s.frame = some (n, frame) →
      (m'.request n).accepted c = (m.request n).accepted c) : s.unsent m' c = s.unsent m c := by
  cases s with
  | replayed | writing => simp only [unsent, h _ _ rfl]
  | _ => rfl

namespace Fed

variable {c : ConnRef} {m : Machine} {s : WriterStage} {send given : List Bytes}

/-- Nothing is given or sent at first. -/
theorem init (maxPayload : ℤ) (c : ConnRef) : Fed c (.init maxPayload) .idle [] [] where
  made h := absurd rfl h
  idle _ := rfl
  called _ _ h := nomatch h
  alone _ _ _ h := nomatch h
  balance _ _ := rfl
  behind _ := List.nil_prefix

/-- A session is made. -/
theorem create (h : Fed c m s send given) (sid : String) :
    Fed c { m with shared := m.shared.create sid } s send given := by
  rcases m.shared.create_conn_cases sid c with heq | ⟨hc, heq⟩
  · have haccepted :
        Machine.accepted { m with shared := m.shared.create sid } c = m.accepted c := by
      rw [Machine.accepted, heq, Machine.accepted]
    refine ⟨fun hs => Nat.lt_succ_of_lt (h.made hs), h.idle, h.called, h.alone,
      fun hcur hs => ?_, fun hcur => ?_⟩
    · rw [haccepted]
      exact h.balance (heq ▸ hcur) hs
    · rw [haccepted]
      exact h.behind (heq ▸ hcur)
  · -- it is the connection itself, whose pump was not started
    have haccepted : Machine.accepted { m with shared := m.shared.create sid } c = [] := by
      rw [Machine.accepted, heq]
      rfl
    have hs : s = .idle := by
      by_contra hs
      exact (h.made hs).ne hc
    subst hs
    refine ⟨fun hs => absurd rfl hs, h.idle, h.called, h.alone, fun _ _ => ?_, fun _ => ?_⟩
    · rw [haccepted]
      exact (h.idle rfl).symm
    · rw [haccepted]
      exact List.nil_prefix

/-- A request that is no `Write` to the connection. -/
theorem spawn (h : Fed c m s send given) (hspawned : m.Spawned) {r : Request}
    (hr : ∀ data t, r ≠ .send c (.write data) t) : Fed c (m.spawn r) s send given := by
  have hsame : ∀ n frame, s.frame = some (n, frame) →
      (m.spawn r).request n = m.request n := by
    intro n frame hn
    obtain ⟨t, ht⟩ := h.called n frame hn
    have hlt := hspawned.lt (n := n) (by rw [ht]; simp)
    exact Machine.spawn_request_of_ne _ _ hlt.ne
  refine ⟨h.made, h.idle, fun n frame hn => ?_, fun n data t hn ht => ?_, fun hcur hs => ?_,
    h.behind⟩
  · rw [hsame n frame hn]
    exact h.called n frame hn
  · exact h.alone n data t (Machine.of_spawn (P := (· = .send c (.write data) t)) m
      (hr data t) hn) ht
  · have hunsent : s.unsent (m.spawn r) c = s.unsent m c :=
      WriterStage.unsent_congr fun n frame hn => by rw [hsame n frame hn]
    rw [hunsent]
    exact h.balance hcur hs

/-- What a step does to the frame that is on its way: nothing, or it is put into the outbox. -/
inductive Passes (c : ConnRef) (m m' : Machine) (s : WriterStage) : Prop where
  | same : (m'.accepted c).map Prod.snd = (m.accepted c).map Prod.snd →
      s.unsent m' c = s.unsent m c → Passes c m m' s
  | put (data : Bytes) : ¬ s.Gone →
      (m'.accepted c).map Prod.snd = (m.accepted c).map Prod.snd ++ [data] →
      s.unsent m c = data :: s.unsent m' c → Passes c m m' s

/-- A step of the handler leaves the frame in hand there, or puts it into the outbox. -/
theorem passes (h : Fed c m s send given) (hsock : ∀ n, ¬ (m.request n).OnSocket c)
    {i : ThreadRef} {l : i.Local} {e : Effect} (hs : ThreadStep m.shared i (m.thread i) l e) :
    Passes c m (m.put i (m.shared.apply e) l) s := by
  rcases Machine.accepted_run hs hsock with
    ⟨hwrites, hsame⟩ | ⟨n, data, hwrites, hnone, hsome, -⟩
  · refine .same ?_ (WriterStage.unsent_congr fun n _ _ => hsame n)
    rw [Machine.accepted, Pool.put_shared, hwrites, Machine.accepted]
  · -- it is the call of the pump, since no other has not returned
    have hframe : s.frame = some (n, data) := by
      rcases Machine.of_put_request (P := fun r => r.accepted c = some data) hs hsome with
        hwas | ⟨r', -, hstep, hr'⟩
      · rw [hnone] at hwas
        cases hwas
      · generalize hr : m.request n = r at hstep
        cases hstep with
        | @send _ d o t _ _ hstep =>
            obtain ⟨rfl, rfl⟩ := Request.eq_of_accepted hr'
            refine h.alone n data _ hr ?_
            rintro ok rfl
            cases hstep
        | _ => cases hr'
    refine .put data ?_ ?_ ?_
    · exact WriterStage.not_gone_of_frame hframe
    · rw [Machine.accepted, Pool.put_shared, hwrites, List.map_append, List.map_append,
        Machine.accepted]
      rfl
    · cases s with
      | replayed | writing =>
          obtain ⟨rfl, rfl⟩ := Prod.mk.inj (Option.some.inj hframe)
          simp [WriterStage.unsent, hnone, hsome]
      | _ => cases hframe

/-- A goroutine goes on: the call of the pump may come to put its frame into the outbox. -/
theorem run (h : Fed c m s send given)
    (hsock : (m.shared.conn c).current = .polling → ∀ n, ¬ (m.request n).OnSocket c)
    {i : ThreadRef} {l : i.Local} {e : Effect} (hs : ThreadStep m.shared i (m.thread i) l e) :
    Fed c (m.put i (m.shared.apply e) l) s send given := by
  have hcalled : ∀ n frame, s.frame = some (n, frame) →
      ∃ t, Machine.request (m.put i (m.shared.apply e) l) n = .send c (.write frame) t := by
    intro n frame hn
    obtain ⟨t, ht⟩ := h.called n frame hn
    refine Machine.put_request (P := fun r => ∃ t, r = .send c (.write frame) t) hs ⟨t, ht⟩
      fun r _ hstep => ?_
    rw [ht] at hstep
    cases hstep with
    | send => exact ⟨_, rfl⟩
  have halone : ∀ n data t,
      Machine.request (m.put i (m.shared.apply e) l) n = .send c (.write data) t →
      (∀ ok, t ≠ .done ok) → s.frame = some (n, data) := by
    intro n data t hn ht
    rcases Machine.of_put_request (P := (· = .send c (.write data) t)) hs hn with
      hwas | ⟨_, -, hstep, rfl⟩
    · exact h.alone n data t hwas ht
    · generalize hr : m.request n = r at hstep
      cases hstep with
      | send hstep =>
          refine h.alone n data _ hr ?_
          rintro ok rfl
          cases hstep
  have hmoves : (m.shared.conn c).current = .polling →
      Fed.Passes c m (m.put i (m.shared.apply e) l) s :=
    fun hcur => h.passes (hsock hcur) hs
  refine ⟨fun hne => by simpa using h.made hne, h.idle, hcalled, halone, fun hcur hgone => ?_,
    fun hcur => ?_⟩
  · have hwas := Memory.polling_of_apply hcur
    rw [← h.balance hwas hgone]
    cases hmoves hwas with
    | same haccepted hunsent => rw [haccepted, hunsent]
    | put _ _ haccepted hunsent => simp [haccepted, hunsent]
  · have hwas := Memory.polling_of_apply hcur
    cases hmoves hwas with
    | same haccepted => rw [haccepted]; exact h.behind hwas
    | put _ hgone haccepted hunsent =>
        rw [← h.balance hwas hgone, haccepted, hunsent]
        simp

/-- The pump calls `Write` with the next frame. -/
theorem write (h : Fed c m s send given) (hc : c < m.shared.connCount)
    {frame : Bytes} {s' : WriterStage} {send' : List Bytes} (hs : s.frame = none)
    (hgone : ¬ s.Gone) (hs' : s'.frame = some (m.shared.requestCount, frame))
    (hunsent : s.unsent m c ++ send =
      s'.unsent (m.spawn (.send c (.write frame) .loading)) c ++ send') :
    Fed c (m.spawn (.send c (.write frame) .loading)) s' send' given where
  made _ := hc
  idle hidle := by
    rw [hidle] at hs'
    cases hs'
  called n data hn := by
    obtain ⟨rfl, rfl⟩ := Prod.mk.inj (Option.some.inj (hs'.symm.trans hn))
    exact ⟨.loading, Machine.spawn_request_self ..⟩
  alone n data t hn ht := by
    by_cases heq : n = m.shared.requestCount
    · subst heq
      rw [Machine.spawn_request_self] at hn
      cases hn
      exact hs'
    · rw [Machine.spawn_request_of_ne _ _ heq] at hn
      rw [h.alone n data t hn ht] at hs
      cases hs
  balance hcur _ := by
    rw [List.append_assoc, ← hunsent, ← List.append_assoc]
    exact h.balance hcur hgone
  behind := h.behind

/-- The pump goes on with the frames that are left. -/
theorem move (h : Fed c m s send given) {s' : WriterStage} {send' : List Bytes}
    (hs : s ≠ .idle) (hs' : s' ≠ .idle) (hframe : s'.frame = none)
    (hdone : ∀ n data, s.frame = some (n, data) → (m.request n).result ≠ none)
    (hunsent : ¬ s'.Gone → ¬ s.Gone ∧ s.unsent m c ++ send = s'.unsent m c ++ send') :
    Fed c m s' send' given where
  made _ := h.made hs
  idle hidle := absurd hidle hs'
  called n frame hn := by
    rw [hframe] at hn
    cases hn
  alone n data t hn ht := by
    -- the call has returned
    have hwas := h.alone n data t hn ht
    refine absurd ?_ (hdone n data hwas)
    rw [hn]
    cases t with
    | done ok => exact absurd rfl (ht ok)
    | _ => rfl
  balance hcur hgone' := by
    obtain ⟨hgone, heq⟩ := hunsent hgone'
    rw [List.append_assoc, ← heq, ← List.append_assoc]
    exact h.balance hcur hgone
  behind := h.behind

/-- The send channel takes a frame. -/
theorem enqueue (h : Fed c m s send given) (frame : Bytes) :
    Fed c m s (send ++ [frame]) (given ++ [frame]) where
  made := h.made
  idle hs := by rw [h.idle hs]
  called := h.called
  alone := h.alone
  balance hcur hgone := by
    rw [← List.append_assoc, h.balance hcur hgone]
  behind hcur := (h.behind hcur).trans (List.prefix_append ..)

/-- The pump is started. -/
theorem start (h : Fed c m .idle send given) (hc : c < m.shared.connCount) (replay : List Bytes) :
    Fed c m (.replaying replay) send (replay ++ given) := by
  obtain rfl := h.idle rfl
  have hnone : (m.shared.conn c).current = .polling → (m.accepted c).map Prod.snd = [] := by
    intro hcur
    have hbalance : (m.accepted c).map Prod.snd ++ [] ++ given = given := h.balance hcur id
    rw [List.append_nil] at hbalance
    exact List.append_left_eq_self.1 hbalance
  refine ⟨fun _ => hc, nofun, nofun, fun n data t hn ht => ?_, fun hcur _ => ?_, fun hcur => ?_⟩
  · cases h.alone n data t hn ht
  · rw [hnone hcur]
    rfl
  · rw [hnone hcur]
    exact List.nil_prefix

/-- The frame of a call that has returned nil is in the outbox. -/
theorem accepted (h : Fed c m s send given) {n : RequestRef} {frame : Bytes}
    (hframe : s.frame = some (n, frame)) (hresult : (m.request n).result = some true) :
    (m.request n).accepted c = some frame := by
  obtain ⟨t, ht⟩ := h.called n frame hframe
  rw [ht] at hresult ⊢
  cases t with
  | done ok =>
      obtain rfl : ok = true := Option.some.inj hresult
      exact if_pos rfl
  | _ => cases hresult

/-- **What a step of the pump keeps.** -/
theorem pump {w : Writers} {cl : Client}
    (h : Fed c w.machine (w.stage c) (w.client c).send given) (hspawned : w.machine.Spawned)
    (hc : c < w.machine.shared.connCount) (hp : w.Pumps c m s cl) : Fed c m s cl.send given := by
  cases hp with
  | replay hs =>
      rw [hs] at h
      refine h.write hc rfl id rfl ?_
      simp [WriterStage.unsent, Request.accepted]
  | replayed hs hresult =>
      rw [hs] at h
      have haccepted := h.accepted rfl hresult
      refine h.move (by simp) (by simp) rfl (fun n data hn => ?_) fun _ => ⟨id, ?_⟩
      · cases hn
        simp [hresult]
      · simp [WriterStage.unsent, haccepted]
  | caughtUp hs =>
      rw [hs] at h
      exact h.move (by simp) (by simp) rfl (by simp [WriterStage.frame]) fun _ => ⟨id, rfl⟩
  | receive hs hsend =>
      rw [hs] at h
      refine h.write hc rfl id rfl ?_
      simp [WriterStage.unsent, Request.accepted, hsend]
  | wrote hs hresult =>
      rw [hs] at h
      have haccepted := h.accepted rfl hresult
      refine h.move (by simp) (by simp) rfl (fun n data hn => ?_) fun _ => ⟨id, ?_⟩
      · cases hn
        simp [hresult]
      · simp [WriterStage.unsent, haccepted]
  | tick hs =>
      rw [hs] at h
      exact (h.spawn hspawned (by simp)).move (by simp) (by simp) rfl
        (by simp [WriterStage.frame]) fun _ => ⟨id, rfl⟩
  | pinged hs =>
      rw [hs] at h
      exact h.move (by simp) (by simp) rfl (by simp [WriterStage.frame]) fun _ => ⟨id, rfl⟩
  | gone hgone hne hdone =>
      refine h.move hne ?_ ?_ hdone fun hs => absurd hgone hs
      · rintro rfl
        exact hgone
      · cases s <;> first | rfl | exact absurd hgone id
  | closing hs =>
      rw [hs] at h
      exact (h.spawn hspawned (by simp)).move (by simp) (by simp) rfl
        (by simp [WriterStage.frame]) fun hs => absurd trivial hs

end Fed

/-- The pumps, with what each connection was given to write. -/
structure Stream where
  writers : Writers
  given : ConnRef → List Bytes

namespace Stream

def init (maxPayload sendBuffer : ℤ) : Stream where
  writers := .init maxPayload sendBuffer
  given := fun _ => []

/-- What a connection is given: the replay comes before what the send channel has taken. -/
def record (x : Stream) : WritersOp → ConnRef → List Bytes
  | .start c replay => Function.update x.given c (replay ++ x.given c)
  | .enqueue c frame =>
      if ((x.writers.client c).enqueue frame).2 = .ok then
        Function.update x.given c (x.given c ++ [frame])
      else x.given
  | _ => x.given

def step (x : Stream) (a : WritersOp) : Option Stream :=
  (x.writers.step a).map fun w => ⟨w, x.record a⟩

/-- The step relation with the history. -/
def Step (x : Stream) (a : WritersOp) (x' : Stream) : Prop := x.step a = some x'

/-- The polls of the connection do not overlap, and its frames hold no separator. -/
def SequentialUnseparated (c : ConnRef) (x : Stream) : WritersOp → Prop
  | .handler b => x.writers.machine.Sequential c b
  | .start d replay => d = c → ∀ frame ∈ replay, recordSeparator ∉ frame
  | .enqueue d frame => d = c → recordSeparator ∉ frame
  | _ => True

instance (c : ConnRef) (x : Stream) (a : WritersOp) : Decidable (SequentialUnseparated c x a) := by
  unfold SequentialUnseparated
  split <;> infer_instance

variable {x x' : Stream} {a : WritersOp} {c : ConnRef}

/-- What is known between two steps of a run of `SequentialUnseparated`. -/
structure Inv (maxPayload : ℤ) (c : ConnRef) (x : Stream) : Prop where
  machine : Reachable (Guarded (Machine.Sequential c) Machine.Step) (.init maxPayload)
    x.writers.machine
  clean : ∀ frame ∈ (x.writers.stage c).pending ++ (x.writers.client c).send,
    recordSeparator ∉ frame
  fed : Fed c x.writers.machine (x.writers.stage c) (x.writers.client c).send (x.given c)

namespace Inv

variable {maxPayload : ℤ}

/-- The connection's polls are in order. -/
theorem polled (h : x.Inv maxPayload c) : x.writers.machine.Polled c :=
  .of_reachable h.machine fun _ _ => id

/-- A step of the machine extends its run. -/
theorem snoc (h : x.Inv maxPayload c) {b : MachineOp} {m : Machine}
    (hb : x.writers.machine.Sequential c b) (hstep : x.writers.machine.Step b m) :
    Reachable (Guarded (Machine.Sequential c) Machine.Step) (.init maxPayload) m :=
  h.machine.trans (.head ⟨hb, hstep⟩ (.refl m))

section view

variable {m : Machine} {s : WriterStage} {send given : List Bytes}

/-- Only the handler and the connection itself matter. -/
theorem of_view (hm : Reachable (Guarded (Machine.Sequential c) Machine.Step) (.init maxPayload) m)
    (hclean : ∀ frame ∈ s.pending ++ send, recordSeparator ∉ frame)
    (hfed : Fed c m s send given) (hmachine : x'.writers.machine = m)
    (hstage : x'.writers.stage c = s) (hsend : (x'.writers.client c).send = send)
    (hgiven : x'.given c = given) : x'.Inv maxPayload c := by
  subst hmachine hstage hsend hgiven
  exact ⟨hm, hclean, hfed⟩

end view

/-- Before the upgrade no call is on a WebSocket. -/
theorem off_socket (h : x.Inv maxPayload c)
    (hcur : (x.writers.machine.shared.conn c).current = .polling) (n : RequestRef) :
    ¬ (x.writers.machine.request n).OnSocket c := fun hn =>
  (Machine.Direct.of_reachable h.machine (Machine.onSocket_lt h.polled.sound hn) hcur).polling n hn

/-- A step of the handler. -/
theorem handler (h : x.Inv maxPayload c) {b : MachineOp} {m : Machine} (hb : Writers.Handles b)
    (hseq : x.writers.machine.Sequential c b) (hstep : x.writers.machine.Step b m) :
    Inv maxPayload c ⟨{ x.writers with machine := m }, x.given⟩ := by
  refine ⟨h.snoc hseq hstep, h.clean, ?_⟩
  have hspawned := h.polled.spawned
  -- a poll or a POST writes nothing
  have hpolling : ∀ sid (f : ConnRef → Request), (∀ d data t, f d ≠ .send c (.write data) t) →
      ∀ data t, x.writers.machine.polling sid f ≠ .send c (.write data) t := by
    intro sid f hf data t
    unfold Machine.polling
    split
    · exact hf _ data t
    · simp
  cases hstep.took with
  | create => exact h.fed.create _
  | get sid | post sid body => exact h.fed.spawn hspawned (hpolling sid _ (by simp))
  | upgrade sid => exact h.fed.spawn hspawned (by simp)
  | send => exact absurd hb id
  | run hnext => exact h.fed.run h.off_socket (ThreadRef.took hnext)

/-- A step of the pump of another connection. -/
theorem other (h : x.Inv maxPayload c) {d : ConnRef} {w : Writers} (hcd : c ≠ d)
    (hd : d < x.writers.machine.shared.connCount) (hp : x.writers.Pumped d w) :
    Inv maxPayload c ⟨w, x.given⟩ := by
  have hspawned := h.polled.spawned
  have hcall : ∀ o, Reachable (Guarded (Machine.Sequential c) Machine.Step) (.init maxPayload)
      (x.writers.machine.spawn (.send d o .loading)) := by
    intro o
    refine h.snoc (b := .send d o) ?_ (if_pos hd)
    cases o with
    | write data => exact fun hdc => absurd hdc.symm hcd
    | _ => trivial
  have hne : ∀ {o data t}, Request.send d o .loading ≠ .send c (.write data) t := by
    simp [hcd.symm]
  cases hp with
  | @call o f cl =>
      refine of_view (hcall o) h.clean (h.fed.spawn hspawned fun _ _ => hne) rfl
        (Writers.call_stage_of_ne _ _ _ hcd) ?_ rfl
      rw [Writers.call_client, Writers.setClient_client_of_ne _ _ hcd]
  | closeFrame =>
      exact of_view (hcall .sendClose) h.clean (h.fed.spawn hspawned fun _ _ => hne) rfl
        (Writers.call_stage_of_ne _ _ _ hcd) rfl rfl
  | moved =>
      refine of_view h.machine h.clean h.fed rfl (Writers.setStage_stage_of_ne _ _ hcd) ?_ rfl
      rw [Writers.setStage_client, Writers.setClient_client_of_ne _ _ hcd]

/-- A step of the pump of the connection. -/
theorem pump (h : x.Inv maxPayload c) {w : Writers} {k : WriterChoice}
    (hc : c < x.writers.machine.shared.connCount)
    (hstep : x.writers.pumpStep c k (x.writers.stage c) = some w) :
    Inv maxPayload c ⟨w, x.given⟩ := by
  have hp := Writers.pumps hstep
  refine ⟨?_, fun frame hframe => h.clean frame (hp.subset hframe), ?_⟩
  · rcases hp.machine with heq | ⟨o, heq, ho⟩
    · exact heq ▸ h.machine
    · rw [heq]
      refine h.snoc (b := .send c o) ?_ (if_pos hc)
      cases o with
      | write data => exact fun _ => h.clean data (ho data rfl)
      | _ => trivial
  · exact h.fed.pump h.polled.spawned hc hp

/-- Queueing a frame without a separator keeps the invariant. -/
theorem enqueue (h : x.Inv maxPayload c) {d : ConnRef} {frame : Bytes}
    (hclean : d = c → recordSeparator ∉ frame) :
    Inv maxPayload c ⟨x.writers.setClient d ((x.writers.client d).enqueue frame).1,
      x.record (.enqueue d frame)⟩ := by
  by_cases hcd : c = d
  · subst hcd
    have hself := Writers.setClient_client_self x.writers (c := c)
      ((x.writers.client c).enqueue frame).1
    rcases (x.writers.client c).enqueue_cases frame with ⟨hok, hsend⟩ | ⟨hno, hsend⟩
    · refine of_view h.machine ?_ (h.fed.enqueue frame) rfl rfl (by rw [hself, hsend]) ?_
      · rw [← List.append_assoc]
        intro data hdata
        rcases List.mem_append.1 hdata with hdata | hdata
        · exact h.clean data hdata
        · exact List.mem_singleton.1 hdata ▸ hclean rfl
      · rw [record, if_pos hok]
        exact Function.update_self ..
    · refine of_view h.machine h.clean h.fed rfl rfl (by rw [hself, hsend]) ?_
      rw [record, if_neg hno]
  · refine of_view h.machine h.clean h.fed rfl rfl
      (by rw [Writers.setClient_client_of_ne _ _ hcd]) ?_
    dsimp only [record]
    split_ifs
    · exact Function.update_of_ne hcd ..
    · rfl

/-- Starting a pump keeps the invariant: its replay comes before what is queued. -/
theorem start (h : x.Inv maxPayload c) {d : ConnRef} {replay : List Bytes}
    (hd : d < x.writers.machine.shared.connCount) (hidle : x.writers.stage d = .idle)
    (hclean : d = c → ∀ frame ∈ replay, recordSeparator ∉ frame) :
    Inv maxPayload c
      ⟨(x.writers.setClient d { x.writers.client d with replay := replay }).setStage d
        (.replaying replay), x.record (.start d replay)⟩ := by
  by_cases hcd : c = d
  · subst hcd
    have hfed := h.fed
    have hold := h.clean
    rw [hidle] at hfed hold
    refine of_view h.machine ?_ (hfed.start hd replay) rfl (Writers.setStage_stage_self ..) ?_
      (Function.update_self ..)
    · intro data hdata
      rcases List.mem_append.1 hdata with hdata | hdata
      · exact hclean rfl data hdata
      · exact hold data hdata
    · rw [Writers.setStage_client, Writers.setClient_client_self]
  · refine of_view h.machine h.clean h.fed rfl (Writers.setStage_stage_of_ne _ _ hcd) ?_
      (Function.update_of_ne hcd ..)
    rw [Writers.setStage_client, Writers.setClient_client_of_ne _ _ hcd]

/-- Every step keeps the invariant. -/
theorem step (h : x.Inv maxPayload c) (hstep : Guarded (SequentialUnseparated c) Step x a x') :
    x'.Inv maxPayload c := by
  obtain ⟨hguard, hstep⟩ := hstep
  obtain ⟨w, hw, rfl⟩ := Option.map_eq_some_iff.1 hstep
  unfold Writers.step at hw
  cases a with
  | handler b =>
      obtain ⟨hb, hw⟩ := Option.ite_none_right_eq_some.1 hw
      obtain ⟨m, hm, rfl⟩ := Option.map_eq_some_iff.1 hw
      exact h.handler hb hguard hm
  | start d replay =>
      obtain ⟨⟨hd, hidle⟩, hw⟩ := Option.ite_none_right_eq_some.1 hw
      obtain rfl := Option.some.inj hw
      exact h.start hd hidle hguard
  | enqueue d frame =>
      obtain rfl := Option.some.inj hw
      exact h.enqueue hguard
  | closeSend d =>
      obtain ⟨-, hw⟩ := Option.ite_none_right_eq_some.1 hw
      obtain rfl := Option.some.inj hw
      refine of_view h.machine h.clean h.fed rfl rfl ?_ rfl
      by_cases hcd : c = d
      · subst hcd
        rw [Writers.setClient_client_self]
        rfl
      · rw [Writers.setClient_client_of_ne _ _ hcd]
  | pump d k =>
      obtain ⟨hd, hw⟩ := Option.ite_none_right_eq_some.1 hw
      by_cases hcd : c = d
      · subst hcd
        exact h.pump hd hw
      · exact h.other hcd hd (Writers.pumped hw)

end Inv

/-- **What a polling peer reads is a prefix of what its connection was given**, on a connection
that is not upgraded, whose polls do not overlap and whose frames hold no separator.  Every body
is read without an error.  As long as the write pump has not given up, what was given and not
read is in the outbox, with the pump, or in the send channel, in this order. -/
theorem polled_stream (maxPayload sendBuffer : ℤ) (c : ConnRef) (x : Stream)
    (h : Reachable (Guarded (SequentialUnseparated c) Step) (init maxPayload sendBuffer) x)
    (hc : c < x.writers.machine.shared.connCount)
    (hcur : (x.writers.machine.shared.conn c).current = .polling) :
    (∀ body ∈ x.writers.machine.bodies c, ∃ packets, decodeBatch body = .ok packets) ∧
    (x.writers.machine.bodies c).flatMap bodyMessages <+: x.given c ∧
    (¬ (x.writers.stage c).Gone →
      (x.writers.machine.bodies c).flatMap bodyMessages ++
          messages (x.writers.machine.shared.conn c).polling.outbox ++
          (x.writers.stage c).unsent x.writers.machine c ++ (x.writers.client c).send =
        x.given c) := by
  have hinv : x.Inv maxPayload c :=
    h.invariant ⟨.refl _, fun _ hmem => (List.not_mem_nil hmem).elim, .init maxPayload c⟩
      fun _ _ _ hx hstep => hx.step hstep
  have hread : (x.writers.machine.bodies c).flatMap bodyMessages ++
      messages (x.writers.machine.shared.conn c).polling.outbox =
        (x.writers.machine.accepted c).map Prod.snd := by
    rw [hinv.polled.bodyMessages_bodies,
      ← (Machine.Direct.of_reachable hinv.machine hc hcur).payloads_eq]
    exact hinv.polled.queued.symm
  refine ⟨hinv.polled.decodeBatch_bodies, ?_, fun hgone => ?_⟩
  · exact (hread ▸ List.prefix_append ..).trans (hinv.fed.behind hcur)
  · rw [hread]
    exact hinv.fed.balance hcur hgone

/-- The replayed frame comes with a poll; the one behind it is in the outbox, and the pump does
not know yet that its call was good; a third frame is in the send channel. -/
theorem polled_stream_replay_then_send :
    ∃ x, Reachable (Guarded (SequentialUnseparated 0) Step) (init 100 256) x ∧
      (x.writers.machine.bodies 0).flatMap bodyMessages = [ascii "a"] ∧
      x.given 0 = [ascii "a", ascii "b", ascii "c"] ∧
      (x.writers.machine.bodies 0).flatMap bodyMessages ++
          messages (x.writers.machine.shared.conn 0).polling.outbox ++
          (x.writers.stage 0).unsent x.writers.machine 0 ++ (x.writers.client 0).send =
        x.given 0 := by
  obtain ⟨x, hx, hp⟩ := Reachable.of_exec_guarded (G := SequentialUnseparated 0) step
    (s := init 100 256)
    (.handler (.create "s") :: .enqueue 0 (ascii "b") :: .start 0 [ascii "a"] ::
      .pump 0 .receive :: Writers.advance (.request 0) 5 ++
      .pump 0 .receive :: .pump 0 .receive :: .pump 0 .receive :: .handler (.get "s") ::
      Writers.advance (.request 2) 3 ++ Writers.advance (.request 1) 5 ++ [.enqueue 0 (ascii "c")])
    (p := fun x => 0 < x.writers.machine.shared.connCount ∧
      (x.writers.machine.shared.conn 0).current = .polling ∧
      (x.writers.machine.bodies 0).flatMap bodyMessages = [ascii "a"] ∧
      x.given 0 = [ascii "a", ascii "b", ascii "c"] ∧
      x.writers.stage 0 = .writing 1 (ascii "b"))
    (by decide +kernel)
  obtain ⟨hc, hcur, hread, hgiven, hstage⟩ := of_decide_eq_true hp
  obtain ⟨-, -, hbalance⟩ := polled_stream 100 256 0 x hx hc hcur
  exact ⟨x, hx, hread, hgiven, hbalance (by rw [hstage]; exact id)⟩

end Stream

end EngineIO
end GoSocket
