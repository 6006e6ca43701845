/-
# What a POST has delivered is read

`deliverInbound` puts a message into the inbox of the polling transport, the POST is
answered with `ok`, and the read pump takes the message out with `Read`.  Nothing is
lost or reordered between the two: what `Read` has returned is at any time the first
part of what was accepted, and the rest is in the inbox (`Heard.flow`).

But `Read` looks at the flag before it looks at the inbox, and its `select` may choose
the upgrade signal while there are messages.  So the messages that are in the inbox
when `Close` sets the flag are never read (`message_dropped`), and neither are those
that are there, or are put there by a POST that is still running, when `applyUpgrade`
swaps the transport.  If the inbox is empty and no POST is about to add to it at those
two moments, then whenever the polling side reports its end to the pump, or the pump
has gone over to the WebSocket, everything accepted has been returned
(`inbound_read`).
-/

import GoSocket.EngineIO.Teardown

namespace GoSocket

open Lib

namespace EngineIO

/-- The request is a POST to the connection that has found the transport open and is to
put a message into the inbox. -/
def Request.Delivers (c : ConnRef) : Request → Prop
  | .post _ d (.delivering ..) => d = c
  | _ => False

instance (c : ConnRef) (r : Request) : Decidable (r.Delivers c) := by
  unfold Request.Delivers
  split <;> infer_instance

/-- The request is a POST to the connection that has not returned. -/
def Request.Posts (c : ConnRef) : Request → Prop
  | .post _ _ (.done _) => False
  | .post _ d _ => d = c
  | _ => False

instance (c : ConnRef) (r : Request) : Decidable (r.Posts c) := by
  unfold Request.Posts
  split <;> infer_instance

/-- A POST that is delivering is a POST. -/
theorem Request.Delivers.posts {c : ConnRef} : {r : Request} → r.Delivers c → r.Posts c
  | .post _ _ (.delivering ..), h => h

/-- Accepted messages have been returned or are in the inbox. -/
def Conn.Flow (s : Conn) : Prop := s.accepted = s.returned ++ s.polling.inbox

/-- Every effect on a connection keeps its accepted messages those returned and those in the
inbox. -/
theorem Conn.Flow.apply {s : Conn} (h : s.Flow) (b : ConnEffect) : (s.apply b).Flow := by
  unfold Conn.Flow at h ⊢
  cases b with
  | accept data => simp [Conn.apply, h]
  | receive => cases hin : s.polling.inbox <;> simp [Conn.apply, h, hin]
  | _ => exact h

namespace Memory

variable {m : Memory} {e : Effect} {c : ConnRef}

/-- Every effect keeps a connection's accepted messages those returned and those in the inbox. -/
theorem flow_apply (h : (m.conn c).Flow) : ((m.apply e).conn c).Flow :=
  apply_of (fun _ _ => id) (fun b _ => h.apply b) h

/-- Only `deliverInbound` puts something into an inbox. -/
theorem inbox_apply (h : (m.conn c).polling.inbox = []) :
    ((m.apply e).conn c).polling.inbox = [] ∨ ∃ data, e = .conn c (.accept data) := by
  rcases m.conn_apply e c with heq | ⟨b, rfl, heq⟩ | ⟨n, w, bytes, -, heq⟩
  · exact Or.inl (heq ▸ h)
  · cases b with
    | accept data => exact Or.inr ⟨data, rfl⟩
    | receive => exact Or.inl (by simp [heq, Conn.apply, h])
    | _ => exact Or.inl (by rw [heq]; exact h)
  · exact Or.inl (by rw [heq]; exact h)

/-- The inbox is closed by `closeInbox` alone. -/
theorem inboxClosed_of_apply (h : ((m.apply e).conn c).polling.inboxClosed = true) :
    (m.conn c).polling.inboxClosed = true ∨ e = .conn c .closeInbox := by
  rcases of_apply (P := fun s => s.polling.inboxClosed = true) (fun _ _ => id) h with
    hwas | ⟨b, rfl, hb⟩
  · exact Or.inl hwas
  · cases b with
    | closeInbox => exact Or.inr rfl
    | _ => exact Or.inl hb

/-- The upgrade signal is given by `signal` alone. -/
theorem upgrade_of_apply (h : ((m.apply e).conn c).polling.upgrade = true) :
    (m.conn c).polling.upgrade = true ∨ e = .conn c .signal := by
  rcases of_apply (P := fun s => s.polling.upgrade = true) (fun _ _ => id) h with
    hwas | ⟨b, rfl, hb⟩
  · exact Or.inl hwas
  · cases b with
    | signal => exact Or.inr rfl
    | upgraded => cases hb
    | _ => exact Or.inl hb

/-- The polling transport's reads end in an EOF or in the upgrade. -/
theorem ended_of_apply (h : ((m.apply e).conn c).ended = true) :
    (m.conn c).ended = true ∨ e = .conn c .eof ∨ e = .conn c .upgraded := by
  rcases of_apply (P := fun s => s.ended = true) (fun _ _ => id) h with hwas | ⟨b, rfl, hb⟩
  · exact Or.inl hwas
  · cases b with
    | eof => exact Or.inr (Or.inl rfl)
    | upgraded => exact Or.inr (Or.inr rfl)
    | _ => exact Or.inl hb

end Memory

namespace Machine

variable {m : Machine} {c : ConnRef}

/-- The inbox is empty and no POST is about to add to it. -/
def InboxEmpty (m : Machine) (c : ConnRef) : Prop :=
  (m.shared.conn c).polling.inbox = [] ∧ ∀ n < m.shared.requestCount, ¬ (m.request n).Delivers c

/-- The inbox is empty and every POST to the connection has returned. -/
def InboxFinished (m : Machine) (c : ConnRef) : Prop :=
  (m.shared.conn c).polling.inbox = [] ∧ ∀ n < m.shared.requestCount, ¬ (m.request n).Posts c

instance (m : Machine) (c : ConnRef) : Decidable (m.InboxEmpty c) :=
  inferInstanceAs (Decidable (_ ∧ _))

instance (m : Machine) (c : ConnRef) : Decidable (m.InboxFinished c) :=
  inferInstanceAs (Decidable (_ ∧ _))

/-- What `EndsOnEmptyInbox` asks of a request where it is. -/
def RequestEndsOnEmptyInbox (m : Machine) : Request → Prop
  | .post _ c (.closing .swap) => (m.shared.conn c).polling.closed = false → m.InboxEmpty c
  | .upgrade _ (.swapping c _) => m.InboxFinished c
  | _ => True

instance (m : Machine) (r : Request) : Decidable (m.RequestEndsOnEmptyInbox r) := by
  induction r using Request.casesOn with
  | post _ _ s =>
      induction s using PostStage.casesOn with
      | closing s =>
          induction s using CloseStage.casesOn <;> dsimp only [RequestEndsOnEmptyInbox] <;>
            infer_instance
      | _ => dsimp only [RequestEndsOnEmptyInbox]; infer_instance
  | upgrade _ s =>
      induction s using UpgradeStage.casesOn <;> dsimp only [RequestEndsOnEmptyInbox] <;>
        infer_instance
  | _ => dsimp only [RequestEndsOnEmptyInbox]; infer_instance

/-- What `EndsOnEmptyInbox` asks of `closeRaw` where it is. -/
def CloserEndsOnEmptyInbox (m : Machine) (c : ConnRef) : CloserStage → Prop
  | .polling .swap => (m.shared.conn c).polling.closed = false → m.InboxEmpty c
  | _ => True

instance (m : Machine) (c : ConnRef) (s : CloserStage) :
    Decidable (m.CloserEndsOnEmptyInbox c s) := by
  induction s using CloserStage.casesOn with
  | polling s =>
      induction s using CloseStage.casesOn <;> dsimp only [CloserEndsOnEmptyInbox] <;>
        infer_instance
  | _ => dsimp only [CloserEndsOnEmptyInbox]; infer_instance

/-- When `Close` is to set the flag of a polling transport its inbox is empty and no POST is
about to add to it; when `applyUpgrade` is to swap the transport the inbox is empty and
every POST has returned. -/
def EndsOnEmptyInbox (m : Machine) : MachineOp → Prop
  | .run (.request n) _ => m.RequestEndsOnEmptyInbox (m.request n)
  | .run (.closer c) _ => m.CloserEndsOnEmptyInbox c (m.closer c)
  | _ => True

instance (m : Machine) (a : MachineOp) : Decidable (m.EndsOnEmptyInbox a) := by
  induction a using MachineOp.casesOn with
  | run i =>
      induction i using ThreadRef.casesOn <;> dsimp only [EndsOnEmptyInbox] <;> infer_instance
  | _ => dsimp only [EndsOnEmptyInbox]; infer_instance

section run

variable {i : ThreadRef} {l : i.Local} {e : Effect} {n : RequestRef}

/-- A POST is about to add to the inbox only after it has found the transport open. -/
theorem delivers_of_run (hs : ThreadStep m.shared i (m.thread i) l e)
    (h : (request (m.put i (m.shared.apply e) l) n).Delivers c) :
    (m.request n).Delivers c ∨ ((m.shared.conn c).polling.closed = false ∧ e = .nothing) := by
  rcases of_put_request hs h with hwas | ⟨r', -, hreq, hr'⟩
  · exact Or.inl hwas
  · generalize m.request n = r at hreq
    cases hreq with
    | post hs =>
        cases hs with
        | message rest hopen =>
            obtain rfl : _ = c := hr'
            exact Or.inr ⟨hopen, rfl⟩
        | _ => exact absurd hr' id
    | _ => exact absurd hr' id

/-- A POST that is running was running before. -/
theorem posts_of_run (hs : ThreadStep m.shared i (m.thread i) l e)
    (h : (request (m.put i (m.shared.apply e) l) n).Posts c) : (m.request n).Posts c := by
  rcases of_put_request hs h with hwas | ⟨r', -, hreq, hr'⟩
  · exact hwas
  · generalize m.request n = r at hreq
    cases hreq with
    | post hs => cases hs <;> first | exact hr' | exact absurd hr' id
    | _ => exact absurd hr' id

/-- Someone who is about to remove the sid has set the flag, in this step or before. -/
theorem removing_of_run (hs : ThreadStep m.shared i (m.thread i) l e)
    (h : Removing (m.put i (m.shared.apply e) l) c) : m.Removing c ∨ e = .conn c .close := by
  rcases h with ⟨n, hn⟩ | hc
  · rcases of_put_request hs hn with hwas | ⟨r', -, hreq, hr'⟩
    · exact Or.inl (Or.inl ⟨n, hwas⟩)
    · generalize hr : m.request n = r at hreq
      cases hreq with
      | post hs =>
          cases hs with
          | close => exact absurd rfl hr'.2
          | closing hs =>
              obtain ⟨rfl, -⟩ := hr'
              cases hs with
              | swap => exact Or.inr rfl
              | closeInbox => exact Or.inl (Or.inl ⟨n, by rw [hr]; exact ⟨rfl, by simp⟩⟩)
          | _ => exact absurd hr' id
      | _ => exact absurd hr' id
  · by_cases hi : i = .closer c
    · subst hi
      rw [closer_put_self] at hc
      generalize hr : m.thread (.closer c) = s at hs
      cases hs with
      | closer _ hs =>
          cases hs with
          | polling => exact absurd rfl hc
          | closing hs =>
              cases hs with
              | swap => exact Or.inr rfl
              | closeInbox => exact Or.inl (Or.inr (by simp [closer, hr, CloserStage.Removes]))
          | _ => exact absurd hc id
    · rw [closer_put_of_ne _ _ _ hi] at hc
      exact Or.inl (Or.inr hc)

end run

/-- Only a connection there is is being closed. -/
theorem removing_lt (hsound : m.Sound) (hspawned : m.Spawned) (hrem : m.Removing c) :
    c < m.shared.connCount := by
  rcases hrem with ⟨n, hn⟩ | hrem
  · have hok : (m.request n).Ok m.shared n := hsound.thread (.request n)
    generalize m.request n = r at hn hok
    cases r with
    | post sid d s =>
        cases s with
        | closing e =>
            obtain ⟨rfl, -⟩ := hn
            exact hok.1
        | _ => exact absurd hn id
    | _ => exact absurd hn id
  · refine Nat.lt_of_not_le fun hle => ?_
    rw [hspawned.closer c hle] at hrem
    exact hrem

/-- What is known of `Close` on the polling side between two steps of any run: it sets the flag
before anything else. -/
structure FlagFirst (m : Machine) : Prop where
  sound : m.Sound
  spawned : m.Spawned
  removing : ∀ c, m.Removing c → (m.shared.conn c).polling.closed = true
  inboxClosed : ∀ c, (m.shared.conn c).polling.inboxClosed = true →
    (m.shared.conn c).polling.closed = true

namespace FlagFirst

/-- No inbox is closed at first. -/
theorem init (maxPayload : ℤ) : (Machine.init maxPayload).FlagFirst where
  sound := sound_init maxPayload
  spawned := .init maxPayload
  removing _ h := by rcases h with ⟨_, h⟩ | h <;> exact absurd h id
  inboxClosed _ h := nomatch h

/-- Whoever closes the inbox has set the flag. -/
theorem closed_of_closeInbox (h : m.FlagFirst) {i : ThreadRef} {l : i.Local}
    (hs : ThreadStep m.shared i (m.thread i) l (.conn c .closeInbox)) :
    (m.shared.conn c).polling.closed = true := by
  refine h.removing c ?_
  rcases (cause hs : m.Cause i _ (.conn c .closeInbox)) with ⟨n, sid, -, hr⟩ | ⟨-, hr⟩
  · exact Or.inl ⟨n, by rw [hr]; exact ⟨rfl, by simp⟩⟩
  · exact Or.inr (by simp [hr, CloserStage.Removes])

/-- Every step closes an inbox only after the flag is set. -/
theorem run (h : m.FlagFirst) {i : ThreadRef} {l : i.Local} {e : Effect}
    (hs : ThreadStep m.shared i (m.thread i) l e) :
    FlagFirst (m.put i (m.shared.apply e) l) where
  sound := h.sound.run hs
  spawned := h.spawned.run hs
  removing c hrem := by
    rcases removing_of_run hs hrem with hwas | rfl
    · exact Memory.closed_apply_of_closed (h.removing c hwas)
    · simp [Memory.apply, Memory.setConn, Conn.apply]
  inboxClosed c hclosed := by
    refine Memory.closed_apply_of_closed ?_
    rcases Memory.inboxClosed_of_apply hclosed with hwas | rfl
    · exact h.inboxClosed c hwas
    · exact h.closed_of_closeInbox hs

/-- A request that starts has closed no inbox. -/
theorem spawn (h : m.FlagFirst) {r : Request} (hr : m.Starts r) : (m.spawn r).FlagFirst where
  sound := h.sound.spawn hr
  spawned := h.spawned.spawn r
  removing c hrem := by
    refine h.removing c ?_
    rcases hrem with ⟨n, hn⟩ | hrem
    · exact Or.inl ⟨n, of_spawn m (by cases hr <;> exact id) hn⟩
    · exact Or.inr (by rwa [spawn_closer] at hrem)
  inboxClosed := h.inboxClosed

/-- A new connection's inbox is open. -/
theorem create (h : m.FlagFirst) {sid : String} (hfresh : m.shared.Fresh sid) :
    FlagFirst { m with shared := m.shared.create sid } where
  sound := h.sound.create hfresh
  spawned := h.spawned.create sid
  removing c hrem := by
    rw [Memory.create_conn (removing_lt h.sound h.spawned hrem)]
    exact h.removing c hrem
  inboxClosed c hclosed := by
    rcases m.shared.create_conn_cases sid c with heq | ⟨-, heq⟩ <;> rw [heq] at hclosed ⊢
    · exact h.inboxClosed c hclosed
    · cases hclosed

end FlagFirst

/-- What is known of the inboxes between two steps of a run of `EndsOnEmptyInbox`. -/
structure Heard (m : Machine) : Prop extends m.FlagFirst where
  flow : ∀ c, (m.shared.conn c).Flow
  closed : ∀ c, (m.shared.conn c).polling.closed = true →
    (m.shared.conn c).polling.inbox = [] ∧ ∀ n, ¬ (m.request n).Delivers c
  swapped : ∀ c < m.shared.connCount, ∀ w, (m.shared.conn c).current = .websocket w →
    (m.shared.conn c).polling.inbox = [] ∧ ∀ n, ¬ (m.request n).Posts c
  upgrade : ∀ c, (m.shared.conn c).polling.upgrade = true →
    ∃ w, (m.shared.conn c).current = .websocket w
  ended : ∀ c, (m.shared.conn c).ended = true →
    (m.shared.conn c).polling.closed = true ∨ ∃ w, (m.shared.conn c).current = .websocket w

namespace Heard

/-- Nothing is delivered or read at first. -/
theorem init (maxPayload : ℤ) : (Machine.init maxPayload).Heard where
  toFlagFirst := .init maxPayload
  flow _ := rfl
  closed _ h := nomatch h
  swapped _ hc := absurd hc (Nat.not_lt_zero _)
  upgrade _ h := nomatch h
  ended _ h := nomatch h

variable {i : ThreadRef} {k : Choice} {l : i.Local} {e : Effect}

/-- `EndsOnEmptyInbox`, at the moment `Close` sets the flag. -/
theorem empty_of_close (h : m.Heard) (hs : ThreadStep m.shared i (m.thread i) l (.conn c .close))
    (hempty : m.EndsOnEmptyInbox (.run i k)) :
    (m.shared.conn c).polling.inbox = [] ∧ ∀ n, ¬ (m.request n).Delivers c := by
  have hclose : m.InboxEmpty c := by
    obtain ⟨hopen, ⟨n, sid, rfl, hr, -⟩ | ⟨rfl, hr, -⟩⟩ : m.Cause i _ (.conn c .close) := cause hs
    · have hreq : m.RequestEndsOnEmptyInbox (m.request n) := hempty
      rw [hr] at hreq
      exact hreq hopen
    · have hcloser : m.CloserEndsOnEmptyInbox c (m.closer c) := hempty
      rw [hr] at hcloser
      exact hcloser hopen
  exact ⟨hclose.1, h.spawned.forall_not id hclose.2⟩

/-- `EndsOnEmptyInbox`, at the moment of `Swap`. -/
theorem empty_of_swap (h : m.Heard) {w : SockRef}
    (hs : ThreadStep m.shared i (m.thread i) l (.conn c (.swap w)))
    (hempty : m.EndsOnEmptyInbox (.run i k)) :
    (m.shared.conn c).polling.inbox = [] ∧ ∀ n, ¬ (m.request n).Posts c := by
  obtain ⟨n, sid, rfl, hr⟩ : m.Cause i _ (.conn c (.swap w)) := cause hs
  have hswap : m.RequestEndsOnEmptyInbox (m.request n) := hempty
  rw [hr] at hswap
  exact ⟨hswap.1, h.spawned.forall_not id hswap.2⟩

/-- An empty inbox that no POST is about to add to stays empty. -/
theorem inbox_run (hs : ThreadStep m.shared i (m.thread i) l e)
    (hin : (m.shared.conn c).polling.inbox = []) (hno : ∀ n, ¬ (m.request n).Delivers c) :
    ((m.shared.apply e).conn c).polling.inbox = [] := by
  rcases Memory.inbox_apply (e := e) hin with hin | ⟨data, rfl⟩
  · exact hin
  · obtain ⟨n, sid, rest, -, hr⟩ : m.Cause i _ (.conn c (.accept data)) := cause hs
    refine absurd ?_ (hno n)
    rw [hr]
    rfl

/-- After a step of `EndsOnEmptyInbox` a closed transport has nothing to read and no POST
delivering. -/
theorem run_closed (h : m.Heard) (hs : ThreadStep m.shared i (m.thread i) l e)
    (hempty : m.EndsOnEmptyInbox (.run i k))
    (hclosed : ((m.shared.apply e).conn c).polling.closed = true) :
    ((m.shared.apply e).conn c).polling.inbox = [] ∧
      ∀ n, ¬ (request (m.put i (m.shared.apply e) l) n).Delivers c := by
  rcases Memory.closed_of_apply hclosed with hwas | rfl
  · obtain ⟨hin, hno⟩ := h.closed c hwas
    refine ⟨inbox_run hs hin hno, fun n hn => ?_⟩
    rcases delivers_of_run hs hn with hn | ⟨hopen, -⟩
    · exact hno n hn
    · rw [hwas] at hopen
      cases hopen
  · obtain ⟨hin, hno⟩ := h.empty_of_close hs hempty
    refine ⟨inbox_run hs hin hno, fun n hn => ?_⟩
    rcases delivers_of_run hs hn with hn | ⟨-, he⟩
    · exact hno n hn
    · cases he

/-- After such a step an upgraded connection has nothing to read and no POST on its polling side. -/
theorem run_swapped (h : m.Heard) (hs : ThreadStep m.shared i (m.thread i) l e)
    (hempty : m.EndsOnEmptyInbox (.run i k)) (hc : c < m.shared.connCount) {w : SockRef}
    (hcur : ((m.shared.apply e).conn c).current = .websocket w) :
    ((m.shared.apply e).conn c).polling.inbox = [] ∧
      ∀ n, ¬ (request (m.put i (m.shared.apply e) l) n).Posts c := by
  have hbefore : (m.shared.conn c).polling.inbox = [] ∧ ∀ n, ¬ (m.request n).Posts c := by
    rcases Memory.current_of_apply hcur with hwas | rfl
    · exact h.swapped c hc w hwas
    · exact h.empty_of_swap hs hempty
  obtain ⟨hin, hno⟩ := hbefore
  exact ⟨inbox_run hs hin fun n hn => hno n hn.posts, fun n hn => hno n (posts_of_run hs hn)⟩

/-- The polling side reports its end only when its flag is set or the WebSocket is
installed. -/
theorem run_ended (h : m.Heard) (hs : ThreadStep m.shared i (m.thread i) l e)
    (hended : ((m.shared.apply e).conn c).ended = true) :
    ((m.shared.apply e).conn c).polling.closed = true ∨
      ∃ w, ((m.shared.apply e).conn c).current = .websocket w := by
  have hbefore : (m.shared.conn c).polling.closed = true ∨
      ∃ w, (m.shared.conn c).current = .websocket w := by
    rcases Memory.ended_of_apply hended with hwas | rfl | rfl
    · exact h.ended c hwas
    · obtain ⟨-, hclosed | ⟨-, hclosed⟩⟩ : m.Cause i _ (.conn c .eof) := cause hs
      · exact Or.inl hclosed
      · exact Or.inl (h.inboxClosed c hclosed)
    · obtain ⟨-, hup⟩ : m.Cause i _ (.conn c .upgraded) := cause hs
      exact Or.inr (h.upgrade c hup)
  exact hbefore.imp Memory.closed_apply_of_closed Memory.websocket_apply

/-- A step of `EndsOnEmptyInbox` keeps what is known of the inboxes. -/
theorem run (h : m.Heard) (hs : ThreadStep m.shared i (m.thread i) l e)
    (hempty : m.EndsOnEmptyInbox (.run i k)) : Heard (m.put i (m.shared.apply e) l) where
  toFlagFirst := h.toFlagFirst.run hs
  flow c := Memory.flow_apply (h.flow c)
  closed c hclosed := h.run_closed hs hempty hclosed
  swapped c hc w hcur := h.run_swapped hs hempty (by simpa using hc) hcur
  upgrade c hup := by
    refine Memory.websocket_apply ?_
    rcases Memory.upgrade_of_apply hup with hwas | rfl
    · exact h.upgrade c hwas
    · obtain ⟨n, sid, w, -, hr⟩ : m.Cause i _ (.conn c .signal) := cause hs
      have hknows : (m.request n).Ok m.shared n := h.sound.thread (.request n)
      rw [hr] at hknows
      exact ⟨w, hknows.2.2⟩
  ended c hended := h.run_ended hs hended

/-- A POST that starts is to a session that polls. -/
theorem starts_posts (h : m.Heard) {r : Request} (hr : m.Starts r) {w : SockRef}
    (hcur : (m.shared.conn c).current = .websocket w) : ¬ r.Posts c := by
  intro hposts
  cases hr with
  | post packets hd =>
      obtain rfl : _ = c := hposts
      obtain ⟨ps, hps, hup, rfl⟩ := getPolling_session hd
      obtain ⟨hlt, hsid⟩ := h.sound.shared.session hps
      have hwon := h.sound.shared.current hlt hcur
      rw [hsid] at hwon
      rw [h.sound.shared.upgraded hwon hps] at hup
      cases hup
  | _ => exact hposts

/-- A request that starts keeps what is known: `getPolling` lets no POST reach an upgraded
connection. -/
theorem spawn (h : m.Heard) {r : Request} (hr : m.Starts r) : (m.spawn r).Heard where
  toFlagFirst := h.toFlagFirst.spawn hr
  flow := h.flow
  closed c hclosed := by
    obtain ⟨hin, hno⟩ := h.closed c hclosed
    exact ⟨hin, fun n hn => hno n (of_spawn m (by cases hr <;> exact id) hn)⟩
  swapped c hc w hcur := by
    obtain ⟨hin, hno⟩ := h.swapped c hc w hcur
    exact ⟨hin, fun n hn => hno n (of_spawn m (h.starts_posts hr hcur) hn)⟩
  upgrade := h.upgrade
  ended := h.ended

/-- A new connection has nothing in its inbox, and nothing has happened to it. -/
theorem create (h : m.Heard) {sid : String} (hfresh : m.shared.Fresh sid) :
    Heard { m with shared := m.shared.create sid } where
  toFlagFirst := h.toFlagFirst.create hfresh
  flow c := by
    rcases m.shared.create_conn_cases sid c with heq | ⟨-, heq⟩ <;> rw [heq]
    · exact h.flow c
    · rfl
  closed c hclosed := by
    rcases m.shared.create_conn_cases sid c with heq | ⟨-, heq⟩ <;> rw [heq] at hclosed ⊢
    · exact h.closed c hclosed
    · cases hclosed
  swapped c hc w hcur := by
    rcases Nat.lt_succ_iff_lt_or_eq.1 hc with hlt | rfl
    · rw [Memory.create_conn hlt] at hcur ⊢
      exact h.swapped c hlt w hcur
    · simp [Memory.create, newConn] at hcur
  upgrade c hup := by
    rcases m.shared.create_conn_cases sid c with heq | ⟨-, heq⟩ <;> rw [heq] at hup ⊢
    · exact h.upgrade c hup
    · cases hup
  ended c hended := by
    rcases m.shared.create_conn_cases sid c with heq | ⟨-, heq⟩ <;> rw [heq] at hended ⊢
    · exact h.ended c hended
    · cases hended

end Heard

/-- **Every accepted message is read**, if `Close` and `Swap` come when the inbox is empty and
no POST is about to add to it.  In every state of a run of `EndsOnEmptyInbox`, for every connection,
what `Read` has returned is the first part of what `deliverInbound` has accepted; and if
the polling side has reported its end or the upgrade to the read pump, or the pump has
gone over to the WebSocket, it is all of it. -/
theorem inbound_read (maxPayload : ℤ) (m : Machine)
    (h : Reachable (Guarded EndsOnEmptyInbox Step) (init maxPayload) m) (c : ConnRef)
    (hc : c < m.shared.connCount) :
    (m.shared.conn c).returned <+: (m.shared.conn c).accepted ∧
    ((m.shared.conn c).ended = true ∨ (m.pump c).socket ≠ none →
      (m.shared.conn c).returned = (m.shared.conn c).accepted) := by
  have hm := invariant h (Heard.init maxPayload) Heard.create Heard.spawn Heard.run
  have hflow : (m.shared.conn c).accepted =
      (m.shared.conn c).returned ++ (m.shared.conn c).polling.inbox := hm.flow c
  refine ⟨hflow ▸ List.prefix_append .., fun hend => ?_⟩
  have hin : (m.shared.conn c).polling.inbox = [] := by
    rcases hend with hended | hsocket
    · rcases hm.ended c hended with hclosed | ⟨w, hcur⟩
      · exact (hm.closed c hclosed).1
      · exact (hm.swapped c hc w hcur).1
    · obtain ⟨w, hw⟩ := Option.ne_none_iff_exists'.1 hsocket
      exact (hm.swapped c hc w (hm.sound.thread (.pump c) w hw).2).1
  rw [hflow, hin, List.append_nil]

/-- A message is read before the session is upgraded, and the pump is told of the upgrade. -/
theorem inbound_read_upgraded :
    ∃ m, Reachable (Guarded EndsOnEmptyInbox Step) (init 100) m ∧ (m.shared.conn 0).ended = true ∧
      (m.shared.conn 0).accepted = [ascii "m"] ∧ (m.shared.conn 0).returned = [ascii "m"] := by
  obtain ⟨m, hm, hp⟩ := Reachable.of_exec_guarded (G := EndsOnEmptyInbox) step (s := init 100)
    (readySession ++ .post "s" (ascii "4m") :: advance (.request 2) 4 ++ advance (.pump 0) 5 ++
      .upgrade "s" :: advance (.request 3) 8 ++ [.run (.pump 0) .signal])
    (p := fun m => 0 < m.shared.connCount ∧ (m.shared.conn 0).ended = true ∧
      (m.shared.conn 0).accepted = [ascii "m"])
    (by decide +kernel)
  obtain ⟨hc, hended, haccepted⟩ := of_decide_eq_true hp
  exact ⟨m, hm, hended, haccepted,
    ((inbound_read 100 m hm 0 hc).2 (Or.inl hended)).trans haccepted⟩

/-- **Counterexample.**  A POST is answered with `ok` for the message it brings; another
POST brings a close packet; `Read` then reports the end of the stream, and the message is
not returned. -/
theorem message_dropped :
    ∃ m, Reachable Step (init 100) m ∧ m.request 0 = .post "s" 0 (.done .ok) ∧
      (m.shared.conn 0).accepted = [ascii "m"] ∧ (m.shared.conn 0).ended = true ∧
      (m.shared.conn 0).returned = [] := by
  obtain ⟨m, hm, hp⟩ := Reachable.of_exec step (s := init 100)
    (.create "s" :: .post "s" (ascii "4m") :: advance (.request 0) 4 ++
      .post "s" (ascii "1") :: advance (.request 1) 5 ++ advance (.pump 0) 2)
    (p := fun m => m.request 0 = .post "s" 0 (.done .ok) ∧
      (m.shared.conn 0).accepted = [ascii "m"] ∧ (m.shared.conn 0).ended = true ∧
      (m.shared.conn 0).returned = [])
    (by decide +kernel)
  exact ⟨m, hm, of_decide_eq_true hp⟩

end Machine
end EngineIO
end GoSocket
