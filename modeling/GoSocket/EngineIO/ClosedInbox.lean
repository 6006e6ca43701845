/-
# Sending on a closed inbox

`deliverInbound` looks at the flag of the transport and then sends on `inbox`; `Close`
sets the flag and then closes `inbox`.  A POST that has found the transport open may still
be before its send when `Close` closes the channel, and a send on a closed channel panics
(`send_panics`), in a `select` with a `default` as well.

Nothing else leads there: if, whenever `Close` comes to `close(t.inbox)`, no POST to the
session is between the two, no POST ever panics (`send_safe`).
-/

import GoSocket.EngineIO.Inbound

namespace GoSocket

open Lib

namespace EngineIO

/-- A POST panics by sending on an inbox that is closed. -/
theorem PostStage.next_panicked {m : Memory} {n : RequestRef} {sid : String} {c : ConnRef}
    {s : PostStage} {e : Effect} (h : s.next m n sid c = some (.done .panicked, e)) :
    (∃ data rest, s = .delivering data rest) ∧ (m.conn c).polling.inboxClosed = true := by
  cases s with
  | packets rest => cases rest <;> cases h
  | handling p rest =>
      simp only [PostStage.next] at h
      split at h
      next => cases h
      next => cases h
      next => split_ifs at h <;> cases h
      next => cases h
      next => cases h
      next => cases h
  | replying e data rest =>
      simp only [PostStage.next] at h
      split at h <;> cases h
  | delivering data rest =>
      simp only [PostStage.next] at h
      split_ifs at h with hclosed
      · exact ⟨⟨data, rest, rfl⟩, hclosed⟩
      · cases h
      · cases h
  | closing e =>
      simp only [PostStage.next] at h
      split at h <;> cases h
  | done r => cases h

namespace Machine

variable {m m' : Machine} {c : ConnRef} {a : MachineOp}

/-- No POST to the connection is about to send on its inbox. -/
def Undelivering (m : Machine) (c : ConnRef) : Prop :=
  ∀ n < m.shared.requestCount, ¬ (m.request n).Delivers c

instance (m : Machine) (c : ConnRef) : Decidable (m.Undelivering c) :=
  inferInstanceAs (Decidable (∀ n < m.shared.requestCount, _))

/-- What `ClosesIdleInbox` asks of a request where it is. -/
def RequestClosesIdleInbox (m : Machine) : Request → Prop
  | .post _ c (.closing .closeInbox) => m.Undelivering c
  | _ => True

instance (m : Machine) (r : Request) : Decidable (m.RequestClosesIdleInbox r) := by
  unfold RequestClosesIdleInbox
  split <;> infer_instance

/-- What `ClosesIdleInbox` asks of `closeRaw` where it is. -/
def CloserClosesIdleInbox (m : Machine) (c : ConnRef) : CloserStage → Prop
  | .polling .closeInbox => m.Undelivering c
  | _ => True

instance (m : Machine) (c : ConnRef) (s : CloserStage) :
    Decidable (m.CloserClosesIdleInbox c s) := by
  unfold CloserClosesIdleInbox
  split <;> infer_instance

/-- When `Close` is to close the inbox of a polling transport, no POST to it is about to send
there. -/
def ClosesIdleInbox (m : Machine) : MachineOp → Prop
  | .run (.request n) _ => m.RequestClosesIdleInbox (m.request n)
  | .run (.closer c) _ => m.CloserClosesIdleInbox c (m.closer c)
  | _ => True

instance (m : Machine) (a : MachineOp) : Decidable (m.ClosesIdleInbox a) := by
  induction a using MachineOp.casesOn with
  | run i => induction i using ThreadRef.casesOn <;> dsimp only [ClosesIdleInbox] <;> infer_instance
  | _ => dsimp only [ClosesIdleInbox]; infer_instance

/-- What is known of the closed inboxes between two steps of a run of `ClosesIdleInbox`. -/
structure Shut (m : Machine) : Prop extends m.FlagFirst where
  quiet : ∀ c, (m.shared.conn c).polling.inboxClosed = true → ∀ n, ¬ (m.request n).Delivers c

namespace Shut

/-- No inbox is closed at first. -/
theorem init (maxPayload : ℤ) : (Machine.init maxPayload).Shut where
  toFlagFirst := .init maxPayload
  quiet _ h := nomatch h

variable {i : ThreadRef} {k : Choice} {l : i.Local} {e : Effect}

/-- `ClosesIdleInbox`, at the moment the inbox is closed. -/
theorem idle_of_close (h : m.Shut) (hs : ThreadStep m.shared i (m.thread i) l (.conn c .closeInbox))
    (hidle : m.ClosesIdleInbox (.run i k)) (n : RequestRef) : ¬ (m.request n).Delivers c := by
  refine h.spawned.forall_not id ?_ n
  rcases (cause hs : m.Cause i _ (.conn c .closeInbox)) with ⟨n, sid, rfl, hr⟩ | ⟨rfl, hr⟩
  · have hreq : m.RequestClosesIdleInbox (m.request n) := hidle
    rwa [hr] at hreq
  · have hcloser : m.CloserClosesIdleInbox c (m.closer c) := hidle
    rwa [hr] at hcloser

/-- A step of `ClosesIdleInbox` leaves no POST delivering into a closed inbox. -/
theorem run (h : m.Shut) (hs : ThreadStep m.shared i (m.thread i) l e)
    (hidle : m.ClosesIdleInbox (.run i k)) : Shut (m.put i (m.shared.apply e) l) where
  toFlagFirst := h.toFlagFirst.run hs
  quiet c hclosed n hn := by
    -- an inbox that is closed now was closed before, or is closed by this step
    have hbefore : (m.shared.conn c).polling.closed = true ∧ ∀ n, ¬ (m.request n).Delivers c := by
      rcases Memory.inboxClosed_of_apply hclosed with hwas | rfl
      · exact ⟨h.inboxClosed c hwas, h.quiet c hwas⟩
      · exact ⟨h.closed_of_closeInbox hs, h.idle_of_close hs hidle⟩
    obtain ⟨hflag, hno⟩ := hbefore
    rcases delivers_of_run hs hn with hn | ⟨hopen, -⟩
    · exact hno n hn
    · rw [hflag] at hopen
      cases hopen

/-- A request that starts delivers nothing yet. -/
theorem spawn (h : m.Shut) {r : Request} (hr : m.Starts r) : (m.spawn r).Shut where
  toFlagFirst := h.toFlagFirst.spawn hr
  quiet c hclosed n hn := h.quiet c hclosed n (of_spawn m (by cases hr <;> exact id) hn)

/-- A new connection's inbox is open. -/
theorem create (h : m.Shut) {sid : String} (hfresh : m.shared.Fresh sid) :
    Shut { m with shared := m.shared.create sid } where
  toFlagFirst := h.toFlagFirst.create hfresh
  quiet c hclosed := by
    rcases m.shared.create_conn_cases sid c with heq | ⟨-, heq⟩ <;> rw [heq] at hclosed
    · exact h.quiet c hclosed
    · cases hclosed

end Shut

/-- A request does not start out panicked. -/
theorem Brings.ne_panicked {r : Request} (hr : m.Brings a r) (sid : String) (c : ConnRef) :
    r ≠ .post sid c (.done .panicked) := by
  cases hr with
  | post body =>
      unfold servePost
      dsimp only
      split_ifs
      · simp
      · split <;> simp
  | unknown | get | upgrade | send => simp

/-- A POST that has panicked had done so before, or was about to send on a closed inbox. -/
theorem panicked_of_run {i : ThreadRef} {k : Choice} {l : i.Local} {s : Memory} {e : Effect}
    {n : RequestRef} {sid : String} (hnext : i.next m.shared k (m.thread i) = some (l, e))
    (h : request (m.put i s l) n = .post sid c (.done .panicked)) :
    m.request n = .post sid c (.done .panicked) ∨
      ((m.request n).Delivers c ∧ (m.shared.conn c).polling.inboxClosed = true) := by
  refine (of_put_next (P := (· = .post sid c (.done .panicked))) hnext h).imp_right ?_
  rintro ⟨_, -, hstep, rfl⟩
  generalize m.request n = r at hstep
  cases hstep with
  | post hs =>
      obtain ⟨⟨data, rest, rfl⟩, hclosed⟩ := PostStage.next_panicked hs
      exact ⟨rfl, hclosed⟩

/-- **No POST sends on a closed inbox**, if `Close` closes an inbox only while no POST is between
its look at the flag and its send.  In every state of such a run no POST has panicked. -/
theorem send_safe (maxPayload : ℤ) (m : Machine)
    (h : Reachable (Guarded ClosesIdleInbox Step) (init maxPayload) m) (n : RequestRef)
    (sid : String) (c : ConnRef) : m.request n ≠ .post sid c (.done .panicked) := by
  have hinv : m.Shut ∧ ∀ n sid c, m.request n ≠ .post sid c (.done .panicked) := by
    refine invariant_next
      (P := fun m => m.Shut ∧ ∀ n sid c, m.request n ≠ .post sid c (.done .panicked)) h
      ⟨.init maxPayload, nofun⟩ ?_ ?_ ?_
    · rintro m ⟨hm, hfine⟩ sid hfresh
      exact ⟨hm.create hfresh, hfine⟩
    · rintro m ⟨hm, hfine⟩ a r hr -
      exact ⟨hm.spawn hr.starts, fun n sid c hpanic =>
        hfine n sid c (of_spawn m (P := (· = .post sid c (.done .panicked)))
          (hr.ne_panicked sid c) hpanic)⟩
    · rintro m i k l e ⟨hm, hfine⟩ hnext hidle
      refine ⟨hm.run (ThreadRef.took hnext) hidle, fun n sid c hpanic => ?_⟩
      rcases panicked_of_run hnext hpanic with hwas | ⟨hdelivers, hclosed⟩
      · exact hfine n sid c hwas
      · exact hm.quiet c hclosed n hdelivers
  exact hinv.2 n sid c

/-- A message is delivered, and then another POST closes the session. -/
theorem send_safe_closed :
    ∃ m, Reachable (Guarded ClosesIdleInbox Step) (init 100) m ∧
      (m.shared.conn 0).polling.inboxClosed = true ∧
      (m.shared.conn 0).polling.inbox = [ascii "m"] ∧
      m.request 0 ≠ .post "s" 0 (.done .panicked) := by
  obtain ⟨m, hm, hp⟩ := Reachable.of_exec_guarded (G := ClosesIdleInbox) step (s := init 100)
    (.create "s" :: .post "s" (ascii "4m") :: .post "s" (ascii "1") :: advance (.request 0) 4 ++
      advance (.request 1) 5)
    (p := fun m => (m.shared.conn 0).polling.inboxClosed = true ∧
      (m.shared.conn 0).polling.inbox = [ascii "m"])
    (by decide +kernel)
  obtain ⟨hclosed, hin⟩ := of_decide_eq_true hp
  exact ⟨m, hm, hclosed, hin, send_safe 100 m hm 0 "s" 0⟩

/-- **Counterexample.**  A POST with a message finds the transport open; another POST closes the
session; the first one sends on the closed inbox.  `closeRaw` does the same. -/
theorem send_panics :
    (∃ m, Reachable Step (init 100) m ∧ m.request 0 = .post "s" 0 (.done .panicked) ∧
      m.request 1 = .post "s" 0 (.done .eof)) ∧
    ∃ m, Reachable Step (init 100) m ∧ m.request 0 = .post "s" 0 (.done .panicked) ∧
      m.closer 0 = .done := by
  constructor
  · obtain ⟨m, hm, hp⟩ := Reachable.of_exec step (s := init 100)
      (.create "s" :: .post "s" (ascii "4m") :: .post "s" (ascii "1") :: advance (.request 0) 2 ++
        advance (.request 1) 5 ++ advance (.request 0) 1)
      (p := fun m => m.request 0 = .post "s" 0 (.done .panicked) ∧
        m.request 1 = .post "s" 0 (.done .eof))
      (by decide +kernel)
    exact ⟨m, hm, of_decide_eq_true hp⟩
  · obtain ⟨m, hm, hp⟩ := Reachable.of_exec step (s := init 100)
      (.create "s" :: .post "s" (ascii "4m") :: advance (.request 0) 2 ++
        advance (.closer 0) 4 ++ advance (.request 0) 1)
      (p := fun m => m.request 0 = .post "s" 0 (.done .panicked) ∧ m.closer 0 = .done)
      (by decide +kernel)
    exact ⟨m, hm, of_decide_eq_true hp⟩

end Machine
end EngineIO
end GoSocket
