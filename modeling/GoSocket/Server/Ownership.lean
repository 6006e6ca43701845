/-
# Owner isolation

A session token in the wrong hands: `Open` with the token of a session and
another owner.  `verdict` compares the owner before it looks at anything else of
the session, so such an `Open` is a fresh `Open` (`open_foreign`), whatever the
session contains: it does not read it, it does not change it, and what the
requester is told is the same for any two contents (`SameBut`).

What comes after it is compared with a run in which the attempt was not made:
every call that does not involve the requester does the same in both
(`Session.Guest`), the owner's resume among them.
-/

import GoSocket.Session.Guest
import GoSocket.Server.Layer

namespace GoSocket

open Lib

/-- What a requester that is not the owner is told. -/
def ResumeRequest.refusal (req : ResumeRequest) : Option Reason :=
  if req.invalid then some .badRequest else if req.requested then some .ownerMismatch else none

namespace Mem

/-- The owner is compared before everything else but the state. -/
theorem verdict_foreign {s : Session} {req : ResumeRequest} (hopen : s.state ≠ .closed)
    (howner : req.owner ≠ s.owner) (now ttl : ℤ) :
    s.verdict req now ttl = (some .ownerMismatch, false) := by
  unfold Session.verdict
  rw [if_neg hopen, if_pos howner.symm]

/-- **`Open` by anyone but the owner is a fresh `Open`.** -/
theorem open_foreign {m : Mem} {p : SessionRef} {req : ResumeRequest}
    (hp : m.store.sessions req.sessionID = some p) (hopen : (m.session p).state ≠ .closed)
    (howner : req.owner ≠ (m.session p).owner) (c : ClientRef) (now : ℤ) (newID : Option String) :
    m.open c req now newID = m.openFresh c req.owner newID req.refusal none := by
  unfold Mem.open ResumeRequest.refusal
  by_cases hinv : req.invalid = true
  · rw [if_pos hinv, if_pos hinv]
  rw [if_neg hinv, if_neg hinv]
  by_cases hreq : req.requested = true
  · rw [if_pos hreq, if_pos hreq, hp]
    dsimp only
    rw [verdict_foreign hopen howner]
  · rw [if_neg hreq, if_neg hreq]

/-- The stores that differ from `m` at most in the private contents of the session
at `p`: its sequence, buffer, keys, clients, whether and since when it is parked,
and where it stands on the parked list. -/
structure SameBut (p : SessionRef) (m m₂ : Mem) : Prop where
  opt : m₂.store.opt = m.store.opt
  sessions : m₂.store.sessions = m.store.sessions
  sessionCount : m₂.sessionCount = m.sessionCount
  client : m₂.client = m.client
  others : ∀ q ≠ p, m₂.session q = m.session q
  id : (m₂.session p).id = (m.session p).id
  owner : (m₂.session p).owner = (m.session p).owner
  stored : (m₂.session p).state ≠ .closed

/-- The sessions of `m`, its parked list, its id map and every client but `c` are
in `m'` what they were. -/
structure LeftAlone (c : ClientRef) (m m' : Mem) : Prop where
  session : ∀ q < m.sessionCount, m'.session q = m.session q
  parked : m'.store.parked = m.store.parked
  stored : ∀ id q, m.store.sessions id = some q → m'.store.sessions id = some q
  client : ∀ d ≠ c, m'.client d = m.client d

/-- A fresh `Open` leaves everybody else alone. -/
theorem leftAlone_openFresh {m : Mem} (c : ClientRef) (owner : String) {newID : Option String}
    (hid : ∀ id ∈ newID, m.store.sessions id = none) (reason : Option Reason) :
    m.LeftAlone c (m.openFresh c owner newID reason none).1 := by
  cases newID with
  | none => exact ⟨fun _ _ => rfl, rfl, fun _ _ h => h, fun _ _ => rfl⟩
  | some id =>
      refine ⟨fun q hq => ?_, rfl, fun id' q hq => ?_, fun d hd => ?_⟩
      · exact Function.update_of_ne (ne_of_lt hq) ..
      · have hne : id' ≠ id := by
          rintro rfl
          rw [hid id' rfl] at hq
          cases hq
        exact (Function.update_of_ne hne ..).trans hq
      · exact Function.update_of_ne hd ..

/-- What a fresh `Open` returns and queues does not depend on any session. -/
theorem openFresh_congr {m m₂ : Mem} (hcount : m₂.sessionCount = m.sessionCount)
    (hclient : m₂.client = m.client) (c : ClientRef) (owner : String) (newID : Option String)
    (reason : Option Reason) :
    (m₂.openFresh c owner newID reason none).2 = (m.openFresh c owner newID reason none).2 ∧
      (m₂.openFresh c owner newID reason none).1.client =
        (m.openFresh c owner newID reason none).1.client := by
  cases newID with
  | none => exact ⟨rfl, hclient⟩
  | some id => simp only [openFresh_some, fresh, hcount, hclient, true_and]

/-- Skipping a reference keeps the store's invariant. -/
theorem storeInv_reserve {m : Mem} (h : m.StoreInv) : m.reserve.StoreInv where
  linked := by
    refine ⟨fun p => ?_, h.linked.nodup⟩
    have hp := h.linked.session p
    exact ⟨hp.stored, hp.listed, hp.elem, fun hopen => Nat.lt_succ_of_lt (hp.allocated hopen),
      hp.parked, hp.attached, hp.limits⟩
  bounded := h.bounded

/-- A client that is not bound yet can come in as a guest. -/
theorem clear_guest {m : Mem} (h : m.StoreInv) (hb : m.Bound) {c : ClientRef}
    (hc : (m.client c).session = none) (owner : String) {id : String}
    (hid : m.store.sessions id = none) (reason : Option Reason) :
    m.reserve.Clear (m.guest c owner id reason) where
  inv := storeInv_reserve h
  allocated := Nat.lt_succ_self _
  closed := by
    by_contra hopen
    exact ((h.linked.session m.sessionCount).allocated hopen).false
  unnamed p hopen hname := by
    have hfind := h.linked.find hopen
    rw [show (m.session p).id = id from hname, hid] at hfind
    cases hfind
  live p hlive := by
    have hbound := hb.live hlive
    rw [show (m.client c).session = some p from hbound] at hc
    cases hc
  bound d hd := (hb.allocated hd).false

/-- **Owner isolation.**  In every reachable state, `Open` with the token of a stored
session and another owner leaves every existing session alone; what it returns
and queues is the same whatever the session contains; and whatever calls follow
that do not involve the requester, the resume of the session that comes after
them returns, queues and leaves behind what it would have, had the attempt not
been made. -/
theorem owner_isolation (opt : SessionOptions) (digest : String → String)
    (sendBuffer : ClientRef → ℤ) (f : Layer)
    (h : Reachable Layer.Step (.init opt digest sendBuffer) f) (p : SessionRef)
    (hp : f.mem.store.sessions (f.mem.session p).id = some p) (req : ResumeRequest)
    (hreq : req.sessionID = (f.mem.session p).id) (howner : req.owner ≠ (f.mem.session p).owner)
    (now : ℤ) (c : ClientRef) (hc : (f.mem.client c).session = none) (newID : Option String)
    (hid : ∀ id ∈ newID, f.mem.store.sessions id = none) :
    let m := f.mem
    let r := m.open c req now newID
    -- nobody else is touched
    (m.LeftAlone c r.1 ∧ r.2.1.resumed = false ∧ r.2.1.displaced = none ∧ r.2.2 = []) ∧
    -- the requester learns nothing
    (∀ m₂, m.SameBut p m₂ → (m₂.open c req now newID).2 = r.2 ∧
      (m₂.open c req now newID).1.client = r.1.client) ∧
    -- the owner notices nothing
    (newID = none → r.1 = m) ∧
    (∀ id, newID = some id →
      let g := m.guest c req.owner id req.refusal
      r.1 = m.reserve.seat g ∧
      ∀ ops n, (∀ op ∈ ops, op.Avoids g) → Steps Step m.reserve ops n →
        Steps Step r.1 ops (n.seat g) ∧
        ∀ c' req' now' newID', c' ≠ c → req'.sessionID = (m.session p).id → newID' ≠ some id →
          let r₁ := n.open c' req' now' newID'
          let r₂ := (n.seat g).open c' req' now' newID'
          r₂.2 = r₁.2 ∧ r₂.1.client c' = r₁.1.client c' ∧ r₂.1.session p = r₁.1.session p) := by
  obtain ⟨hinv, hbound⟩ := Layer.Inv.of_reachable h
  have hopen := ((hinv.linked.session p).stored.1 hp).2
  have hlt := (hinv.linked.session p).allocated hopen
  have hfind : f.mem.store.sessions req.sessionID = some p := hreq ▸ hp
  dsimp only
  rw [open_foreign hfind hopen howner]
  refine ⟨⟨leftAlone_openFresh c req.owner hid _, ?_, ?_, ?_⟩, fun m₂ hsame => ?_, ?_, ?_⟩
  · cases newID <;> rfl
  · cases newID <;> rfl
  · cases newID <;> rfl
  · have hfind₂ : m₂.store.sessions req.sessionID = some p := by rw [hsame.sessions, hfind]
    rw [open_foreign hfind₂ hsame.stored (by rw [hsame.owner]; exact howner)]
    exact openFresh_congr hsame.sessionCount hsame.client ..
  · rintro rfl
    rfl
  · rintro id rfl
    rw [openFresh_eq_seat]
    have hclear := clear_guest hinv hbound hc req.owner (hid id rfl) req.refusal
    refine ⟨rfl, fun ops n hops hrun => ?_⟩
    obtain ⟨hrun', hclear'⟩ := seat_run hclear hops hrun
    refine ⟨hrun', fun c' req' now' newID' hc' hreq' hid' => ?_⟩
    have hne : req'.sessionID ≠ id := by
      rintro rfl
      rw [← hreq', hid _ rfl] at hp
      cases hp
    have heq := seat_open hclear' req' now' newID' hc' hne hid'
    rw [heq]
    exact ⟨rfl, seat_client hc', seat_session (Nat.ne_of_lt hlt)⟩

/-- A peer that is not the owner presents the token of a parked session; an event
is committed to the session, and its owner resumes it and is given the event. -/
theorem owner_isolation_parked :
    ∃ f : Layer, Reachable Layer.Step (.init ⟨0, 0, 0, 0, 0⟩ id fun _ => 0) f ∧
      ∃ n, Steps Step (f.mem.open 1 ⟨true, false, "a", 7, "mallory"⟩ 2 (some "b")).1
        [.deliver 0 (ascii "\x7b\"event\":1\x7d") .disconnect] n ∧
      (n.open 2 ⟨true, false, "a", 0, "alice"⟩ 3 none).2.1.resumed = true ∧
      (n.open 2 ⟨true, false, "a", 0, "alice"⟩ 3 none).2.1.replayed = 1 := by
  obtain ⟨f, hf, hp⟩ := Reachable.of_exec Layer.step
    (s := .init ⟨0, 0, 0, 0, 0⟩ id fun _ => 0)
    [.openSession 0 ⟨false, false, "", 0, "alice"⟩ 0 (some "a"), .readEnd 0, .leave 0 1]
    (p := fun f => f.mem.store.sessions "a" = some 0 ∧ (f.mem.session 0).id = "a" ∧
      (f.mem.session 0).owner = "alice" ∧ (f.mem.client 1).session = none ∧
      f.mem.store.sessions "b" = none ∧ f.mem.sessionCount = 1 ∧
      (f.mem.reserve.step (.deliver 0 (ascii "\x7b\"event\":1\x7d") .disconnect)).any fun n =>
        (n.open 2 ⟨true, false, "a", 0, "alice"⟩ 3 none).2.1.resumed ∧
          (n.open 2 ⟨true, false, "a", 0, "alice"⟩ 3 none).2.1.replayed = 1)
    (by decide)
  obtain ⟨hs, hid, howner, hc, hb, hcount, hlater⟩ := of_decide_eq_true hp
  obtain ⟨n, hn, hres⟩ := (Option.any_eq_true _ _).1 hlater
  obtain ⟨hresumed, hreplayed⟩ := of_decide_eq_true hres
  obtain ⟨-, -, -, hguest⟩ := owner_isolation _ _ _ f hf 0 (hid.symm ▸ hs)
    ⟨true, false, "a", 7, "mallory"⟩ hid.symm (by rw [howner]; decide) 2 1 hc (some "b")
    (fun id hmem => Option.some.inj hmem ▸ hb)
  obtain ⟨-, hruns⟩ := hguest "b" rfl
  obtain ⟨hrun, howners⟩ := hruns _ n
    (by simp [Op.Avoids, guest, hcount]) (.cons hn (.nil n))
  obtain ⟨heq, -, -⟩ := howners 2 ⟨true, false, "a", 0, "alice"⟩ 3 none (by decide) hid.symm
    (by decide)
  exact ⟨f, hf, _, hrun, by rw [heq]; exact hresumed, by rw [heq]; exact hreplayed⟩

end Mem
end GoSocket
