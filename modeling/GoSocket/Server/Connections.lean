/-
# Connections, sessions and requests

What connects the three parts of the server between two steps (`Wired`): a
connection has a session only after its `Open`, the two ends of a `Transfer`
belong to one session, and a client is unregistered only when it has no session
or one that is closed.  Membership of a room is lost through no other request
(`Wired.removed`), which is what keeps a parked session in its rooms.
-/

import GoSocket.Server.System

namespace GoSocket

open Lib

namespace Sys

variable {σ σ' : Sys} {a : SysOp}

/-- The store after a step that calls `Open`. -/
theorem Step.openSession {c : ClientRef} {req : ResumeRequest} {now : ℤ} {newID : Option String}
    (hstep : σ.Step (.layer (.openSession c req now newID)) σ') :
    σ'.layer.mem = (σ.layer.mem.open c req now newID).1 ∧
      (σ.layer.mem.client c).session = none ∧ σ.stage c = .connecting := by
  cases hstep.took with
  | layer hal hf =>
      obtain ⟨hen, -, ⟨hno, -⟩ | ⟨op, hop, hm⟩⟩ := hf.cases
      · cases hno
      · obtain rfl := Option.some.inj hop
        exact ⟨hm.open_eq, hen, hal⟩

/-- `Prev` is the member of the session that is resumed, and both are bound to it
from then on. -/
theorem prev_member {m : Mem} {c : ClientRef} {req : ResumeRequest} {now : ℤ}
    {newID : Option String} {prev : ClientRef}
    (hprev : (m.open c req now newID).2.1.prev = some prev) :
    ∃ p, (m.session p).member = some prev ∧
      ((m.open c req now newID).1.client c).session = some p := by
  obtain ⟨m', res, due, hopen, ho⟩ := m.exists_opened c req now newID
  rw [hopen] at hprev ⊢
  cases ho with
  | @resumed p => exact ⟨p, hprev, by simp⟩
  | unbound => cases hprev
  | fresh => cases hprev

/-- What is known of the connections between two steps. -/
structure Wired (σ : Sys) : Prop where
  inv : σ.layer.Inv
  due : σ.layer.DueClosed
  /-- A connection that has not called `Open` has no session. -/
  early : ∀ c, (σ.stage c).Early → (σ.layer.mem.client c).session = none
  /-- The ends of a `Transfer` belong to one session. -/
  transfers : ∀ x ∈ σ.transfers, x.1 ≠ x.2 ∧ ∃ p, (σ.layer.mem.client x.1).session = some p ∧
    (σ.layer.mem.client x.2).session = some p
  /-- A connection that `retire` unregisters has no session, or one that is closed. -/
  unregistering : ∀ c p, σ.stage c = .unregistering → (σ.layer.mem.client c).session = some p →
    (σ.layer.mem.session p).state = .closed

/-- No connection has started at first. -/
theorem wired_init (opt : SessionOptions) (digest : String → String) (sendBuffer : ClientRef → ℤ) :
    (init opt digest sendBuffer).Wired where
  inv := Layer.inv_init opt digest sendBuffer
  due _ hx := by cases hx
  early _ _ := rfl
  transfers _ hx := by cases hx
  unregistering _ _ hs := by cases hs

namespace Wired

/-- After a step every transfer is between two connections of one session. -/
theorem step_transfers (h : σ.Wired) (hstep : σ.Step a σ') :
    ∀ x ∈ σ'.transfers, x.1 ≠ x.2 ∧ ∃ p, (σ'.layer.mem.client x.1).session = some p ∧
      (σ'.layer.mem.client x.2).session = some p := by
  have hold : ∀ x ∈ σ.transfers, x.1 ≠ x.2 ∧
      ∃ p, (σ'.layer.mem.client x.1).session = some p ∧
        (σ'.layer.mem.client x.2).session = some p := by
    intro x hx
    obtain ⟨hne, p, h₁, h₂⟩ := h.transfers x hx
    exact ⟨hne, p, hstep.bound h.inv h₁, hstep.bound h.inv h₂⟩
  have ht := hstep.transfers
  generalize σ'.transfers = ts at ht
  cases ht with
  | same => exact hold
  | @opened c req now newID prev ha hprev =>
      subst ha
      obtain ⟨hmem, hc, -⟩ := hstep.openSession
      obtain ⟨p, hm, hp⟩ := prev_member hprev
      have hb := h.inv.bound.member hm
      intro x hx
      rcases List.mem_append.1 hx with hx | hx
      · exact hold x hx
      · obtain rfl := List.mem_singleton.1 hx
        refine ⟨fun (heq : prev = c) => ?_, p, hstep.bound h.inv hb, hmem ▸ hp⟩
        rw [heq, hc] at hb
        cases hb
  | sent => exact fun x hx => hold x (List.mem_of_mem_erase hx)

/-- After a step a connection that is unregistering belongs to a closed session or to none. -/
theorem step_unregistering (h : σ.Wired) (hstep : σ.Step a σ') {c : ClientRef} {p : SessionRef}
    (hs : σ'.stage c = .unregistering) (hc : (σ'.layer.mem.client c).session = some p) :
    (σ'.layer.mem.session p).state = .closed := by
  have hst := hstep.stage c
  generalize hs' : σ'.stage c = s at hst hs
  cases hst with
  | same hopen =>
      rcases hstep.session h.inv c with heq | ⟨_, _, _, _, ha, -⟩
      · rw [heq] at hc
        exact hstep.closed h.inv (h.inv.bound.allocated hc) (h.unregistering c p hs hc)
      · exact absurd ha (hopen _ _ _)
  | accepted => cases hs
  | connecting => cases hs
  | rejected => cases hs
  | late _ hne => exact absurd hs hne
  | unbound hno ha =>
      rcases hstep.session h.inv c with heq | ⟨_, _, _, _, ha', -⟩
      · rw [heq, hno] at hc
        cases hc
      · rw [ha] at ha'
        cases ha'
  | @left q resumable now ha hq hr =>
      subst ha
      -- the session that `Leave` reports as gone is closed
      obtain rfl := Option.some.inj ((hstep.bound h.inv hq).symm.trans hc)
      cases hstep.took with
      | layer hal hf =>
          obtain ⟨-, -, ⟨hno, -⟩ | ⟨op, hop, hm⟩⟩ := hf.cases
          · simp [Layer.call, hq, hr] at hno
          · simp only [Layer.call, hq, hr, Option.some.injEq] at hop
            subst hop
            rw [hm.leave_eq]
            have hl := Mem.leave_cases h.inv.store.linked q c resumable now
            generalize (σ.layer.mem.leave q c resumable now).1 = m',
              (σ.layer.mem.leave q c resumable now).2.1 = res,
              (σ.layer.mem.leave q c resumable now).2.2 = due at hl hs
            cases hl with
            | gone hclosed => exact hclosed
            | displaced => cases hs
            | ended => simp
            | parked => cases hs

/-- **Every step keeps the connections wired.** -/
theorem step (h : σ.Wired) (hstep : σ.Step a σ') : σ'.Wired where
  inv := hstep.inv h.inv
  due := by
    rcases hstep.layer with heq | ⟨b, hb, -⟩
    · rw [heq]
      exact h.due
    · exact h.due.step h.inv hb
  early c hs := by
    obtain ⟨hearly, hopen⟩ := (hstep.stage c).early hs
    rcases hstep.session h.inv c with heq | ⟨_, _, _, _, ha, -⟩
    · exact heq.trans (h.early c hearly)
    · exact absurd ha (hopen _ _ _)
  transfers := h.step_transfers hstep
  unregistering _ _ := h.step_unregistering hstep

/-- What is known of the connections, in every run. -/
theorem of_reachable {opt : SessionOptions} {digest : String → String}
    {sendBuffer : ClientRef → ℤ} (h : Reachable Step (init opt digest sendBuffer) σ) : σ.Wired :=
  h.invariant (wired_init opt digest sendBuffer) fun _ _ _ hs hstep => hs.step hstep

/-- **A connection that is unregistered has no open session.** -/
theorem removed (h : σ.Wired) {c : ClientRef} (hc : σ.Removes a c) {p : SessionRef}
    (hp : (σ.layer.mem.client c).session = some p) : (σ.layer.mem.session p).state = .closed := by
  rcases hc with ⟨-, hs | hs⟩ | ⟨x, hx, -, hm⟩
  · rw [h.early c (hs ▸ trivial)] at hp
    cases hp
  · exact h.unregistering c p hs hp
  · obtain rfl := Option.some.inj ((h.inv.bound.member hm).symm.trans hp)
    exact (h.due x hx).2

end Wired

/-- Some client of the session is in the room. -/
def Joined (σ : Sys) (p : SessionRef) (room : String) : Prop :=
  ∃ c, (σ.layer.mem.client c).session = some p ∧ c ∈ σ.hub.members room

end Sys
end GoSocket
