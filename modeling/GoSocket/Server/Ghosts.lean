/-
# Members of rooms that are not clients

`removeClientMaps` takes a client out of every room, and the hub sends to a room and
counts it without looking at `clients`.  But `joinRoom` does not look at `clients`
either, and a `Join` may come after the `Unregister` of its client: the callbacks of
`OnDisconnect` run after `retire`, and a handler may still be running, or may have kept
its context.  Nothing takes such a client out of the room again (`ghost_joined`).

A request brings in a ghost exactly when it puts an unregistered client into a room,
by a `Join` or as the new client of a `Transfer` (`noGhost_apply_iff`), so a run of the
server has none exactly when no step of it does that (`no_ghosts_iff`).
-/

import GoSocket.Server.RoomMaps

namespace GoSocket

open Lib

namespace Hub

/-- Every member of a room is a registered client. -/
def NoGhost (h : Hub) : Prop := ∀ c room, c ∈ h.members room → c ∈ h.clients

/-- The request puts `c` into a room. -/
def Adds (h : Hub) (c : ClientRef) : HubOp → Prop
  | .join d room _ => c = d ∧ room ≠ ""
  | .transfer old new => c = new ∧ old ≠ new ∧ ∃ room, old ∈ h.members room
  | .register _ | .unregister _ | .leave .. | .drain => False

/-- A new hub has no member at all. -/
theorem noGhost_newHub : newHub.NoGhost := by
  intro c room hc
  simp [newHub, members] at hc

/-- Without ghosts a job is only sent to clients. -/
theorem NoGhost.collectTargets {h : Hub} (hg : h.NoGhost) {e : EmitJob} {c : ClientRef}
    (hc : c ∈ h.collectTargets e) : c ∈ h.clients := by
  rcases h.known_of_mem_collectTargets c hc with hc | ⟨room, hc⟩
  · exact hc
  · exact hg c room hc

/-- A `join` brings in a ghost if it is not of a client. -/
theorem NoGhost.joinRoom_iff {h : Hub} (hg : h.NoGhost) (d : ClientRef) (room : String) (now : ℤ) :
    (h.joinRoom d room now).NoGhost ↔ d ∈ h.clients := by
  constructor
  · intro hg'
    have hd := hg' d room (by simp)
    rwa [clients_joinRoom] at hd
  · intro hd c room' hc
    rw [clients_joinRoom]
    rcases (h.mem_members_joinRoom d c room now room').1 hc with ⟨-, rfl⟩ | hc
    · exact hd
    · exact hg c room' hc

/-- Leaving a room adds no member. -/
theorem NoGhost.leaveRoom {h : Hub} (hg : h.NoGhost) (d : ClientRef) (room : String) :
    (h.leaveRoom d room).NoGhost := by
  intro c room' hc
  rw [clients_leaveRoom]
  exact hg c room' ((h.mem_members_leaveRoom d c room room').1 hc).1

/-- Unregistering adds no member. -/
theorem NoGhost.removeClientMaps {h : Hub} (hg : h.NoGhost) (d : ClientRef) :
    (h.removeClientMaps d).NoGhost := by
  intro c room hc
  obtain ⟨hne, hc⟩ := (h.mem_members_removeClientMaps d c room).1 hc
  exact (h.mem_clients_removeClientMaps d c).2 ⟨hne, hg c room hc⟩

/-- A transfer brings in a ghost if there is a room to take over and `new` is not a client. -/
theorem NoGhost.transferMembership_iff {h : Hub} (hg : h.NoGhost) {old new : ClientRef}
    (hne : old ≠ new) :
    (h.transferMembership old new).NoGhost ↔
      ((∃ room, old ∈ h.members room) → new ∈ h.clients) := by
  constructor
  · rintro hg' ⟨room, hold⟩
    have hnew := hg' new room (by simp [hold])
    exact ((h.mem_clients_transferMembership new old new).1 hnew).2
  · intro hnew c room hc
    rw [mem_clients_transferMembership]
    rcases (h.mem_members_transferMembership c room old new).1 hc with ⟨hold, hc⟩ | ⟨rfl, hold⟩
    · exact ⟨hold, hg c room hc⟩
    · exact ⟨hne.symm, hnew ⟨room, hold⟩⟩

/-- **A request brings in a ghost** exactly when it puts a client into a room that is not
registered. -/
theorem noGhost_apply_iff {h : Hub} (hg : h.NoGhost) (op : HubOp) :
    (h.apply op).NoGhost ↔ ∀ c, h.Adds c op → c ∈ h.clients := by
  cases op with
  | register d =>
      refine iff_of_true (fun c room hc => ?_) fun c hadd => hadd.elim
      exact (h.mem_clients_registerClient d c).2 (Or.inr (hg c room hc))
  | unregister d => exact iff_of_true (hg.removeClientMaps d) fun c hadd => hadd.elim
  | join d room now =>
      rw [apply]
      split_ifs with hroom
      · exact iff_of_true hg fun c hadd => absurd hroom hadd.2
      · rw [hg.joinRoom_iff]
        exact ⟨fun hd c hadd => hadd.1 ▸ hd, fun hadd => hadd d ⟨rfl, hroom⟩⟩
  | leave d room =>
      refine iff_of_true ?_ fun c hadd => hadd.elim
      rw [apply]
      split_ifs
      · exact hg
      · exact hg.leaveRoom d room
  | transfer old new =>
      rw [apply]
      split_ifs with hne
      · exact iff_of_true hg fun c hadd => absurd hne hadd.2.1
      · rw [hg.transferMembership_iff hne]
        exact ⟨fun hnew c hadd => hadd.1 ▸ hnew hadd.2.2, fun hadd h => hadd new ⟨rfl, hne, h⟩⟩
  | drain => exact iff_of_true noGhost_newHub fun c hadd => hadd.elim

end Hub

namespace Sys

/-- Whoever the step puts into a room is registered before the step. -/
def Registered (σ : Sys) (a : SysOp) : Prop :=
  σ.phase = .closed ∨ ∀ op, σ.asks a = some op → ∀ c, σ.hub.Adds c op → c ∈ σ.hub.clients

/-- A step makes no ghost exactly when its joiner is registered. -/
theorem Step.noGhost_iff {σ σ' : Sys} {a : SysOp} (hstep : σ.Step a σ') (hg : σ.hub.NoGhost) :
    σ'.hub.NoGhost ↔ σ.Registered a := by
  rw [hstep.hub_eq, Registered]
  split_ifs with hclosed
  · exact iff_of_true hg (Or.inl hclosed)
  rw [or_iff_right hclosed]
  cases hop : σ.asks a with
  | none => exact iff_of_true hg fun op h => by cases h
  | some op =>
      refine (Hub.noGhost_apply_iff hg op).trans ⟨fun hadd op' h => ?_, fun hadd => hadd op rfl⟩
      obtain rfl := Option.some.inj h
      exact hadd

/-- **No ghosts.**  In a run of the server every member of a room is registered, in every
state, exactly when every step puts only registered clients into rooms. -/
theorem no_ghosts_iff (opt : SessionOptions) (digest : String → String)
    (sendBuffer : ClientRef → ℤ) (ops : List SysOp) (σ : Sys) :
    Steps (Guarded Registered Step) (init opt digest sendBuffer) ops σ ↔
      Steps (Keeping (fun σ => σ.hub.NoGhost) Step) (init opt digest sendBuffer) ops σ :=
  Steps.guarded_iff_keeping (fun _ _ _ hg hstep => hstep.noGhost_iff hg) Hub.noGhost_newHub

/-- **Counterexample.**  A connection without a session ends; after its `Unregister` a
callback of `OnDisconnect` joins a room. -/
theorem ghost_joined :
    ∃ σ, Reachable Step (init ⟨0, 0, 0, 0, 0⟩ id fun _ => 0) σ ∧ σ.stage 0 = .done ∧
      0 ∈ σ.hub.members "r" ∧ 0 ∉ σ.hub.clients := by
  obtain ⟨σ, hσ, hp⟩ := Reachable.of_exec step (s := init ⟨0, 0, 0, 0, 0⟩ id fun _ => 0)
    [.accept 0, .register 0, .layer (.openSession 0 ⟨false, false, "", 0, ""⟩ 0 none),
      .retire 0, .unregister 0, .join 0 "r" 5]
    (p := fun σ => σ.stage 0 = .done ∧ 0 ∈ σ.hub.members "r" ∧ 0 ∉ σ.hub.clients)
    (by decide +kernel)
  exact ⟨σ, hσ, of_decide_eq_true hp⟩

end Sys
end GoSocket
