/-
# The hub

`internal/hub.go`: the clients the server knows and the members of its rooms.
One goroutine (`Hub.Run`) takes one request after the other; this module has
what each of them does to the maps.  A room is in the map `rooms` from its first
`join` on, and it is deleted by the `leave` or the `unregister` that empties it.

Reading a room that is not in the map gives no members, as it does in the
source; `members` is that read, and every request is described by what it does
to it.

The iteration order over a map is the scheduler's choice, so `collectTargets` is
a set here and the order is chosen by the run.  `EmitJob.Event` is only printed.
-/

import GoSocket.Session.Session
import Mathlib.Data.Finset.Basic
import Mathlib.Data.Finset.Filter

namespace GoSocket

open Lib

/-- A fan-out delivery request. -/
structure EmitJob where
  /-- Selects the members of a room, when `only` is nil. -/
  room : String
  /-- Removes a client from the targets. -/
  exclude : Option ClientRef := none
  /-- Targets a single client. -/
  only : Option ClientRef := none
  /-- Targets every registered client. -/
  allClients : Bool := false
  data : Bytes
  policy : SendPolicy := .disconnect
  deriving DecidableEq

/-- The maps of the hub. -/
structure Hub where
  clients : Finset ClientRef
  rooms : String → Option (Finset ClientRef)
  /-- When each room first received a member. -/
  roomCreated : String → Option ℤ

/-- A hub that has just started, and one that was drained. -/
def newHub : Hub where
  clients := ∅
  rooms := fun _ => none
  roomCreated := fun _ => none

namespace Hub

/-- The members of a room; a room that is not in the map has none. -/
def members (h : Hub) (room : String) : Finset ClientRef := (h.rooms room).getD ∅

def registerClient (h : Hub) (c : ClientRef) : Hub := { h with clients := insert c h.clients }

def joinRoom (h : Hub) (c : ClientRef) (room : String) (now : ℤ) : Hub :=
  match h.rooms room with
  | none =>
      { h with
        rooms := Function.update h.rooms room (some {c})
        roomCreated := Function.update h.roomCreated room (some now) }
  | some m => { h with rooms := Function.update h.rooms room (some (insert c m)) }

def leaveRoom (h : Hub) (c : ClientRef) (room : String) : Hub :=
  match h.rooms room with
  | none => h
  | some m =>
      if m.erase c = ∅ then
        { h with
          rooms := Function.update h.rooms room none
          roomCreated := Function.update h.roomCreated room none }
      else { h with rooms := Function.update h.rooms room (some (m.erase c)) }

/-- `old` leaves the hub and `new` takes its place in its rooms. -/
def transferMembership (h : Hub) (old new : ClientRef) : Hub :=
  { h with
    clients := h.clients.erase old
    rooms := fun room => (h.rooms room).map fun m =>
      if old ∈ m then insert new (m.erase old) else m }

def removeClientMaps (h : Hub) (c : ClientRef) : Hub where
  clients := h.clients.erase c
  rooms room := (h.rooms room).bind fun m => if m.erase c = ∅ then none else some (m.erase c)
  roomCreated room :=
    match h.rooms room with
    | none => h.roomCreated room
    | some m => if m.erase c = ∅ then none else h.roomCreated room

/-- Whom a job is sent to. -/
def collectTargets (h : Hub) (e : EmitJob) : Finset ClientRef :=
  if e.allClients = true then h.clients.filter fun c => e.exclude ≠ some c
  else
    match e.only with
    | some c => if c ∈ h.clients then {c} else ∅
    | none => (h.members e.room).filter fun c => e.exclude ≠ some c

variable (h : Hub) (c d : ClientRef) (room : String)

/-- Registering adds the client and keeps the others. -/
@[simp] theorem mem_clients_registerClient :
    d ∈ (h.registerClient c).clients ↔ d = c ∨ d ∈ h.clients :=
  Finset.mem_insert

/-- Joining a room registers no client. -/
@[simp] theorem clients_joinRoom (now : ℤ) : (h.joinRoom c room now).clients = h.clients := by
  unfold joinRoom
  split <;> rfl

/-- Leaving a room unregisters no client. -/
@[simp] theorem clients_leaveRoom : (h.leaveRoom c room).clients = h.clients := by
  unfold leaveRoom
  split
  · rfl
  · split_ifs <;> rfl

/-- **A `join` adds its client to its room.** -/
@[simp] theorem mem_members_joinRoom (now : ℤ) (room' : String) :
    d ∈ (h.joinRoom c room now).members room' ↔ room' = room ∧ d = c ∨ d ∈ h.members room' := by
  unfold members joinRoom
  by_cases hroom : room' = room
  · subst hroom
    cases hm : h.rooms room' <;> simp
  · cases hm : h.rooms room <;> simp [hroom]

/-- **A `leave` removes its client from its room.** -/
@[simp] theorem mem_members_leaveRoom (room' : String) :
    d ∈ (h.leaveRoom c room).members room' ↔ d ∈ h.members room' ∧ ¬ (room' = room ∧ d = c) := by
  unfold members leaveRoom
  by_cases hroom : room' = room
  · subst hroom
    cases hm : h.rooms room' with
    | none => simp [hm]
    | some m =>
        dsimp only
        split_ifs with hempty
        · have hd : d ∈ m → d = c := by
            intro hdm
            by_contra hdc
            have := Finset.mem_erase.2 ⟨hdc, hdm⟩
            rw [hempty] at this
            exact absurd this (Finset.notMem_empty d)
          simpa using hd
        · simp [and_comm]
  · cases hm : h.rooms room with
    | none => simp [hroom]
    | some m =>
        dsimp only
        split_ifs <;> simp [hroom]

/-- A transfer drops the old client and keeps the others. -/
@[simp] theorem mem_clients_transferMembership (old new : ClientRef) :
    d ∈ (h.transferMembership old new).clients ↔ d ≠ old ∧ d ∈ h.clients :=
  Finset.mem_erase

/-- **A transfer replaces `old` by `new`** in the rooms that held `old`. -/
@[simp] theorem mem_members_transferMembership (old new : ClientRef) :
    d ∈ (h.transferMembership old new).members room ↔
      d ≠ old ∧ d ∈ h.members room ∨ d = new ∧ old ∈ h.members room := by
  unfold members transferMembership
  dsimp only
  cases hm : h.rooms room with
  | none => simp
  | some m =>
      simp only [Option.map_some, Option.getD_some]
      split_ifs with hold
      · simp [hold, or_comm]
      · simp only [hold, and_false, or_false]
        exact ⟨fun hd => ⟨fun hdo => hold (hdo ▸ hd), hd⟩, And.right⟩

/-- Unregistering drops the client and keeps the others. -/
@[simp] theorem mem_clients_removeClientMaps :
    d ∈ (h.removeClientMaps c).clients ↔ d ≠ c ∧ d ∈ h.clients :=
  Finset.mem_erase

/-- **An `unregister` removes its client from every room.** -/
@[simp] theorem mem_members_removeClientMaps :
    d ∈ (h.removeClientMaps c).members room ↔ d ≠ c ∧ d ∈ h.members room := by
  unfold members removeClientMaps
  dsimp only
  cases hm : h.rooms room with
  | none => simp
  | some m =>
      simp only [Option.bind_some, Option.getD_some]
      rw [← Finset.mem_erase]
      split_ifs with hempty
      · simp [hempty]
      · rfl

/-- A target is a client or a member of a room. -/
theorem known_of_mem_collectTargets {e : EmitJob} (hc : c ∈ h.collectTargets e) :
    c ∈ h.clients ∨ ∃ room, c ∈ h.members room := by
  unfold collectTargets at hc
  split_ifs at hc
  · exact Or.inl (Finset.mem_of_mem_filter c hc)
  · split at hc
    · split_ifs at hc with hd
      · rw [Finset.mem_singleton.1 hc]
        exact Or.inl hd
      · exact absurd hc (Finset.notMem_empty c)
    · exact Or.inr ⟨e.room, Finset.mem_of_mem_filter c hc⟩

/-- A room job that excludes nobody is for every member of the room. -/
theorem collectTargets_room {e : EmitJob} (hall : e.allClients = false) (honly : e.only = none)
    (hexclude : e.exclude = none) : h.collectTargets e = h.members e.room := by
  simp [collectTargets, hall, honly, hexclude]

end Hub
end GoSocket
