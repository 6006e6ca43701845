/-
# The maps of the hub

The hub keeps two maps with a room as the key, its members and its time of creation.
Six requests change them, and each has its own code for a room that becomes empty.
`Hub.apply` has them as the exported methods do: `Join` and `Leave` ignore the empty
room name and `Transfer` ignores a client that is transferred to itself.

Whatever the requests and their order, the two maps have the same rooms, none of them
empty, and a room's time of creation is the time of the latest `join` that did not find
it (`rooms_consistent`).  `HubMaps` is a hub with the finite list of its rooms, over
which `ClientRoomCount` counts.  The hub of a running server is one of these
(`hub_run`).
-/

import GoSocket.Server.System
import Mathlib.Data.Finset.Card

namespace GoSocket

open Lib

/-- A request to the hub, or the end of it. -/
inductive HubOp where
  | register (c : ClientRef)
  | unregister (c : ClientRef)
  /-- A `Join` that the hub takes at the time `now`. -/
  | join (c : ClientRef) (room : String) (now : ℤ)
  | leave (c : ClientRef) (room : String)
  | transfer (old new : ClientRef)
  | drain
  deriving DecidableEq

namespace Hub

/-- What a request does to the maps. -/
def apply (h : Hub) : HubOp → Hub
  | .register c => h.registerClient c
  | .unregister c => h.removeClientMaps c
  | .join c room now => if room = "" then h else h.joinRoom c room now
  | .leave c room => if room = "" then h else h.leaveRoom c room
  | .transfer old new => if old = new then h else h.transferMembership old new
  | .drain => newHub

/-- The hub after some requests. -/
def run (ops : List HubOp) : Hub := ops.foldl apply newHub

/-- One more operation at the end of a run. -/
theorem run_append_singleton (ops : List HubOp) (op : HubOp) :
    run (ops ++ [op]) = (run ops).apply op := by
  simp [run]

/-- The two maps have the same rooms, and no room is empty. -/
structure Consistent (h : Hub) : Prop where
  keys : ∀ room, h.rooms room = none ↔ h.roomCreated room = none
  nonempty : ∀ room m, h.rooms room = some m → m ≠ ∅

/-- The maps of a new hub agree: they are empty. -/
theorem consistent_newHub : newHub.Consistent where
  keys room := by simp [newHub]
  nonempty room m hm := by simp [newHub] at hm

/-- What the request `op` can do to the entries of a room: its members and its time of
creation. -/
inductive RoomStep (h : Hub) (op : HubOp) (room : String) :
    Option (Finset ClientRef) → Option ℤ → Prop where
  | same : RoomStep h op room (h.rooms room) (h.roomCreated room)
  | created {c : ClientRef} {now : ℤ} : op = .join c room now → h.rooms room = none →
      RoomStep h op room (some {c}) (some now)
  | changed {m m' : Finset ClientRef} : h.rooms room = some m → m' ≠ ∅ →
      RoomStep h op room (some m') (h.roomCreated room)
  | gone : RoomStep h op room none none

section entries

variable (h : Hub) (c : ClientRef) (room r : String)

/-- What joining does to the entries of each room. -/
theorem joinRoom_entries (now : ℤ) :
    RoomStep h (.join c room now) r ((h.joinRoom c room now).rooms r)
      ((h.joinRoom c room now).roomCreated r) := by
  unfold joinRoom
  by_cases hr : r = room
  · subst hr
    cases hm : h.rooms r with
    | none =>
        simp only [Function.update_self]
        exact .created rfl hm
    | some m =>
        simp only [Function.update_self]
        exact .changed hm (Finset.insert_ne_empty c m)
  · cases hm : h.rooms room <;> simpa only [Function.update_of_ne hr] using .same

/-- What leaving does to the entries of each room. -/
theorem leaveRoom_entries :
    RoomStep h (.leave c room) r ((h.leaveRoom c room).rooms r)
      ((h.leaveRoom c room).roomCreated r) := by
  unfold leaveRoom
  cases hm : h.rooms room with
  | none => exact .same
  | some m =>
      dsimp only
      by_cases hr : r = room
      · subst hr
        split_ifs with hempty
        · simpa only [Function.update_self] using .gone
        · simpa only [Function.update_self] using .changed hm hempty
      · split_ifs <;> simpa only [Function.update_of_ne hr] using .same

/-- What a transfer does to the entries of each room. -/
theorem transferMembership_entries (old new : ClientRef) :
    RoomStep h (.transfer old new) r ((h.transferMembership old new).rooms r)
      ((h.transferMembership old new).roomCreated r) := by
  unfold transferMembership
  dsimp only
  cases hm : h.rooms r with
  | none =>
      rw [Option.map_none, ← hm]
      exact .same
  | some m =>
      rw [Option.map_some]
      split_ifs
      · exact .changed hm (Finset.insert_ne_empty new _)
      · rw [← hm]
        exact .same

/-- What unregistering does to the entries of each room. -/
theorem removeClientMaps_entries :
    RoomStep h (.unregister c) r ((h.removeClientMaps c).rooms r)
      ((h.removeClientMaps c).roomCreated r) := by
  unfold removeClientMaps
  dsimp only
  cases hm : h.rooms r with
  | none =>
      have hsame := @RoomStep.same h (.unregister c) r
      rwa [hm] at hsame
  | some m =>
      rw [Option.bind_some]
      dsimp only
      split_ifs with hempty
      · exact .gone
      · exact .changed hm hempty

/-- **Everything a request can do to a room.** -/
theorem apply_entries (op : HubOp) :
    RoomStep h op r ((h.apply op).rooms r) ((h.apply op).roomCreated r) := by
  cases op with
  | register c => exact .same
  | unregister c => exact removeClientMaps_entries h c r
  | join c room now =>
      rw [apply]
      split_ifs
      · exact .same
      · exact joinRoom_entries h c room r now
  | leave c room =>
      rw [apply]
      split_ifs
      · exact .same
      · exact leaveRoom_entries h c room r
  | transfer old new =>
      rw [apply]
      split_ifs
      · exact .same
      · exact transferMembership_entries h r old new
  | drain => exact .gone

end entries

/-- **Every request keeps the maps consistent.** -/
theorem Consistent.apply {h : Hub} (hc : h.Consistent) (op : HubOp) : (h.apply op).Consistent where
  keys room := by
    have hstep := h.apply_entries room op
    generalize (h.apply op).rooms room = m, (h.apply op).roomCreated room = t at hstep
    cases hstep with
    | same => exact hc.keys room
    | created => simp
    | changed hm _ => simp [← hc.keys room, hm]
    | gone => simp
  nonempty room m hm := by
    have hstep := h.apply_entries room op
    generalize (h.apply op).rooms room = m', (h.apply op).roomCreated room = t at hstep hm
    cases hstep with
    | same => exact hc.nonempty room m hm
    | @created c now _ _ =>
        obtain rfl := Option.some.inj hm
        exact Finset.singleton_ne_empty c
    | changed _ hne =>
        obtain rfl := Option.some.inj hm
        exact hne
    | gone => cases hm

/-- The two maps agree after every run. -/
theorem consistent_run (ops : List HubOp) : (run ops).Consistent := by
  induction ops using List.reverseRecOn with
  | nil => exact consistent_newHub
  | append_singleton ops op ih =>
      rw [run_append_singleton]
      exact ih.apply op

/-- The request at position `i` is a `join` that does not find the room. -/
def Creates (ops : List HubOp) (room : String) (i : ℕ) (now : ℤ) : Prop :=
  ∃ c, ops[i]? = some (.join c room now) ∧ (run (ops.take i)).rooms room = none

/-- A later operation does not change which one created a room before. -/
theorem creates_append_iff {ops : List HubOp} {op : HubOp} {room : String} {i : ℕ} {now : ℤ}
    (hi : i < ops.length) : Creates (ops ++ [op]) room i now ↔ Creates ops room i now := by
  rw [Creates, Creates, List.getElem?_append_left hi, List.take_append_of_le_length hi.le]

/-- A room is created by an operation of the run. -/
theorem Creates.lt {ops : List HubOp} {room : String} {i : ℕ} {now : ℤ}
    (h : Creates ops room i now) : i < ops.length := by
  obtain ⟨c, hc, -⟩ := h
  exact (List.getElem?_eq_some_iff.1 hc).1

/-- A room of a longer run is created before its end. -/
theorem Creates.le {ops : List HubOp} {op : HubOp} {room : String} {i : ℕ} {now : ℤ}
    (h : Creates (ops ++ [op]) room i now) : i ≤ ops.length := by
  have hlt := h.lt
  rw [List.length_append, List.length_singleton] at hlt
  exact Nat.le_of_lt_succ hlt

/-- The last request can only create a room that is not there. -/
theorem Creates.rooms_eq_none {ops : List HubOp} {op : HubOp} {room : String} {now : ℤ}
    (h : Creates (ops ++ [op]) room ops.length now) : (run ops).rooms room = none := by
  obtain ⟨c, -, hnone⟩ := h
  rwa [List.take_left] at hnone

/-- As long as the room is there, the latest `join` that created it stays the latest. -/
theorem Creates.latest_append {ops : List HubOp} {op : HubOp} {room : String} {i : ℕ} {now : ℤ}
    (hi : Creates ops room i now) (hmax : ∀ j now', Creates ops room j now' → j ≤ i)
    (hroom : (run ops).rooms room ≠ none) :
    Creates (ops ++ [op]) room i now ∧
      ∀ j now', Creates (ops ++ [op]) room j now' → j ≤ i := by
  refine ⟨(creates_append_iff hi.lt).2 hi, fun j now' hj => ?_⟩
  rcases Nat.lt_or_eq_of_le hj.le with hlt | rfl
  · exact hmax j now' ((creates_append_iff hlt).1 hj)
  · exact absurd hj.rooms_eq_none hroom

/-- **A room's time of creation** is the time of the latest `join` that did not find it. -/
theorem roomCreated_run {ops : List HubOp} {room : String} {now : ℤ}
    (h : (run ops).roomCreated room = some now) :
    ∃ i, Creates ops room i now ∧ ∀ j now', Creates ops room j now' → j ≤ i := by
  induction ops using List.reverseRecOn with
  | nil => simp [run, newHub] at h
  | append_singleton ops op ih =>
      have hstep := (run ops).apply_entries room op
      rw [← run_append_singleton] at hstep
      generalize (run (ops ++ [op])).rooms room = m,
        (run (ops ++ [op])).roomCreated room = t at hstep h
      cases hstep with
      | same =>
          obtain ⟨i, hi, hmax⟩ := ih h
          have hroom : (run ops).rooms room ≠ none := by
            rw [Ne, (consistent_run ops).keys room, h]
            simp
          exact ⟨i, hi.latest_append hmax hroom⟩
      | changed hm _ =>
          obtain ⟨i, hi, hmax⟩ := ih h
          exact ⟨i, hi.latest_append hmax (by simp [hm])⟩
      | @created c now' hop hnone =>
          obtain rfl := Option.some.inj h
          refine ⟨ops.length, ⟨c, ?_, ?_⟩, fun j now' hj => hj.le⟩
          · rw [List.getElem?_concat_length, hop]
          · rwa [List.take_left]
      | gone => cases h

end Hub

/-- The room that a request can bring into the maps. -/
def HubOp.named : HubOp → Finset String
  | .join _ room _ => {room}
  | .register _ | .unregister _ | .leave .. | .transfer .. | .drain => ∅

/-- An operation makes no room but one it names. -/
theorem Hub.rooms_apply {h : Hub} {op : HubOp} {room : String}
    (hroom : (h.apply op).rooms room ≠ none) : h.rooms room ≠ none ∨ room ∈ op.named := by
  have hstep := h.apply_entries room op
  generalize (h.apply op).rooms room = m, (h.apply op).roomCreated room = t at hstep hroom
  cases hstep with
  | same => exact Or.inl hroom
  | created hop _ => exact Or.inr (hop ▸ Finset.mem_singleton_self room)
  | changed hm _ => exact Or.inl (by simp [hm])
  | gone => exact absurd rfl hroom

/-- A hub with the list of its rooms. -/
structure HubMaps where
  hub : Hub
  /-- `AllRooms`, in no order. -/
  allRooms : Finset String
  mem_allRooms : ∀ room, room ∈ allRooms ↔ hub.rooms room ≠ none

namespace HubMaps

def new : HubMaps where
  hub := newHub
  allRooms := ∅
  mem_allRooms room := by simp [newHub]

def apply (m : HubMaps) (op : HubOp) : HubMaps where
  hub := m.hub.apply op
  allRooms := (m.allRooms ∪ op.named).filter fun room => ((m.hub.apply op).rooms room).isSome
  mem_allRooms room := by
    rw [Finset.mem_filter, Finset.mem_union, m.mem_allRooms, Option.isSome_iff_ne_none]
    exact ⟨And.right, fun hroom => ⟨Hub.rooms_apply hroom, hroom⟩⟩

def run (ops : List HubOp) : HubMaps := ops.foldl apply new

/-- The hub of a run with history is that of the run. -/
theorem hub_run (ops : List HubOp) : (run ops).hub = Hub.run ops :=
  (List.foldl_hom hub fun _ _ => rfl).symm

/-- The rooms that a client is in. -/
def roomsOf (m : HubMaps) (c : ClientRef) : Finset String :=
  m.allRooms.filter fun room => c ∈ m.hub.members room

def clientRoomCount (m : HubMaps) (c : ClientRef) : ℕ := (m.roomsOf c).card

variable (m : HubMaps) (c : ClientRef) (room : String)

/-- A room with a member is in the list. -/
@[simp] theorem mem_roomsOf : room ∈ m.roomsOf c ↔ c ∈ m.hub.members room := by
  rw [roomsOf, Finset.mem_filter, m.mem_allRooms]
  refine ⟨And.right, fun hc => ⟨fun hnone => ?_, hc⟩⟩
  rw [Hub.members, hnone] at hc
  exact absurd hc (Finset.notMem_empty c)

/-- The new client has its own rooms and those of the old one. -/
theorem roomsOf_transfer_new {old new : ClientRef} (hne : old ≠ new) :
    (m.apply (.transfer old new)).roomsOf new = m.roomsOf new ∪ m.roomsOf old := by
  ext room
  rw [Finset.mem_union, mem_roomsOf, mem_roomsOf, mem_roomsOf]
  simp [apply, Hub.apply, hne, hne.symm]

/-- The old client is left with no room. -/
theorem roomsOf_transfer_old {old new : ClientRef} (hne : old ≠ new) :
    (m.apply (.transfer old new)).roomsOf old = ∅ := by
  ext room
  rw [mem_roomsOf]
  simp [apply, Hub.apply, hne]

end HubMaps

namespace Hub

/-- Unregistering takes the client out of every room. -/
theorem members_unregister (h : Hub) (c : ClientRef) (room : String) :
    (h.apply (.unregister c)).members room = (h.members room).erase c := by
  ext d
  rw [Finset.mem_erase]
  exact mem_members_removeClientMaps h c d room

/-- A transfer puts the new client in the place of the old one, in its rooms. -/
theorem members_transfer (h : Hub) {old new : ClientRef} (hne : old ≠ new) (room : String) :
    (h.apply (.transfer old new)).members room =
      if old ∈ h.members room then insert new ((h.members room).erase old)
      else h.members room := by
  ext d
  rw [apply, if_neg hne, mem_members_transferMembership]
  split_ifs with hold
  · simp [hold, or_comm]
  · simp only [hold, and_false, or_false, and_iff_right_iff_imp]
    rintro hd rfl
    exact hold hd

/-- **The rooms of the hub are consistent after any requests.** -/
theorem rooms_consistent (ops : List HubOp) :
    (HubMaps.run ops).hub = run ops ∧
      (∀ room, (run ops).rooms room = none ↔ (run ops).roomCreated room = none) ∧
      (∀ room m, (run ops).rooms room = some m → m ≠ ∅) ∧
      (∀ room now, (run ops).roomCreated room = some now →
        ∃ i, Creates ops room i now ∧ ∀ j now', Creates ops room j now' → j ≤ i) ∧
      (∀ c room, (run (ops ++ [.unregister c])).members room = ((run ops).members room).erase c) ∧
      ∀ old new, old ≠ new →
        (∀ room, (run (ops ++ [.transfer old new])).members room =
          if old ∈ (run ops).members room then insert new (((run ops).members room).erase old)
          else (run ops).members room) ∧
        (HubMaps.run (ops ++ [.transfer old new])).clientRoomCount new =
          ((HubMaps.run ops).roomsOf new ∪ (HubMaps.run ops).roomsOf old).card ∧
        (HubMaps.run (ops ++ [.transfer old new])).clientRoomCount old = 0 := by
  refine ⟨HubMaps.hub_run ops, (consistent_run ops).keys, (consistent_run ops).nonempty,
    fun room now => roomCreated_run, fun c room => ?_, fun old new hne => ⟨fun room => ?_, ?_⟩⟩
  · rw [run_append_singleton, members_unregister]
  · rw [run_append_singleton, members_transfer _ hne]
  · have hrun : HubMaps.run (ops ++ [.transfer old new]) =
        (HubMaps.run ops).apply (.transfer old new) := by
      simp [HubMaps.run]
    rw [hrun, HubMaps.clientRoomCount, HubMaps.clientRoomCount,
      HubMaps.roomsOf_transfer_new _ hne, HubMaps.roomsOf_transfer_old _ hne]
    exact ⟨rfl, Finset.card_empty⟩

/-- Client 0 is in `a` and `b` and client 1 is in `b`: the two rooms are 1's after the
transfer. -/
theorem rooms_consistent_two :
    (HubMaps.run [.join 0 "a" 1, .join 0 "b" 2, .join 1 "b" 3, .transfer 0 1]).clientRoomCount 1
        = 2 ∧
      (HubMaps.run [.join 0 "a" 1, .join 0 "b" 2, .join 1 "b" 3, .transfer 0 1]).clientRoomCount 0
        = 0 ∧
      (run [.join 0 "a" 1, .join 0 "b" 2, .join 1 "b" 3]).roomCreated "b" = some 2 := by
  have h := (rooms_consistent [.join 0 "a" 1, .join 0 "b" 2, .join 1 "b" 3]).2.2.2.2.2 0 1
    (by decide)
  exact ⟨h.2.1.trans (by decide +kernel), h.2.2, by decide +kernel⟩

end Hub

namespace Sys

variable {σ σ' : Sys} {a : SysOp}

/-- The request that a step makes to the hub, if the hub is there to take it. -/
def asks (σ : Sys) : SysOp → Option HubOp
  | .register c => some (.register c)
  | .unregister c => some (.unregister c)
  | .join c room now => some (.join c room now)
  | .leaveRoom c room => some (.leave c room)
  | .transfer prev c => some (.transfer prev c)
  | .layer (.release x) => (σ.layer.mem.session x.1).member.map .unregister
  | .drain _ => some .drain
  | _ => none

/-- **What a step does to the maps** is its request, until the hub has returned. -/
theorem Step.hub_eq (hstep : σ.Step a σ') :
    σ'.hub = if σ.phase = .closed then σ.hub else (σ.asks a).elim σ.hub σ.hub.apply := by
  cases hstep.took with
  | register => rfl
  | @layer b f =>
      show (σ.follow b).hub = _
      unfold follow
      split
      · unfold afterOpen
        split <;> exact (ite_self σ.hub).symm
      · exact (ite_self σ.hub).symm
      · split <;> exact (ite_self σ.hub).symm
      · split
        next hm => simp only [asks, hm]; rfl
        next hm => simp only [asks, hm]; exact (ite_self σ.hub).symm
      next hrel =>
        have hnone : σ.asks (.layer b) = none := by
          cases b with
          | release x => exact absurd rfl (hrel x)
          | _ => rfl
        rw [hnone]
        exact (ite_self σ.hub).symm
  | @transfer prev c =>
      show (σ.transfer prev c).hub = _
      unfold Sys.transfer
      by_cases hpc : prev = c <;> simp [request, asks, Hub.apply, hpc]
  | unregister => rfl
  | join =>
      obtain ⟨hs, -⟩ := Option.ite_none_right_eq_some.1 hstep
      simp [request, asks, Hub.apply, hs.2.1]
  | leaveRoom =>
      obtain ⟨hs, -⟩ := Option.ite_none_right_eq_some.1 hstep
      simp [request, asks, Hub.apply, hs.2.1]
  | drain hp => rw [if_neg (by simp [hp])]; rfl
  | _ => exact (ite_self σ.hub).symm

/-- **The hub of a server is a hub after some requests.** -/
theorem hub_run {opt : SessionOptions} {digest : String → String} {sendBuffer : ClientRef → ℤ}
    (h : Reachable Step (init opt digest sendBuffer) σ) : ∃ ops, σ.hub = Hub.run ops := by
  refine h.invariant (P := fun σ => ∃ ops, σ.hub = Hub.run ops) ⟨[], rfl⟩ ?_
  rintro s a t ⟨ops, hops⟩ hstep
  rw [hstep.hub_eq]
  split_ifs
  · exact ⟨ops, hops⟩
  · cases s.asks a with
    | none => exact ⟨ops, hops⟩
    | some op => exact ⟨ops ++ [op], by rw [Hub.run_append_singleton, ← hops]; rfl⟩

end Sys

end GoSocket
