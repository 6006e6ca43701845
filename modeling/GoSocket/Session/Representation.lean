/-
# The representation of the session store

The store is a map, a list of parked sessions and the fields of the sessions, with
two bounded buffers in each.  In every state that calls lead to they agree
(`RepInv`), a session that parks stays stored, and a closed one never comes back.

Of the limits one is not kept: a buffer may hold more than `ReplayBytes` bytes.  The
counter of the buffer is an `int64`, and when the content takes `2^63` bytes it is
negative.  `store_representation` says for which options that cannot happen,
`bytes_exceeded` is a run in which it does.
-/

import GoSocket.Session.ReplayBytes
import GoSocket.Session.Runs

namespace GoSocket

open Lib

/-- A Go slice has fewer than `2^63` bytes. -/
def IsSlice (data : Bytes) : Prop := data.length < 2 ^ 63

namespace Mem

/-- The representation invariant as the parts of the store see it.  How many bytes a buffer
holds is `BytesKept`. -/
structure RepInv (m : Mem) : Prop where
  /-- A session is in the id map, under its own id, iff it is not closed. -/
  stored_iff : ∀ p < m.sessionCount, ∀ id,
    m.store.sessions id = some p ↔ (m.session p).id = id ∧ (m.session p).state ≠ .closed
  /-- Only allocated sessions are in the map and in the list. -/
  allocated : ∀ p, ((∃ id, m.store.sessions id = some p) ∨ p ∈ m.store.parked.map Prod.snd) →
    p < m.sessionCount
  /-- A session is in the parked list iff it is parked … -/
  listed_iff : ∀ p < m.sessionCount,
    p ∈ m.store.parked.map Prod.snd ↔ (m.session p).state = .parked
  /-- … exactly once, at the element it points to … -/
  listed_once : ∀ p < m.sessionCount, (m.session p).state = .parked →
    ∃ e, (m.session p).elem = some e ∧ m.store.parked.filter (fun x => x.2 = p) = [(e, p)]
  /-- … and, as long as it is stored, iff it has no live client. -/
  parked_iff : ∀ p < m.sessionCount, (m.session p).state ≠ .closed →
    ((m.session p).state = .parked ↔ (m.session p).live = none)
  /-- The live client of an attached session is its hub member. -/
  attached : ∀ p < m.sessionCount, (m.session p).state = .attached →
    ∃ c, (m.session p).live = some c ∧ (m.session p).member = some c
  bounded : m.store.parked.length ≤ m.store.opt.maxParked
  limits : ∀ p < m.sessionCount,
    (m.session p).buf.content.length ≤ m.store.opt.replayMessages ∧
      (m.session p).keys.content.length ≤ m.store.opt.keyWindow

/-- The entries of one session in a list without repetition. -/
theorem Linked.filter_listed {m : Mem} (h : m.Linked) {p : SessionRef} {e : ElemRef}
    (he : (m.session p).elem = some e) : m.store.parked.filter (fun x => x.2 = p) = [(e, p)] := by
  have hmem := (h.session p).listed.2 he
  have heq : m.store.parked.filter (fun x => x.2 = p) =
      m.store.parked.filter (fun x => x = (e, p)) := by
    refine List.filter_congr fun x hx => ?_
    obtain ⟨e', p'⟩ := x
    rw [decide_eq_decide, Prod.mk.injEq]
    refine ⟨fun hp' => ⟨?_, hp'⟩, And.right⟩
    obtain rfl : p' = p := hp'
    exact Option.some.inj (((h.session p').listed.1 hx).symm.trans he)
  have hnodup : m.store.parked.Nodup := List.Nodup.of_map _ h.nodup
  rw [heq, List.filter_eq, List.count_eq_one_of_mem hnodup hmem, List.replicate_one]

/-- The invariant of the store says all of it. -/
theorem StoreInv.repInv {m : Mem} (h : m.StoreInv) : m.RepInv := by
  have hmem : ∀ p, p ∈ m.store.parked.map Prod.snd ↔ (m.session p).state = .parked := by
    intro p
    constructor
    · intro hp
      obtain ⟨⟨e, p'⟩, hx, rfl⟩ := List.mem_map.1 hp
      exact ((h.linked.session p').elem ((h.linked.session p').listed.1 hx)).1
    · intro hp
      obtain ⟨e, he⟩ := ((h.linked.session p).parked hp).2
      exact List.mem_map.2 ⟨_, (h.linked.session p).listed.2 he, rfl⟩
  refine ⟨fun p _ id => (h.linked.session p).stored, fun p hp => ?_, fun p _ => hmem p,
    fun p _ hp => ?_, fun p _ hp => ?_, fun p _ => (h.linked.session p).attached, h.bounded,
    fun p _ => ?_⟩
  · refine (h.linked.session p).allocated ?_
    rcases hp with ⟨id, hid⟩ | hp
    · exact ((h.linked.session p).stored.1 hid).2
    · rw [(hmem p).1 hp]
      decide
  · obtain ⟨e, he⟩ := ((h.linked.session p).parked hp).2
    exact ⟨e, he, h.linked.filter_listed he⟩
  · refine ⟨fun hpark => ((h.linked.session p).parked hpark).1, fun hlive => ?_⟩
    cases hs : (m.session p).state with
    | parked => rfl
    | closed => exact absurd hs hp
    | attached =>
        obtain ⟨c, hc, -⟩ := (h.linked.session p).attached hs
        rw [hlive] at hc
        cases hc
  · obtain ⟨hm, -, hk⟩ := (h.linked.session p).limits
    exact ⟨hm ▸ (m.session p).buf.wf.length_le, hk ▸ (m.session p).keys.wf.length_le⟩

/-- A `Leave` that parks leaves the session itself stored. -/
theorem StoreInv.leave_parked {m : Mem} (h : m.StoreInv) (p : SessionRef) (c : ClientRef)
    (resumable : Bool) (now : ℤ) (hres : (m.leave p c resumable now).2.1 = .parked) :
    let m' := (m.leave p c resumable now).1
    m'.store.sessions (m'.session p).id = some p ∧ (m'.session p).state = .parked := by
  have hinv := h.left p c resumable now
  obtain ⟨m', res, due, hleave, hl⟩ := h.linked.exists_left p c resumable now
  rw [hleave] at hres hinv ⊢
  cases hl with
  | gone => cases hres
  | displaced => cases hres
  | ended => cases hres
  | @parked r hatt _ _ hpop =>
      have hstate : (r.1.session p).state = .parked := by
        rw [hpop.session_eq, if_neg (h.not_evicted hatt hpop), park_session, if_pos rfl]
      exact ⟨hinv.linked.find (by rw [hstate]; decide), hstate⟩

/-- No buffer holds more than `ReplayBytes` bytes. -/
def BytesKept (m : Mem) : Prop :=
  ∀ p < m.sessionCount,
    (RawReplayBuffer.size (m.session p).buf.content : ℤ) ≤ m.store.opt.replayBytes.toInt

/-- A call keeps the buffer of a session within its limits, if the counter cannot overflow. -/
theorem Touched.within {m : Mem} {op : Op} {q : SessionRef} {s : Session} (h : Touched m op q s)
    (hop : op.Sends IsSlice) (hc : (m.session q).buf.raw.Countable)
    (hw : (m.session q).buf.raw.Within (m.session q).buf.content) :
    s.buf.raw.Within s.buf.content := by
  cases h with
  | same => exact hw
  | allocated =>
      exact ReplayBuffer.within_new m.store.opt.replayMessages_pos m.store.opt.replayBytes_pos
  | attached => exact ReplayBuffer.within_ackUpTo hw _
  | parked => exact hw
  | expired => exact hw
  | evicted => exact hw
  | refused => exact hw
  | ended => exact hw
  | @delivered data pol hdeliver =>
      have hdata : data.length < 2 ^ 63 := by
        rcases hdeliver with rfl | ⟨c, rfl, -⟩
        · exact hop
        · exact hop
      rcases (m.session q).deliver_cases (m.liveClient q) data pol with
        ⟨_, _, hd, -⟩ | ⟨_, _, _, hd, -⟩
      · rw [hd]
        exact hw
      · rw [hd]
        exact ReplayBuffer.within_push hc hw _ hdata
  | @acked seq _ =>
      unfold Session.ack
      split_ifs
      · exact ReplayBuffer.within_ackUpTo hw seq
      · exact hw
  | claimed => exact hw

/-- **No buffer outgrows `ReplayBytes`** where the counter cannot overflow. -/
theorem bytesKept_of_reachable {opt : SessionOptions} {digest : String → String}
    {sendBuffer : ClientRef → ℤ}
    (hlimits : (opt.normalized digest).replayMessages = 1 ∨
      (opt.normalized digest).replayBytes.toInt < 2 ^ 62) {m : Mem}
    (h : Reachable (Guarded (fun _ op => op.Sends IsSlice) Step)
      (newSessionStore opt digest sendBuffer) m) : m.BytesKept := by
  -- the options stay, so every buffer is one that can be counted
  obtain ⟨hinv, hopt, hwithin⟩ := h.invariant
    (P := fun m => m.StoreInv ∧ m.store.opt = opt.normalized digest ∧
      ∀ q, (m.session q).buf.raw.Within (m.session q).buf.content)
    ⟨storeInv_newSessionStore opt digest sendBuffer, rfl,
      fun _ => ReplayBuffer.within_new (opt.normalized digest).replayMessages_pos
        (opt.normalized digest).replayBytes_pos⟩
    (by
      intro m op m' ⟨hinv, hopt, hwithin⟩ ⟨hop, hstep⟩
      refine ⟨hinv.step hstep, (hstep.opt hinv).trans hopt, fun q => ?_⟩
      obtain ⟨hm, hx, -⟩ := (hinv.linked.session q).limits
      refine (hinv.step_touched hstep q).within hop ?_ (hwithin q)
      rw [RawReplayBuffer.Countable, hm, hx, hopt]
      exact hlimits)
  intro p _
  obtain ⟨-, hx, -⟩ := (hinv.linked.session p).limits
  rw [← hx]
  exact (hwithin p).2

/-- A `Leave` that finds room on the parked list parks and evicts nobody. -/
theorem leave_eq_park {m : Mem} {p : SessionRef} {c : ClientRef}
    (hopen : (m.session p).state ≠ .closed) (hlive : (m.session p).live = some c)
    (hroom : m.store.parked.length < m.store.opt.maxParked) (now : ℤ) :
    (m.leave p c true now).1 = m.park p c now := by
  have hkept : ∀ fuel, (m.park p c now).evictLoop fuel = (m.park p c now, []) := by
    intro fuel
    cases fuel with
    | zero => rfl
    | succ fuel =>
        rw [evictLoop, if_neg]
        rw [park_opt, park_parked, List.length_append, List.length_singleton]
        omega
  rw [leave, if_neg hopen, if_neg (not_not.2 hlive), if_neg (by decide)]
  exact congrArg Prod.fst (hkept _)

/-- A frame delivered `k` times to a session without a client is pushed `k` times. -/
theorem exists_delivered {m : Mem} {p : SessionRef} (hp : p < m.sessionCount)
    (hopen : (m.session p).state ≠ .closed) (hlive : (m.session p).live = none) {data : Bytes}
    (hdata : data.length < 2 ^ 63) {k : ℕ} {b : RawReplayBuffer} {next : ℕ}
    (hexec : exec RawReplayBuffer.step ((m.session p).buf.raw, (m.session p).next)
      (List.replicate k (.push data hdata)) = some (b, next)) :
    ∃ m', Steps (Guarded (fun _ op => op.Sends IsSlice) Step) m
        (List.replicate k (.deliver p data .disconnect)) m' ∧
      m'.sessionCount = m.sessionCount ∧ m'.store.opt = m.store.opt ∧
      (m'.session p).state = (m.session p).state ∧ (m'.session p).buf.raw = b := by
  induction k generalizing m with
  | zero =>
      have hb := (Prod.mk.inj (Option.some.inj hexec)).1
      exact ⟨m, .nil m, rfl, rfl, rfl, hb⟩
  | succ k ih =>
      obtain ⟨_, hpush, hexec⟩ := Option.bind_eq_some_iff.1 hexec
      obtain ⟨b₁, hb₁, rfl⟩ := Option.map_eq_some_iff.1 hpush
      have hstep : m.Step (.deliver p data .disconnect)
          (m.setSession p ((m.session p).commit (m.session p).next data)) := by
        rw [Step, step, if_pos hp, Mem.deliver]
        simp only [hlive]
        rw [Session.deliver_offline data hopen (by decide) (Session.online_eq_none.2 (Or.inr rfl))]
      have hsession : (m.setSession p ((m.session p).commit (m.session p).next data)).session p =
          (m.session p).commit (m.session p).next data := Function.update_self ..
      have hraw : ((m.session p).buf.push (m.session p).next data).raw = b₁ :=
        Option.get_of_eq_some _ hb₁
      obtain ⟨m', hrun, hcount, hopt, hstate, hb⟩ :=
        ih (m := m.setSession p ((m.session p).commit (m.session p).next data)) hp
          (by rw [hsession]; exact hopen) (by rw [hsession]; exact hlive)
          (by rw [hsession, Session.commit, hraw]; exact hexec)
      rw [hsession] at hstate
      exact ⟨m', .cons ⟨hdata, hstep⟩ hrun, hcount, hopt, hstate, hb⟩

/-- The calls of a client that opens a session and leaves, and of somebody who then delivers
one frame `k` times. -/
def parkedDeliveries (data : Bytes) (k : ℕ) : List Op :=
  .openSession 0 ⟨false, false, "", 0, ""⟩ 0 (some "a") :: .leave 0 0 true 0 ::
    List.replicate k (.deliver 0 data .disconnect)

/-- They lead to a parked session whose buffer is what `k` pushes make of an empty one. -/
theorem exists_parkedDeliveries (opt : SessionOptions) (digest : String → String)
    (sendBuffer : ClientRef → ℤ) {data : Bytes} (hdata : data.length < 2 ^ 63) {k : ℕ}
    {b : RawReplayBuffer} {next : ℕ}
    (hexec : exec RawReplayBuffer.step
      (.new (opt.normalized digest).replayMessages (opt.normalized digest).replayBytes, 1)
      (List.replicate k (.push data hdata)) = some (b, next)) :
    ∃ m, Steps (Guarded (fun _ op => op.Sends IsSlice) Step)
        (newSessionStore opt digest sendBuffer) (parkedDeliveries data k) m ∧
      m.sessionCount = 1 ∧ m.store.opt = opt.normalized digest ∧
      (m.session 0).state = .parked ∧ (m.session 0).buf.raw = b := by
  let m₁ := (newSessionStore opt digest sendBuffer).fresh 0 "" "a" none
  have hopened : m₁.session 0 = newSession (opt.normalized digest) "a" "" 0 :=
    (fresh_session ..).trans (if_pos rfl)
  have hleft : (m₁.leave 0 0 true 0).1 = m₁.park 0 0 0 := by
    refine leave_eq_park ?_ ?_ ?_ 0
    · rw [hopened]
      exact SessionState.noConfusion
    · rw [hopened]
      rfl
    · exact (opt.normalized digest).maxParked_pos
  have hparked : (m₁.park 0 0 0).session 0 =
      { newSession (opt.normalized digest) "a" "" 0 with
        live := none, stalled := false, state := .parked, parked := 0,
        elem := some m₁.elemCount } := by
    rw [park_session, if_pos rfl, hopened]
  obtain ⟨m, hrun, hm, hopt, hstate, hb⟩ := exists_delivered (m := m₁.park 0 0 0) (p := 0)
    Nat.zero_lt_one (by rw [hparked]; exact SessionState.noConfusion) (by rw [hparked]) hdata
    (by rw [hparked]; exact hexec)
  have hstep₁ : (newSessionStore opt digest sendBuffer).Step
      (.openSession 0 ⟨false, false, "", 0, ""⟩ 0 (some "a")) m₁ := by
    rw [Step, step, if_pos]
    · rfl
    · exact fun _ _ => rfl
  have hstep₂ : m₁.Step (.leave 0 0 true 0) (m₁.park 0 0 0) := by
    rw [Step, step, if_pos, hleft]
    exact Nat.zero_lt_one
  exact ⟨m, .cons ⟨trivial, hstep₁⟩ (.cons ⟨trivial, hstep₂⟩ hrun), hm, hopt,
    hstate.trans (congrArg Session.state hparked), hb⟩

/-- **The representation of the store.**  In every state that any sequence of
calls leads to, the map, the parked list and the fields of the sessions agree; a
`Leave` that answers `LeaveParked` leaves that session stored and parked; and a
closed session is never in the map again.  The buffers keep to `ReplayBytes`, whatever
is sent, exactly when there is room for one frame only or the limit is below `2^62`. -/
theorem store_representation (opt : SessionOptions) (digest : String → String)
    (sendBuffer : ClientRef → ℤ) :
    (∀ m, Reachable Step (newSessionStore opt digest sendBuffer) m →
      m.RepInv ∧
      (∀ p < m.sessionCount, ∀ c resumable now m' due,
        m.leave p c resumable now = (m', .parked, due) →
          m'.store.sessions (m'.session p).id = some p ∧ (m'.session p).state = .parked) ∧
      (∀ p < m.sessionCount, (m.session p).state = .closed →
        ∀ m', Reachable Step m m' → ∀ id, m'.store.sessions id ≠ some p)) ∧
    ((∀ m, Reachable (Guarded (fun _ op => op.Sends IsSlice) Step)
        (newSessionStore opt digest sendBuffer) m → m.BytesKept) ↔
      (opt.normalized digest).replayMessages = 1 ∨
        (opt.normalized digest).replayBytes.toInt < 2 ^ 62) := by
  refine ⟨fun m h => ?_, fun hkept => ?_, fun hlimits m => bytesKept_of_reachable hlimits⟩
  · have hm := StoreInv.of_reachable h
    refine ⟨hm.repInv, fun p _ c resumable now m' due hleave => ?_,
      fun p hp hclosed m' hr id => ?_⟩
    · have := hm.leave_parked p c resumable now (by rw [hleave])
      rwa [hleave] at this
    · obtain ⟨ops, hrun⟩ := hr
      have hm' : m'.StoreInv := hrun.invariant (fun _ _ _ hm hstep => hm.step hstep) hm
      exact fun hid => ((hm'.linked.session p).stored.1 hid).2 (hm.closed_forever hrun hp hclosed)
  · -- otherwise two frames of `2^62` bytes are both kept
    by_contra hlimits
    obtain ⟨hone, hlarge⟩ := not_or.1 hlimits
    have hpos := (opt.normalized digest).replayMessages_pos
    obtain ⟨data, hdata, b, next, hexec, hsize, -⟩ :=
      RawReplayBuffer.exec_overflow_two
        (by omega : 2 ≤ (opt.normalized digest).replayMessages) (not_lt.1 hlarge) 1
    obtain ⟨m, hrun, hcount, hopt, -, rfl⟩ :=
      exists_parkedDeliveries opt digest sendBuffer hdata hexec
    have hbytes := hkept m ⟨_, hrun⟩ 0 (by omega)
    have hmax := (opt.normalized digest).replayBytes.toInt_lt
    rw [hopt, ReplayBuffer.content, hsize] at hbytes
    omega

/-- A limit of `2^63 - 1` bytes and `2^27` frames: a frame of 64 GiB that is delivered `2^27`
times to a parked session makes its buffer hold one byte more than the limit. -/
theorem bytes_exceeded :
    ∃ m, Steps (Guarded (fun _ op => op.Sends IsSlice) Step)
        (newSessionStore ⟨2 ^ 27, Int64.maxValue, 0, 0, 0⟩ id fun _ => 0)
        (parkedDeliveries (List.replicate (2 ^ 36) 0) (2 ^ 27)) m ∧
      (m.session 0).state = .parked ∧
      m.store.opt.replayBytes.toInt = 2 ^ 63 - 1 ∧
      RawReplayBuffer.size (m.session 0).buf.content = 2 ^ 63 ∧ ¬m.BytesKept := by
  have hlen : (List.replicate (2 ^ 36) (0 : UInt8)).length = 2 ^ 36 := List.length_replicate
  let opt : SessionOptions := ⟨2 ^ 27, Int64.maxValue, 0, 0, 0⟩
  have hmsgs : (opt.normalized id).replayMessages = 2 ^ 27 := by decide
  have hmax : (opt.normalized id).replayBytes.toInt = 2 ^ 63 - 1 := by decide
  obtain ⟨b, next, hexec, -, hsize, -⟩ := RawReplayBuffer.exec_overflow
    (opt.normalized id).replayMessages (opt.normalized id).replayBytes (2 ^ 27)
    (List.replicate (2 ^ 36) 0) (by omega) (by decide) hmsgs.ge (by omega) (by omega) 1
  obtain ⟨m, hrun, hcount, hopt, hstate, rfl⟩ :=
    exists_parkedDeliveries opt id (fun _ => 0) _ hexec
  have hlimit : m.store.opt.replayBytes.toInt = 2 ^ 63 - 1 := by rw [hopt, hmax]
  refine ⟨m, hrun, hstate, hlimit, hsize, fun hkept => ?_⟩
  have hbytes := hkept 0 (by omega)
  rw [hlimit, ReplayBuffer.content, hsize] at hbytes
  omega

end Mem
end GoSocket
