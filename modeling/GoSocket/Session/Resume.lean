/-
# When a session can be resumed, and what it replays

The replay buffer of a session is at all times a suffix of everything the
session committed, numbered from one (`Logged`): eviction by count and by bytes,
the reset an oversized frame causes, acks and earlier resumes all cut at the old
end, and a commit adds at the new end under the next number.  The tests of
`verdict` (`covers` looks at the oldest entry only) and the selection of
`attachLocked` (`ackUpTo`, then `after`) are exact for this reason.
-/

import GoSocket.Session.Runs
import GoSocket.Lib.NumberedLog

namespace GoSocket

open Lib

namespace Session

/-- Everything committed so far, each payload with the number it was committed under. -/
def log (s : Session) : List ReplayEntry := (s.committed.zipIdx 1).map fun x => ⟨x.2, x.1⟩

/-- The counter counts the log, and the replay buffer is the end of it. -/
structure Logged (s : Session) : Prop where
  next_eq : s.next = s.committed.length + 1
  suffix : s.buf.content <:+ s.log

/-- One log entry for each committed event. -/
@[simp] theorem length_log (s : Session) : s.log.length = s.committed.length := by
  simp [log]

/-- The log is numbered from 1 on without a gap. -/
theorem numbered_log (s : Session) : Numbered ReplayEntry.seq s.log := by
  unfold Numbered
  rw [length_log, log, List.map_map]
  exact List.zipIdx_map_snd 1 s.committed

/-- A commit appends its event to the log. -/
theorem log_commit (s : Session) (seq : ℕ) (data : Bytes) :
    (s.commit seq data).log = s.log ++ [⟨s.committed.length + 1, data⟩] := by
  simp [log, commit, List.zipIdx_append, Nat.add_comm]

namespace Logged

variable {s : Session}

/-- A commit under the next number. -/
theorem commit (h : s.Logged) (data : Bytes) : (s.commit s.next data).Logged where
  next_eq := by simp [Session.commit, h.next_eq]
  suffix := by
    obtain ⟨l, hl⟩ := h.suffix
    rw [log_commit, ← h.next_eq, ← hl, List.append_assoc]
    exact (s.buf.content_push_suffix s.next data).trans (List.suffix_append ..)

/-- Only the buffer, the counter and the committed payloads matter. -/
theorem congr {s' : Session} (h : s.Logged) (hnext : s'.next = s.next) (hbuf : s'.buf = s.buf)
    (hcom : s'.committed = s.committed) : s'.Logged where
  next_eq := by rw [hnext, hcom, h.next_eq]
  suffix := by
    rw [hbuf, log, hcom]
    exact h.suffix

/-- Dropping acked entries keeps the buffer a suffix of the log. -/
theorem ackUpTo (h : s.Logged) (seq : ℕ) :
    ({ s with buf := s.buf.ackUpTo seq } : Session).Logged where
  next_eq := h.next_eq
  suffix := by
    refine List.IsSuffix.trans ?_ h.suffix
    rw [ReplayBuffer.content_ackUpTo]
    exact List.dropWhile_suffix _

/-- Where the buffer starts in the log. -/
theorem content_eq (h : s.Logged) : ∃ k ≤ s.committed.length, s.buf.content = s.log.drop k := by
  refine ⟨s.log.length - s.buf.content.length, ?_, List.suffix_iff_eq_drop.1 h.suffix⟩
  rw [length_log]
  exact Nat.sub_le _ _

/-- **`verdict` tests exactly what a resume needs**: every number above the
client's is still in the buffer. -/
theorem covered_iff (h : s.Logged) (lastSeq : ℕ) :
    (lastSeq < s.next ∧ (lastSeq < s.next - 1 → s.buf.covers lastSeq = true)) ↔
      lastSeq < s.next ∧
        ∀ k, lastSeq < k → k < s.next → ∃ e ∈ s.buf.content, e.seq = k := by
  obtain ⟨k, hk, hc⟩ := h.content_eq
  have hnum := s.numbered_log
  have hcovers : s.buf.covers lastSeq = true ↔ k < s.committed.length ∧ k ≤ lastSeq := by
    rw [ReplayBuffer.covers_iff, hc]
    constructor
    · rintro ⟨e, l, hel, hle⟩
      have hmem : e ∈ s.log.drop k := hel ▸ List.mem_cons_self ..
      have hkey := hnum.exists_mem_drop.1 ⟨e, hmem, rfl⟩
      have hhead : s.log[k]? = some e := by
        rw [← Nat.add_zero k, ← List.getElem?_drop, hel]
        rfl
      have := hnum.key_getElem hhead
      rw [length_log] at hkey
      omega
    · rintro ⟨hlt, hle⟩
      have hlen : k < s.log.length := by simpa using hlt
      refine ⟨_, _, List.drop_eq_getElem_cons hlen, ?_⟩
      rw [hnum.key_getElem (List.getElem?_eq_getElem hlen)]
      omega
  rw [hcovers, hc, h.next_eq]
  simp only [hnum.exists_mem_drop, length_log]
  constructor
  · rintro ⟨hlt, hcov⟩
    refine ⟨hlt, fun j hj hjn => ⟨?_, by omega⟩⟩
    have := hcov (by omega)
    omega
  · rintro ⟨hlt, hall⟩
    refine ⟨hlt, fun hgap => ?_⟩
    have := hall (lastSeq + 1) (by omega) (by omega)
    omega

/-- **The replay is the part of the log the client has not seen.** -/
theorem replay_eq (h : s.Logged) {lastSeq : ℕ}
    (hcov : lastSeq < s.next ∧ (lastSeq < s.next - 1 → s.buf.covers lastSeq = true)) :
    (s.buf.ackUpTo lastSeq).after lastSeq = s.log.drop lastSeq := by
  obtain ⟨k, hk, hc⟩ := h.content_eq
  have hnum := s.numbered_log
  rw [ReplayBuffer.after_eq, ReplayBuffer.content_ackUpTo, hc, hnum.dropWhile_drop,
    hnum.filter_drop]
  rcases le_or_gt k lastSeq with hle | hgt
  · rw [show max (max k lastSeq) lastSeq = lastSeq by omega]
  · -- the buffer starts after the client's position: then nothing is missing
    obtain ⟨hlt, hall⟩ := (h.covered_iff lastSeq).1 hcov
    have hlast : ¬ lastSeq + 1 < s.next := by
      intro hgap
      obtain ⟨e, he, hseq⟩ := hall (lastSeq + 1) (by omega) hgap
      rw [hc] at he
      have := hnum.lt_key_of_mem_drop he
      omega
    have hnext := h.next_eq
    rw [List.drop_eq_nil_of_le (by rw [length_log]; omega),
      List.drop_eq_nil_of_le (by rw [length_log]; omega)]

/-- The pre-queue of a resume, in terms of the log. -/
theorem resumeFrames_eq (h : s.Logged) {lastSeq : ℕ}
    (hcov : lastSeq < s.next ∧ (lastSeq < s.next - 1 → s.buf.covers lastSeq = true)) :
    ((s.buf.ackUpTo lastSeq).after lastSeq).length = s.next - 1 - lastSeq ∧
    s.resumeFrames lastSeq =
      sessionFrame s.id true (s.next - 1 - lastSeq) (s.next - 1) none ::
        (s.log.drop lastSeq).map fun e => stamp e.data e.seq := by
  have hlen : (s.log.drop lastSeq).length = s.next - 1 - lastSeq := by
    rw [List.length_drop, length_log, h.next_eq]
    rfl
  unfold resumeFrames
  rw [h.replay_eq hcov]
  refine ⟨hlen, ?_⟩
  dsimp only
  rw [hlen]

end Logged
end Session

/-- The request asks, in a form the server can read, for the session with this id. -/
def ResumeRequest.Names (req : ResumeRequest) (id : String) : Prop :=
  req.requested = true ∧ req.invalid = false ∧ req.sessionID = id

namespace Mem

/-- Every call keeps the buffer at the end of the log. -/
theorem Touched.logged {m : Mem} {op : Op} {q : SessionRef} {s : Session} (h : Touched m op q s)
    (hq : (m.session q).Logged) : s.Logged := by
  cases h with
  | same => exact hq
  | allocated => exact ⟨rfl, List.suffix_refl _⟩
  | attached => exact (hq.ackUpTo _).congr rfl rfl rfl
  | parked => exact hq.congr rfl rfl rfl
  | expired => exact hq.congr rfl rfl rfl
  | evicted => exact hq.congr rfl rfl rfl
  | refused => exact hq.congr rfl rfl rfl
  | ended => exact hq.congr rfl rfl rfl
  | @delivered data pol _ =>
      rcases (m.session q).deliver_cases (m.liveClient q) data pol with
        ⟨n, live', hd, -⟩ | ⟨st, live', ok, hd, -⟩
      · rw [hd]
        exact hq.congr rfl rfl rfl
      · rw [hd]
        exact (hq.commit data).congr rfl rfl rfl
  | @acked seq _ =>
      unfold Session.ack
      split_ifs
      · exact hq.ackUpTo seq
      · exact hq
  | claimed => exact hq.congr rfl rfl rfl

/-- **In every run the replay buffer is a suffix of the session's log.** -/
theorem logged_of_reachable {opt : SessionOptions} {digest : String → String}
    {sendBuffer : ClientRef → ℤ} {m : Mem}
    (h : Reachable Step (newSessionStore opt digest sendBuffer) m) (q : SessionRef) :
    (m.session q).Logged := by
  refine (h.invariant (P := fun m => m.StoreInv ∧ ∀ q, (m.session q).Logged)
    ⟨storeInv_newSessionStore opt digest sendBuffer, fun _ => ⟨rfl, List.suffix_refl _⟩⟩
    fun m op m' hm hstep => ⟨hm.1.step hstep, fun q => ?_⟩).2 q
  exact (hm.1.step_touched hstep q).logged (hm.2 q)

/-- `Open` on a session that passes every test. -/
theorem open_of_verdict_none {m : Mem} {p : SessionRef} {req : ResumeRequest} {now : ℤ}
    (hp : m.store.sessions req.sessionID = some p) (hreq : req.requested = true)
    (hinv : req.invalid = false)
    (hv : ((m.session p).verdict req now m.store.opt.ttl).1 = none) (c : ClientRef)
    (newID : Option String) :
    m.open c req now newID =
      ((m.attachLocked p c req.lastSeq).1, (m.attachLocked p c req.lastSeq).2, []) := by
  unfold Mem.open
  rw [hinv, if_neg (by simp), if_pos hreq, hp]
  dsimp only
  rcases hv' : (m.session p).verdict req now m.store.opt.ttl with ⟨_ | reason, kill⟩
  · rfl
  · rw [hv'] at hv
    cases hv

/-- `Open` on a session that fails a test. -/
theorem open_of_verdict_some {m : Mem} {p : SessionRef} {req : ResumeRequest} {now : ℤ}
    (hp : m.store.sessions req.sessionID = some p) (hreq : req.requested = true)
    (hinv : req.invalid = false) {reason : Reason}
    (hv : ((m.session p).verdict req now m.store.opt.ttl).1 = some reason) (c : ClientRef)
    (newID : Option String) :
    ∃ m₁ victim, Refused m req now m₁ (some reason) victim ∧
      m.open c req now newID = m₁.openFresh c req.owner newID (some reason) victim := by
  unfold Mem.open
  rw [hinv, if_neg (by simp), if_pos hreq, hp]
  dsimp only
  rcases hv' : (m.session p).verdict req now m.store.opt.ttl with ⟨_ | reason', _ | _⟩
  · rw [hv'] at hv
    cases hv
  · rw [hv'] at hv
    cases hv
  · rw [hv'] at hv
    obtain rfl : reason' = reason := Option.some.inj hv
    exact ⟨_, _, .kept _, rfl⟩
  · rw [hv'] at hv
    obtain rfl : reason' = reason := Option.some.inj hv
    exact ⟨_, _, .killed hinv hreq hp hv', rfl⟩

/-- **A resume is exact.**  In every reachable state, a request of the owner of a
stored session that has not been parked beyond the TTL resumes it iff the number
it names was assigned and everything after it is still in the replay buffer.
Then the pre-queue is the `$session` frame followed by what was committed under
the numbers after it, in order; otherwise the client is bound to a fresh session
and its pre-queue is the one `$session` frame that says so. -/
theorem resume_exact (opt : SessionOptions) (digest : String → String)
    (sendBuffer : ClientRef → ℤ) (m : Mem)
    (h : Reachable Step (newSessionStore opt digest sendBuffer) m) (p : SessionRef)
    (hp : m.store.sessions (m.session p).id = some p) (req : ResumeRequest)
    (hreq : req.Names (m.session p).id) (howner : (m.session p).owner = req.owner) (now : ℤ)
    (httl : ¬ ((m.session p).state = .parked ∧ m.store.opt.ttl < now - (m.session p).parked))
    (c : ClientRef) (newID : Option String) :
    let s := m.session p
    let m' := (m.open c req now newID).1
    let res := (m.open c req now newID).2.1
    s.next = s.committed.length + 1 ∧
    (res.resumed = true ↔ req.lastSeq < s.next ∧
      ∀ k, req.lastSeq < k → k < s.next → ∃ e ∈ s.buf.content, e.seq = k) ∧
    (res.resumed = true → res.session = some p ∧ (m'.client c).session = some p ∧
      res.replayed = s.next - 1 - req.lastSeq ∧
      (m'.client c).replay =
        sessionFrame s.id true (s.next - 1 - req.lastSeq) (s.next - 1) none ::
          (s.log.drop req.lastSeq).map fun e => stamp e.data e.seq) ∧
    (res.resumed = false → ∃ reason,
      (∀ id, newID = some id → res.session = some m.sessionCount ∧
        (m'.client c).session = some m.sessionCount ∧
        m'.session m.sessionCount = newSession m.store.opt id req.owner c ∧
        (m'.client c).replay = [sessionFrame id false 0 0 (some reason)]) ∧
      (newID = none → res.session = none ∧ m'.client = m.client)) := by
  obtain ⟨hrequested, hvalid, hid⟩ := hreq
  have hlogged := logged_of_reachable h p
  have hopen := (((StoreInv.of_reachable h).linked.session p).stored.1 hp).2
  have hfind : m.store.sessions req.sessionID = some p := hid ▸ hp
  have hverdict : ((m.session p).verdict req now m.store.opt.ttl).1 = none ↔
      req.lastSeq < (m.session p).next ∧ ∀ k, req.lastSeq < k → k < (m.session p).next →
        ∃ e ∈ (m.session p).buf.content, e.seq = k := by
    rw [← hlogged.covered_iff, Session.verdict_eq_none]
    exact ⟨fun hv => hv.2.2.2, fun hv => ⟨hopen, howner, httl, hv⟩⟩
  dsimp only
  refine ⟨hlogged.next_eq, ?_⟩
  cases hv : ((m.session p).verdict req now m.store.opt.ttl).1 with
  | none =>
      obtain ⟨hlen, hframes⟩ := hlogged.resumeFrames_eq (Session.verdict_eq_none.1 hv).2.2.2
      have hres : (m.attachLocked p c req.lastSeq).2.resumed = true := rfl
      rw [open_of_verdict_none hfind hrequested hvalid hv]
      refine ⟨by simpa [hres] using hverdict.1 hv, fun _ => ⟨rfl, by simp, hlen, ?_⟩,
        fun hno => absurd (hno.symm.trans hres) (by decide)⟩
      rw [attachLocked_client, if_pos rfl]
      exact hframes
  | some reason =>
      obtain ⟨m₁, victim, hr, heq⟩ := open_of_verdict_some hfind hrequested hvalid hv c newID
      obtain ⟨hclient, hcount, hopt⟩ := hr.client_eq
      have hres : (m₁.openFresh c req.owner newID (some reason) victim).2.1.resumed = false := by
        cases newID <;> rfl
      rw [heq]
      refine ⟨?_, fun hyes => absurd (hyes.symm.trans hres) (by decide),
        fun _ => ⟨reason, fun id hnew => ?_, fun hnew => ?_⟩⟩
      · rw [← hverdict, hres, hv]
        simp
      · subst hnew
        rw [openFresh_some, ← hcount, ← hopt]
        exact ⟨rfl, by simp, by simp, by simp⟩
      · subst hnew
        rw [openFresh_none]
        exact ⟨rfl, hclient⟩

/-- A client that has seen the first of two events comes back while its session is
parked, and is given the second. -/
theorem resume_exact_second_event :
    ∃ m, Reachable Step (newSessionStore ⟨0, 0, 0, 0, 0⟩ id fun _ => 0) m ∧
      (m.open 1 ⟨true, false, "a", 1, ""⟩ 2 (some "b")).2.1.resumed = true ∧
      ((m.open 1 ⟨true, false, "a", 1, ""⟩ 2 (some "b")).1.client 1).replay =
        [sessionFrame "a" true 1 2 none, stamp (ascii "\x7b\"event\":2\x7d") 2] := by
  obtain ⟨m, hm, hp⟩ := Reachable.of_exec Mem.step
    (s := newSessionStore ⟨0, 0, 0, 0, 0⟩ id fun _ => 0)
    [.openSession 0 ⟨false, false, "", 0, ""⟩ 0 (some "a"),
      .deliver 0 (ascii "\x7b\"event\":1\x7d") .disconnect, .leave 0 0 true 1,
      .deliver 0 (ascii "\x7b\"event\":2\x7d") .disconnect]
    (p := fun m => m.store.sessions "a" = some 0 ∧ (m.session 0).id = "a" ∧
      (m.session 0).owner = "" ∧ ¬ m.store.opt.ttl < 2 - (m.session 0).parked ∧
      (m.session 0).next = 3 ∧ (m.session 0).buf.content = (m.session 0).log ∧
      (m.session 0).log = [⟨1, ascii "\x7b\"event\":1\x7d"⟩, ⟨2, ascii "\x7b\"event\":2\x7d"⟩])
    (by decide)
  obtain ⟨hs, hid, howner, httl, hnext, hbuf, hlog⟩ := of_decide_eq_true hp
  obtain ⟨-, hiff, hresumed, -⟩ := resume_exact _ _ _ m hm 0 (hid.symm ▸ hs)
    ⟨true, false, "a", 1, ""⟩ ⟨rfl, rfl, hid.symm⟩ howner 2 (fun hpark => httl hpark.2) 1 (some "b")
  have hres := hiff.2 <| by
    rw [hnext, hbuf, hlog]
    refine ⟨by decide, fun k (hk : 1 < k) hk3 => ?_⟩
    obtain rfl : k = 2 := by omega
    exact ⟨_, List.mem_cons_of_mem _ (List.mem_cons_self ..), rfl⟩
  refine ⟨m, hm, hres, ?_⟩
  rw [(hresumed hres).2.2.2, hnext, hlog, hid]
  rfl

end Mem
end GoSocket
