/-
# Recovery end to end

The store together with the peers at the other end of the connections.  A
transport carries the pre-queue and then the send queue (`WritePump`); the peer
of a session reads some of what was written, in order, on each of the session's
connections, and follows the client algorithm of `docs/RECOVERY.md`: a frame
whose `seq` is not above its `lastSeq` is ignored, any other sequenced frame is
handled and its `seq` remembered (`Receiver.receive`).  What is lost with a
transport is what the peer never reads.

`serveTransport` calls `Open` once for a connection and starts its `WritePump`
after that; a resume carries a `lastSeq` the peer has reached.  The peer may ack
anything, and may go on reading an old connection after a new one was opened.

The invariant (`Net.Inv`) follows each connection: the sequenced frames it
carries are a piece of the session's log that starts after the `lastSeq` it was
opened with (`Conn.slice`), all the rest of the log while the connection is live
and the session not stalled (`Inv.live`), and the peer has handled at least what
it has read there (`Conn.pos`).
-/

import GoSocket.Session.Resume

namespace GoSocket

open Lib

/-- The frames of a list that carry a sequence number. -/
def sequenced (l : List Bytes) : List Bytes := l.filter fun f => (frameSeq f).isSome

/-- The number of a frame for the receiver; an unnumbered frame never counts as new. -/
def seqKey (frame : Bytes) : ℕ := (frameSeq frame).getD 0

/-- What was committed to a session, as it goes on the wire. -/
def Session.frames (s : Session) : List Bytes := s.log.map fun e => stamp e.data e.seq

/-- The store, the peers of the sessions, how many frames of each connection its
peer has read, and for each connection whether `Open` was called and the
`lastSeq` it continues from. -/
structure Net where
  mem : Mem
  peer : SessionRef → Receiver Bytes
  read : ClientRef → ℕ
  opened : ClientRef → Bool
  start : ClientRef → ℕ

/-- A call into the session layer, or the peer reading one frame of a connection. -/
inductive NetOp where
  | call (op : Op)
  | receive (c : ClientRef)
  deriving DecidableEq

namespace Net

/-- A server that has just started. -/
def init (opt : SessionOptions) (digest : String → String) (sendBuffer : ClientRef → ℤ) : Net where
  mem := newSessionStore opt digest sendBuffer
  peer := fun _ => .empty
  read := fun _ => 0
  opened := fun _ => false
  start := fun _ => 0

/-- How the server and the peers make the calls. -/
def Allowed (n : Net) : Op → Prop
  | .openSession c req _ _ => n.opened c = false ∧
      (req.requested = true → req.invalid = false →
        ∀ p ∈ n.mem.store.sessions req.sessionID, req.lastSeq ≤ (n.peer p).last)
  | .deliver _ data _ => IsEvent data
  | .trySend _ data _ => IsEvent data
  | .write c => n.opened c = true
  | _ => True

instance (n : Net) (op : Op) : Decidable (n.Allowed op) := by
  unfold Allowed
  split <;> infer_instance

/-- The bookkeeping of a call. -/
def record (n : Net) (op : Op) (m : Mem) : Net :=
  match op with
  | .openSession c req now newID =>
      { n with
        mem := m
        opened := Function.update n.opened c true
        start := Function.update n.start c
          (if (n.mem.open c req now newID).2.1.resumed then req.lastSeq else 0) }
  | _ => { n with mem := m }

/-- One step of the whole. -/
def step (n : Net) : NetOp → Option Net
  | .call op => if n.Allowed op then (n.mem.step op).map (n.record op) else none
  | .receive c =>
      match (n.mem.client c).session, (n.mem.client c).written[n.read c]? with
      | some p, some frame =>
          some { n with
            peer := Function.update n.peer p ((n.peer p).receive seqKey frame)
            read := Function.update n.read c (n.read c + 1) }
      | _, _ => none

/-- The step relation. -/
def Step (n : Net) (a : NetOp) (n' : Net) : Prop := n.step a = some n'

/-- What is known of a connection `c` of the session `p`. -/
structure Conn (n : Net) (c : ClientRef) (p : SessionRef) : Prop where
  allocated : p < n.mem.sessionCount
  read_le : n.read c ≤ (n.mem.client c).written.length
  slice : sequenced (n.mem.client c).carried <+: (n.mem.session p).frames.drop (n.start c)
  pos : n.start c + (sequenced ((n.mem.client c).written.take (n.read c))).length ≤ (n.peer p).last

/-- The invariant of recovery. -/
structure Inv (n : Net) : Prop where
  store : n.mem.StoreInv
  logged : ∀ p, (n.mem.session p).Logged
  fresh : ∀ p, n.mem.sessionCount ≤ p → (n.mem.session p).committed = []
  events : ∀ p, ∀ data ∈ (n.mem.session p).committed, IsEvent data
  peer : ∀ p, (n.peer p).UpTo (n.mem.session p).frames
  unopened : ∀ c, n.opened c = false →
    (n.mem.client c).session = none ∧ (n.mem.client c).written = [] ∧ n.read c = 0
  unbound : ∀ c, (n.mem.client c).session = none → sequenced (n.mem.client c).carried = []
  bound : ∀ c p, (n.mem.client c).session = some p → n.Conn c p
  live : ∀ p c, (n.mem.session p).state ≠ .closed → (n.mem.session p).live = some c →
    (n.mem.client c).session = some p ∧
      ((n.mem.session p).stalled = false →
        sequenced (n.mem.client c).carried = (n.mem.session p).frames.drop (n.start c))

end Net

/-- The sequenced frames of two runs, one after the other. -/
@[simp] theorem sequenced_append (l l' : List Bytes) :
    sequenced (l ++ l') = sequenced l ++ sequenced l' := List.filter_append ..

@[simp] theorem sequenced_nil : sequenced [] = [] := rfl

/-- A frame without a number is not among the sequenced ones. -/
theorem sequenced_cons_none {f : Bytes} (h : frameSeq f = none) (l : List Bytes) :
    sequenced (f :: l) = sequenced l := List.filter_cons_of_neg (by simp [h])

/-- Frames that all carry a number are all sequenced. -/
theorem sequenced_eq_self {l : List Bytes} (h : ∀ f ∈ l, (frameSeq f).isSome = true) :
    sequenced l = l := List.filter_eq_self.2 h

/-- The numbers of the sequenced frames. -/
theorem filterMap_frameSeq (l : List Bytes) :
    l.filterMap frameSeq = (sequenced l).map seqKey := by
  induction l with
  | nil => rfl
  | cons f l ih =>
      cases hf : frameSeq f with
      | none => rw [List.filterMap_cons_none hf, sequenced_cons_none hf, ih]
      | some k =>
          rw [List.filterMap_cons_some hf, sequenced, List.filter_cons_of_pos (by simp [hf]),
            List.map_cons, seqKey, hf, ih]
          rfl

namespace Session

variable {s : Session}

/-- One stamped frame for each committed event. -/
@[simp] theorem length_frames (s : Session) : s.frames.length = s.committed.length := by
  simp [frames]

/-- The frames of a session in which only events were committed carry the numbers
1, 2, 3, …. -/
theorem frameSeq_frames (hev : ∀ data ∈ s.committed, IsEvent data) :
    s.frames.map frameSeq = s.log.map fun e => some e.seq := by
  rw [frames, List.map_map]
  refine List.map_congr_left fun e he => ?_
  obtain ⟨x, hx, rfl⟩ := List.mem_map.1 he
  exact frameSeq_stamp (hev _ (List.fst_mem_of_mem_zipIdx hx)) _

/-- A session's frames are numbered from 1 on without a gap. -/
theorem numbered_frames (hev : ∀ data ∈ s.committed, IsEvent data) :
    Numbered seqKey s.frames := by
  have hkeys : s.frames.map seqKey = (s.frames.map frameSeq).map fun o => o.getD 0 := by
    rw [List.map_map]
    rfl
  have hlog := s.numbered_log
  unfold Numbered at hlog ⊢
  rw [hkeys, frameSeq_frames hev, List.map_map, length_frames, ← length_log, ← hlog]
  rfl

/-- Every stamped frame carries its number. -/
theorem sequenced_frames (hev : ∀ data ∈ s.committed, IsEvent data) :
    sequenced s.frames = s.frames := by
  refine sequenced_eq_self fun f hf => ?_
  have hmem : frameSeq f ∈ s.frames.map frameSeq := List.mem_map_of_mem hf
  rw [frameSeq_frames hev] at hmem
  obtain ⟨e, -, he⟩ := List.mem_map.1 hmem
  rw [← he]
  rfl

/-- A commit appends the event stamped with the next number. -/
theorem frames_commit (hs : s.Logged) (data : Bytes) :
    (s.commit s.next data).frames = s.frames ++ [stamp data s.next] := by
  rw [frames, log_commit, List.map_append, ← hs.next_eq]
  rfl

end Session

namespace Net

variable {n : Net}

/-- A connection is given no sequenced frame. -/
structure Quiet (cl cl' : Client) : Prop where
  session : cl'.session = cl.session
  carried : sequenced cl'.carried = sequenced cl.carried
  written : cl.written <+: cl'.written

/-- A session commits nothing, and does not come back to life. -/
structure QuietSession (s s' : Session) : Prop where
  committed : s'.committed = s.committed
  live : ∀ c, s'.state ≠ .closed → s'.live = some c →
    s.state ≠ .closed ∧ s.live = some c ∧ (s'.stalled = false → s.stalled = false)

theorem Quiet.refl (cl : Client) : Quiet cl cl := ⟨rfl, rfl, List.prefix_refl _⟩

theorem QuietSession.refl (s : Session) : QuietSession s s := ⟨rfl, fun _ hs hl => ⟨hs, hl, id⟩⟩

/-- Closing a session is quiet. -/
theorem QuietSession.of_closed {s s' : Session} (hc : s'.committed = s.committed)
    (hs : s'.state = .closed) : QuietSession s s' := ⟨hc, fun _ hopen => absurd hs hopen⟩

/-- A session left quiet keeps its frames. -/
theorem QuietSession.frames {s s' : Session} (h : QuietSession s s') : s'.frames = s.frames := by
  rw [Session.frames, Session.log, h.committed]
  rfl

/-- What is known of a connection stays true while the log and the peer move on. -/
theorem Conn.mono {n' : Net} {c : ClientRef} {p : SessionRef} (h : n.Conn c p)
    (hcount : n.mem.sessionCount ≤ n'.mem.sessionCount)
    (hq : Quiet (n.mem.client c) (n'.mem.client c)) (hread : n'.read c = n.read c)
    (hstart : n'.start c = n.start c)
    (hframes : (n.mem.session p).frames <+: (n'.mem.session p).frames)
    (hpeer : (n.peer p).last ≤ (n'.peer p).last) : n'.Conn c p where
  allocated := h.allocated.trans_le hcount
  read_le := by
    rw [hread]
    exact h.read_le.trans hq.written.length_le
  slice := by
    rw [hq.carried, hstart]
    exact h.slice.trans (hframes.drop _)
  pos := by
    obtain ⟨rest, hrest⟩ := hq.written
    rw [hread, hstart, ← hrest, List.take_append_of_le_length h.read_le]
    exact h.pos.trans hpeer

/-- A call that hands no sequenced frame to a connection and commits nothing. -/
theorem Inv.quiet (h : n.Inv) {m' : Mem} (hstore : m'.StoreInv)
    (hlogged : ∀ p, (m'.session p).Logged) (hcount : n.mem.sessionCount ≤ m'.sessionCount)
    (hsession : ∀ p, QuietSession (n.mem.session p) (m'.session p))
    (hclient : ∀ c, Quiet (n.mem.client c) (m'.client c))
    (hunopened : ∀ c, n.opened c = false → (m'.client c).written = (n.mem.client c).written) :
    ({ n with mem := m' } : Net).Inv where
  store := hstore
  logged := hlogged
  fresh p hp := by
    rw [(hsession p).committed]
    exact h.fresh p (hcount.trans hp)
  events p := by
    rw [(hsession p).committed]
    exact h.events p
  peer p := by
    rw [(hsession p).frames]
    exact h.peer p
  unopened c hc := by
    obtain ⟨hs, hw, hr⟩ := h.unopened c hc
    exact ⟨(hclient c).session.trans hs, (hunopened c hc).trans hw, hr⟩
  unbound c hc := by
    rw [(hclient c).carried]
    exact h.unbound c ((hclient c).session.symm.trans hc)
  bound c p hc :=
    (h.bound c p ((hclient c).session.symm.trans hc)).mono hcount (hclient c) rfl rfl
      ((hsession p).frames ▸ List.prefix_refl _) le_rfl
  live p c hopen hlive := by
    obtain ⟨hopen', hlive', hstalled⟩ := (hsession p).live c hopen hlive
    obtain ⟨hs, hcar⟩ := h.live p c hopen' hlive'
    refine ⟨(hclient c).session.trans hs, fun hst => ?_⟩
    rw [(hclient c).carried, (hsession p).frames]
    exact hcar (hstalled hst)

/-- A step that commits nothing and hands no frame to a client keeps the invariant. -/
theorem Inv.quiet_step (h : n.Inv) {op : Op} {m' : Mem} (hstep : n.mem.Step op m')
    (hsession : ∀ p, QuietSession (n.mem.session p) (m'.session p))
    (hclient : ∀ c, Quiet (n.mem.client c) (m'.client c))
    (hunopened : ∀ c, n.opened c = false → (m'.client c).written = (n.mem.client c).written) :
    ({ n with mem := m' } : Net).Inv :=
  h.quiet (h.store.step hstep) (fun p => (h.store.step_touched hstep p).logged (h.logged p))
    (hstep.sessionCount_le h.store) hsession hclient hunopened

/-- The connection of a live client continues from a place inside the log. -/
theorem Inv.start_le (h : n.Inv) {c : ClientRef} {p : SessionRef}
    (hc : (n.mem.client c).session = some p) :
    n.start c ≤ (n.mem.session p).frames.length :=
  ((Nat.le_add_right _ _).trans (h.bound c p hc).pos).trans (h.peer p).last_le

/-- A raw frame on the send queue is no sequenced frame. -/
theorem Quiet.send {cl : Client} {f : Bytes} (hf : frameSeq f = none) (d : ℕ) :
    Quiet cl { cl with send := cl.send ++ [f], dropped := d } where
  session := rfl
  carried := by
    rw [Client.carried, ← List.append_assoc, sequenced_append, sequenced_cons_none hf]
    exact List.append_nil _
  written := List.prefix_refl _

/-- Parking, closing and counting drops leave the queues alone. -/
theorem Quiet.flags (cl : Client) (closed parked noResume : Bool) (d : ℕ) :
    Quiet cl { cl with closed := closed, parked := parked, noResume := noResume, dropped := d } :=
  ⟨rfl, rfl, List.prefix_refl _⟩

/-- A write moves one frame from what is queued to what is written. -/
theorem Quiet.write {cl cl' : Client} (h : cl.writeNext = some cl') : Quiet cl cl' where
  session := (Client.writeNext_frame h).1
  carried := by rw [Client.writeNext_carried h]
  written := (Client.writeNext_frame h).2.2.2.2

/-- What a delivery that does not commit does to the live client. -/
theorem Quiet.skipped {s : Session} {cl : Client} {data : Bytes} {pol : SendPolicy}
    {live' : Option Client} (hdata : IsEvent data) (h : s.Skipped (some cl) data pol live') :
    Quiet cl (live'.getD cl) ∧ (live'.getD cl).written = cl.written := by
  cases h with
  | nothing => exact ⟨.refl _, rfl⟩
  | raw _ hlive =>
      obtain rfl := Option.some.inj hlive
      exact ⟨.send hdata.unnumbered _, rfl⟩
  | lost _ hlive =>
      obtain rfl := Option.some.inj hlive
      exact ⟨.flags .., rfl⟩

/-- A delivery that skips the frame. -/
theorem Inv.deliver_skipped (h : n.Inv) {p : SessionRef} (hp : p < n.mem.sessionCount)
    {data : Bytes} (hdata : IsEvent data) {pol : SendPolicy} {k : ℕ} {live' : Option Client}
    (hd : (n.mem.session p).deliver (n.mem.liveClient p) data pol =
      ({ n.mem.session p with dropped := k }, live', true))
    (hsk : (n.mem.session p).Skipped (n.mem.liveClient p) data pol live') :
    ({ n with mem := (n.mem.deliver p data pol).1 } : Net).Inv := by
  have hclient : ∀ c, Quiet (n.mem.client c) ((n.mem.deliver p data pol).1.client c) ∧
      ((n.mem.deliver p data pol).1.client c).written = (n.mem.client c).written := by
    intro c
    rw [Mem.deliver_client]
    split_ifs with hlive
    · rw [Mem.liveClient, hlive, Option.map_some] at hsk
      rw [hd]
      exact Quiet.skipped hdata hsk
    · exact ⟨.refl _, rfl⟩
  refine h.quiet_step (show n.mem.Step (.deliver p data pol) _ from if_pos hp) (fun q => ?_)
    (fun c => (hclient c).1) fun c _ => (hclient c).2
  rw [Mem.deliver_session]
  split_ifs with hqp
  · subst hqp
    rw [hd]
    exact ⟨rfl, fun _ hs hl => ⟨hs, hl, id⟩⟩
  · exact .refl _

/-- The effect of a delivery to `p` that commits `data`: the live client of a
session that is not stalled takes the stamped frame, or the session is stalled
afterwards or has no live client. -/
structure Commits (m : Mem) (p : SessionRef) (data : Bytes) (m' : Mem) : Prop where
  opened : (m.session p).state ≠ .closed
  other : ∀ q ≠ p, m'.session q = m.session q
  committed : (m'.session p).committed = (m.session p).committed ++ [data]
  live : (m'.session p).live = (m.session p).live
  client : ∀ c, (m'.client c = m.client c ∧
      ((m.session p).live = some c → (m'.session p).stalled = true)) ∨
    ((m.session p).live = some c ∧ (m.session p).stalled = false ∧
      m'.client c =
        { m.client c with send := (m.client c).send ++ [stamp data (m.session p).next] })

/-- A delivery to an open session that commits has this effect. -/
theorem Commits.of_deliver {m : Mem} {p : SessionRef} {data : Bytes} {pol : SendPolicy}
    {st ok : Bool} {live' : Option Client}
    (hd : (m.session p).deliver (m.liveClient p) data pol =
      ({ (m.session p).commit (m.session p).next data with stalled := st }, live', ok))
    (hopen : (m.session p).state ≠ .closed)
    (hh : (m.session p).Handed (m.liveClient p) data pol st live' ok) :
    Commits m p data (m.deliver p data pol).1 := by
  refine ⟨hopen, fun q hqp => by rw [Mem.deliver_session, if_neg hqp],
    by rw [Mem.deliver_session, if_pos rfl, hd]; rfl,
    by rw [Mem.deliver_session, if_pos rfl, hd]; rfl, fun c => ?_⟩
  rcases Mem.deliver_client_cases hd hh c with ⟨hc, hst⟩ | ⟨hlive, hst, -, hc⟩
  · refine Or.inl ⟨hc, fun hl => ?_⟩
    rw [Mem.deliver_session, if_pos rfl, hd]
    exact hst hl
  · exact Or.inr ⟨hlive, hst, hc⟩

section Commits

variable {p : SessionRef} {data : Bytes} {m' : Mem}

/-- The committed session's frames grow by the stamped event. -/
theorem Commits.frames (hc : Commits n.mem p data m') (h : n.Inv) :
    (m'.session p).frames = (n.mem.session p).frames ++ [stamp data (n.mem.session p).next] := by
  rw [← Session.frames_commit (h.logged p) data, Session.frames, Session.log, hc.committed]
  rfl

/-- A commit only appends, on every session. -/
theorem Commits.frames_prefix (hc : Commits n.mem p data m') (h : n.Inv) (q : SessionRef) :
    (n.mem.session q).frames <+: (m'.session q).frames := by
  by_cases hqp : q = p
  · subst hqp
    rw [hc.frames h]
    exact List.prefix_append ..
  · rw [hc.other q hqp]

/-- A live client that takes the frame keeps up with the log. -/
theorem Commits.queued (hc : Commits n.mem p data m') (h : n.Inv) (hdata : IsEvent data)
    {c : ClientRef} (hlive : (n.mem.session p).live = some c)
    (hst : (n.mem.session p).stalled = false)
    (hcl : m'.client c = { n.mem.client c with
      send := (n.mem.client c).send ++ [stamp data (n.mem.session p).next] }) :
    (m'.client c).session = some p ∧ (m'.client c).written = (n.mem.client c).written ∧
      sequenced (m'.client c).carried = (m'.session p).frames.drop (n.start c) := by
  obtain ⟨hbound, hcar⟩ := h.live p c hc.opened hlive
  have hcarried : (m'.client c).carried =
      (n.mem.client c).carried ++ [stamp data (n.mem.session p).next] := by
    rw [hcl]
    exact (List.append_assoc ..).symm
  refine ⟨by rw [hcl]; exact hbound, by rw [hcl], ?_⟩
  rw [hcarried, sequenced_append, hcar hst, hc.frames h,
    List.drop_append_of_le_length (h.start_le hbound),
    sequenced_eq_self (by simp [frameSeq_stamp hdata])]

/-- A client of another session, or of none, is left alone. -/
theorem Commits.client_eq (hc : Commits n.mem p data m') (h : n.Inv) {c : ClientRef}
    (hne : (n.mem.client c).session ≠ some p) : m'.client c = n.mem.client c := by
  rcases hc.client c with ⟨heq, -⟩ | ⟨hlive, -, -⟩
  · exact heq
  · exact absurd (h.live p c hc.opened hlive).1 hne

/-- No client changes its session. -/
theorem Commits.session_eq (hc : Commits n.mem p data m') (c : ClientRef) :
    (m'.client c).session = (n.mem.client c).session := by
  rcases hc.client c with ⟨heq, -⟩ | ⟨-, -, heq⟩ <;> rw [heq]

end Commits

/-- A delivery that commits the frame. -/
theorem Inv.commits (h : n.Inv) {op : Op} {m' : Mem} (hstep : n.mem.Step op m') {p : SessionRef}
    {data : Bytes} (hdata : IsEvent data) (hc : Commits n.mem p data m') :
    ({ n with mem := m' } : Net).Inv where
  store := h.store.step hstep
  logged q := (h.store.step_touched hstep q).logged (h.logged q)
  fresh q hq := by
    have hcount := hstep.sessionCount_le h.store
    have hp := (h.store.linked.session p).allocated hc.opened
    rw [hc.other q ((hp.trans_le hcount).trans_le hq).ne']
    exact h.fresh q (hcount.trans hq)
  events q := by
    by_cases hqp : q = p
    · subst hqp
      rw [hc.committed]
      intro d hd
      rcases List.mem_append.1 hd with hd | hd
      · exact h.events q d hd
      · exact List.mem_singleton.1 hd ▸ hdata
    · rw [hc.other q hqp]
      exact h.events q
  peer q := by
    obtain ⟨rest, hrest⟩ := hc.frames_prefix h q
    rw [← hrest]
    exact (h.peer q).append rest
  unopened c hno := by
    have hun := h.unopened c hno
    rw [hc.client_eq h (by rw [hun.1]; simp)]
    exact hun
  unbound c hno := by
    rw [hc.session_eq c] at hno
    rw [hc.client_eq h (by rw [hno]; simp)]
    exact h.unbound c hno
  bound c q hq := by
    rw [hc.session_eq c] at hq
    have hconn := h.bound c q hq
    have hcount := hstep.sessionCount_le h.store
    rcases hc.client c with ⟨heq, -⟩ | ⟨hlive, hst, hcl⟩
    · exact hconn.mono hcount (heq ▸ .refl _) rfl rfl (hc.frames_prefix h q) le_rfl
    · obtain ⟨hbound, hwritten, hcar⟩ := hc.queued h hdata hlive hst hcl
      obtain rfl : p = q := Option.some.inj ((h.live p c hc.opened hlive).1.symm.trans hq)
      refine ⟨hconn.allocated.trans_le hcount, hwritten.symm ▸ hconn.read_le, ?_,
        hwritten.symm ▸ hconn.pos⟩
      rw [hcar]
  live q c hopen hlive := by
    by_cases hqp : q = p
    · subst hqp
      rw [hc.live] at hlive
      rcases hc.client c with ⟨heq, hst⟩ | ⟨-, hst, hcl⟩
      · rw [heq]
        refine ⟨(h.live q c hc.opened hlive).1, fun hno => ?_⟩
        rw [hst hlive] at hno
        cases hno
      · obtain ⟨hbound, -, hcar⟩ := hc.queued h hdata hlive hst hcl
        exact ⟨hbound, fun _ => hcar⟩
    · rw [hc.other q hqp] at hopen hlive ⊢
      have hq := h.live q c hopen hlive
      rw [hc.client_eq h (by rw [hq.1]; simpa using hqp)]
      exact hq

/-- **Every delivery keeps the invariant.** -/
theorem Inv.deliver (h : n.Inv) {p : SessionRef} (hp : p < n.mem.sessionCount) {data : Bytes}
    (hdata : IsEvent data) (pol : SendPolicy) :
    ({ n with mem := (n.mem.deliver p data pol).1 } : Net).Inv := by
  have hstep : n.mem.Step (.deliver p data pol) (n.mem.deliver p data pol).1 := if_pos hp
  rcases (n.mem.session p).deliver_cases (n.mem.liveClient p) data pol with
    ⟨k, live', hd, hsk⟩ | ⟨st, live', ok, hd, hopen, -, hh⟩
  · exact h.deliver_skipped hp hdata hd hsk
  · exact h.commits hstep hdata (.of_deliver hd hopen hh)

/-- A refused resume. -/
theorem Inv.refused (h : n.Inv) {req : ResumeRequest} {now : ℤ} {m₁ : Mem}
    {reason : Option Reason} {victim : Option SessionRef}
    (hr : Mem.Refused n.mem req now m₁ reason victim) : ({ n with mem := m₁ } : Net).Inv := by
  have hstore := h.store.refused hr
  cases hr with
  | kept => exact h
  | killed hinv hreq hs hv =>
      refine h.quiet hstore (fun q => ?_) (Mem.discard_sessionCount ..).ge (fun q => ?_)
        (fun c => by rw [Mem.discard_client]; exact .refl _) fun c _ => by rw [Mem.discard_client]
      · rw [Mem.discard_session]
        split_ifs with hqp
        · exact (h.logged _).congr rfl rfl rfl
        · exact h.logged q
      · rw [Mem.discard_session]
        split_ifs with hqp
        · subst hqp
          exact .of_closed rfl rfl
        · exact .refl _

/-- A connection that stays without a session. -/
theorem Inv.openedUnbound (h : n.Inv) {c : ClientRef} (hc : (n.mem.client c).session = none)
    (k : ℕ) :
    ({ n with
      opened := Function.update n.opened c true
      start := Function.update n.start c k } : Net).Inv := by
  have hne : ∀ {d p}, (n.mem.client d).session = some p → d ≠ c := by
    rintro d p hd rfl
    rw [hc] at hd
    cases hd
  refine ⟨h.store, h.logged, h.fresh, h.events, h.peer, fun d hd => ?_, h.unbound, fun d p hd => ?_,
    fun p d hopen hlive => ?_⟩
  · by_cases hdc : d = c
    · simp [hdc] at hd
    · exact h.unopened d (by simpa [hdc] using hd)
  · have hconn := h.bound d p hd
    exact hconn.mono le_rfl (.refl _) rfl (Function.update_of_ne (hne hd) ..)
      (List.prefix_refl _) le_rfl
  · have hlive' := h.live p d hopen hlive
    simpa [Function.update_of_ne (hne hlive'.1)] using hlive'

/-- A connection is bound to a session, and given the log from `k` on. -/
theorem Inv.bind (h : n.Inv) {m' : Mem} {c : ClientRef} {p : SessionRef} {k : ℕ}
    {replay : List Bytes} (hc : n.opened c = false) (hstore : m'.StoreInv)
    (hlogged : ∀ q, (m'.session q).Logged) (hcount : n.mem.sessionCount ≤ m'.sessionCount)
    (hp : p < m'.sessionCount) (hother : ∀ q ≠ p, m'.session q = n.mem.session q)
    (hcom : (m'.session p).committed = (n.mem.session p).committed)
    (hlive : (m'.session p).live = some c) (hclient : ∀ d ≠ c, m'.client d = n.mem.client d)
    (hcl : m'.client c = { n.mem.client c with session := some p, replay := replay })
    (hreplay : sequenced replay = (n.mem.session p).frames.drop k) (hk : k ≤ (n.peer p).last) :
    ({ n with
      mem := m'
      opened := Function.update n.opened c true
      start := Function.update n.start c k } : Net).Inv := by
  obtain ⟨hnone, hwritten, hread⟩ := h.unopened c hc
  have hcommitted : ∀ q, (m'.session q).committed = (n.mem.session q).committed := by
    intro q
    by_cases hqp : q = p
    · rw [hqp, hcom]
    · rw [hother q hqp]
  have hframes : ∀ q, (m'.session q).frames = (n.mem.session q).frames := by
    intro q
    rw [Session.frames, Session.log, hcommitted q]
    rfl
  have hcarried : sequenced (m'.client c).carried = (m'.session p).frames.drop k := by
    have hsend := h.unbound c hnone
    rw [Client.carried, sequenced_append, List.append_eq_nil_iff] at hsend
    rw [hcl, Client.carried, hwritten, List.nil_append, sequenced_append, hsend.2, hreplay,
      List.append_nil, hframes]
  have hne : ∀ {d q}, (n.mem.client d).session = some q → d ≠ c := by
    rintro d q hd rfl
    rw [hnone] at hd
    cases hd
  refine ⟨hstore, hlogged, fun q hq => ?_, fun q => ?_, fun q => ?_, fun d hd => ?_, fun d hd => ?_,
    fun d q hd => ?_, fun q d hopen hq => ?_⟩
  · rw [hcommitted]
    exact h.fresh q (hcount.trans hq)
  · rw [hcommitted]
    exact h.events q
  · rw [hframes]
    exact h.peer q
  · by_cases hdc : d = c
    · simp [hdc] at hd
    · simpa [hclient d hdc] using h.unopened d (by simpa [hdc] using hd)
  · by_cases hdc : d = c
    · simp [hdc, hcl] at hd
    · simp only [hclient d hdc] at hd ⊢
      exact h.unbound d hd
  · by_cases hdc : d = c
    · subst hdc
      obtain rfl : p = q := by simpa [hcl] using hd
      refine ⟨hp, by simp [hread], ?_, ?_⟩
      · simp [hcarried]
      · simpa [hread] using hk
    · simp only [hclient d hdc] at hd
      exact (h.bound d q hd).mono hcount (by rw [hclient d hdc]; exact .refl _) rfl
        (Function.update_of_ne hdc ..) (hframes q ▸ List.prefix_refl _) le_rfl
  · by_cases hqp : q = p
    · subst hqp
      obtain rfl : c = d := Option.some.inj (hlive.symm.trans hq)
      exact ⟨by rw [hcl], fun _ => by simpa using hcarried⟩
    · simp only [hother q hqp] at hopen hq ⊢
      obtain ⟨hbound, hcar⟩ := h.live q d hopen hq
      have hdc := hne hbound
      simpa [hclient d hdc, hdc] using ⟨hbound, hcar⟩

/-- **Every `Open` keeps the invariant.** -/
theorem Inv.open (h : n.Inv) {c : ClientRef} {req : ResumeRequest} {now : ℤ}
    {newID : Option String} (hid : ∀ id ∈ newID, n.mem.store.sessions id = none)
    (hallowed : n.Allowed (.openSession c req now newID)) :
    (n.record (.openSession c req now newID) (n.mem.open c req now newID).1).Inv := by
  obtain ⟨hc, hlast⟩ := hallowed
  have hnone := (h.unopened c hc).1
  have hstep : n.mem.Step (.openSession c req now newID) (n.mem.open c req now newID).1 :=
    if_pos hid
  have hstore := h.store.step hstep
  have hlogged := fun q => (h.store.step_touched hstep q).logged (h.logged q)
  have ho := n.mem.open_cases c req now newID
  unfold record
  dsimp only
  generalize (n.mem.open c req now newID).1 = m', (n.mem.open c req now newID).2.1 = res,
    (n.mem.open c req now newID).2.2 = due at ho hstore hlogged
  cases ho with
  | @resumed p hinv hreq hs hv =>
      obtain ⟨hopen, -, -, hcov⟩ := Session.verdict_eq_none.1 hv
      have hframes : sequenced ((n.mem.session p).resumeFrames req.lastSeq) =
          (n.mem.session p).frames.drop req.lastSeq := by
        rw [((h.logged p).resumeFrames_eq hcov).2, sequenced_cons_none (frameSeq_sessionFrame ..),
          List.map_drop]
        exact sequenced_eq_self fun f hf => by
          have hmem := List.mem_of_mem_drop hf
          rw [← Session.frames, ← Session.sequenced_frames (h.events p)] at hmem
          exact (List.mem_filter.1 hmem).2
      exact h.bind hc hstore hlogged (by simp)
        (by simpa using (h.store.linked.session p).allocated hopen) (fun q hqp => by simp [hqp])
        (by simp [Session.attach]) (by simp [Session.attach]) (fun d hdc => by simp [hdc])
        (by simp) hframes (hlast hreq hinv p hs)
  | unbound hnew hr =>
      exact (h.refused hr).openedUnbound (by rw [hr.client_eq.1]; exact hnone) 0
  | @fresh m₁ reason victim id hnew hr =>
      have h₁ := h.refused hr
      have hempty : (m₁.session m₁.sessionCount).committed = [] := h₁.fresh _ le_rfl
      have hreplay : sequenced [sessionFrame id false 0 0 reason] =
          (m₁.session m₁.sessionCount).frames.drop 0 := by
        rw [sequenced_cons_none (frameSeq_sessionFrame ..), Session.frames, Session.log, hempty]
        rfl
      exact h₁.bind hc hstore hlogged (Nat.le_succ _) (Nat.lt_succ_self _)
        (fun q hqp => by simp [hqp]) (by simpa [newSession] using hempty.symm)
        (by simp [newSession]) (fun d hdc => by simp [hdc]) (by simp) hreplay (Nat.zero_le _)

/-- A `Leave` commits nothing. -/
theorem Inv.leave (h : n.Inv) {p : SessionRef} (hp : p < n.mem.sessionCount) (c : ClientRef)
    (resumable : Bool) (now : ℤ) :
    ({ n with mem := (n.mem.leave p c resumable now).1 } : Net).Inv := by
  have hstep : n.mem.Step (.leave p c resumable now) (n.mem.leave p c resumable now).1 := if_pos hp
  have hl := Mem.leave_cases h.store.linked p c resumable now
  generalize (n.mem.leave p c resumable now).1 = m', (n.mem.leave p c resumable now).2.1 = res,
    (n.mem.leave p c resumable now).2.2 = due at hl hstep
  cases hl with
  | gone => exact h
  | displaced => exact h
  | ended =>
      refine h.quiet_step hstep (fun q => ?_) (fun d => ?_) fun d _ => ?_
      · by_cases hqp : q = p
        · subst hqp
          exact .of_closed (by simp) (by simp)
        · simpa [hqp] using QuietSession.refl _
      · simpa using Quiet.refl _
      · simp
  | parked _ _ _ hpop =>
      refine h.quiet_step hstep (fun q => ?_) (fun d => ?_) fun d _ => ?_
      · rw [hpop.session_eq, Mem.park_session]
        split_ifs with hmem hqp hqp
        · subst hqp
          exact .of_closed rfl rfl
        · exact .of_closed rfl rfl
        · subst hqp
          exact ⟨rfl, fun _ _ hlive => by cases hlive⟩
        · exact .refl _
      · rw [hpop.mem, Mem.discardAll_client, Mem.park_client]
        split_ifs with hdc
        · subst hdc
          exact .flags ..
        · exact .refl _
      · rw [hpop.mem, Mem.discardAll_client, Mem.park_client]
        split_ifs with hdc
        · rw [hdc]
        · rfl

/-- A sweep commits nothing and queues nothing. -/
theorem Inv.sweep (h : n.Inv) (now : ℤ) : ({ n with mem := (n.mem.sweep now).1 } : Net).Inv := by
  have hstep : n.mem.Step (.sweep now) (n.mem.sweep now).1 := rfl
  obtain ⟨r, hpop, heq⟩ := Mem.sweep_popped h.store.linked now
  rw [heq] at hstep ⊢
  refine h.quiet_step hstep (fun q => ?_) (fun d => ?_) fun d _ => ?_
  · rw [hpop.session_eq]
    split_ifs
    · exact .of_closed rfl rfl
    · exact .refl _
  · rw [hpop.mem, Mem.discardAll_client]
    exact .refl _
  · rw [hpop.mem, Mem.discardAll_client]

/-- The peer reads one more frame. -/
theorem Inv.receive (h : n.Inv) {c : ClientRef} {p : SessionRef} {frame : Bytes}
    (hc : (n.mem.client c).session = some p)
    (hf : (n.mem.client c).written[n.read c]? = some frame) :
    ({ n with
      peer := Function.update n.peer p ((n.peer p).receive seqKey frame)
      read := Function.update n.read c (n.read c + 1) } : Net).Inv := by
  have hconn := h.bound c p hc
  have hwire :
      sequenced (n.mem.client c).written <+: (n.mem.session p).frames.drop (n.start c) := by
    refine List.IsPrefix.trans ?_ hconn.slice
    rw [Client.carried, List.append_assoc, sequenced_append]
    exact List.prefix_append ..
  obtain ⟨hup, hpos⟩ := (h.peer p).read (Session.numbered_frames (h.events p)) hwire hconn.pos hf
    fun hno => by
      rw [Option.isSome_eq_false_iff, Option.isNone_iff_eq_none] at hno
      simp [seqKey, hno]
  have hle : ∀ q, (n.peer q).last ≤
      (Function.update n.peer p ((n.peer p).receive seqKey frame) q).last := by
    intro q
    by_cases hqp : q = p
    · subst hqp
      simpa using Receiver.last_le_receive ..
    · simp [hqp]
  refine ⟨h.store, h.logged, h.fresh, h.events, fun q => ?_, fun d hd => ?_, h.unbound,
    fun d q hd => ?_, h.live⟩
  · by_cases hqp : q = p
    · subst hqp
      simpa using hup
    · simpa [hqp] using h.peer q
  · have hun := h.unopened d hd
    have hdc : d ≠ c := by
      rintro rfl
      rw [hun.1] at hc
      cases hc
    simpa [hdc] using hun
  · by_cases hdc : d = c
    · subst hdc
      obtain rfl : p = q := Option.some.inj (hc.symm.trans hd)
      refine ⟨hconn.allocated, ?_, hconn.slice, by simpa [sequenced] using hpos⟩
      simpa [Nat.add_one_le_iff] using (List.getElem?_eq_some_iff.1 hf).1
    · exact (h.bound d q hd).mono le_rfl (.refl _) (Function.update_of_ne hdc ..) rfl
        (List.prefix_refl _) (hle q)

/-- A call that rewrites one client and hands it no sequenced frame. -/
theorem Inv.setClient (h : n.Inv) {op : Op} {c : ClientRef} {cl : Client}
    (hstep : n.mem.Step op (n.mem.setClient c cl)) (hq : Quiet (n.mem.client c) cl)
    (hw : n.opened c = false → cl.written = (n.mem.client c).written) :
    ({ n with mem := n.mem.setClient c cl } : Net).Inv := by
  refine h.quiet_step hstep (fun p => .refl _) (fun d => ?_) fun d hd => ?_
  · rw [Mem.setClient_client]
    split_ifs with hdc
    · exact hdc ▸ hq
    · exact .refl _
  · rw [Mem.setClient_client]
    split_ifs with hdc
    · subst hdc
      exact hw hd
    · rfl

/-- A call that rewrites one session and commits nothing. -/
theorem Inv.setSession (h : n.Inv) {op : Op} {p : SessionRef} {s : Session}
    (hstep : n.mem.Step op (n.mem.setSession p s)) (hq : QuietSession (n.mem.session p) s) :
    ({ n with mem := n.mem.setSession p s } : Net).Inv := by
  refine h.quiet_step hstep (fun q => ?_) (fun c => .refl _) fun c _ => rfl
  rw [Mem.setSession_session]
  split_ifs with hqp
  · exact hqp ▸ hq
  · exact .refl _

/-- Sending an event keeps the invariant, whether the client is bound or not. -/
theorem Inv.trySend (h : n.Inv) (c : ClientRef) {data : Bytes} (hdata : IsEvent data)
    (pol : SendPolicy) : ({ n with mem := (n.mem.trySendPolicy c data pol).1 } : Net).Inv := by
  cases hc : (n.mem.client c).session with
  | some p =>
      rw [Mem.trySendPolicy_bound hc]
      exact h.deliver (h.bound c p hc).allocated hdata pol
  | none =>
      have hstep : n.mem.Step (.trySend c data pol) (n.mem.trySendPolicy c data pol).1 := rfl
      obtain ⟨send, dropped, ok, heq, hsend⟩ := Mem.trySendPolicy_unbound hc data pol
      rw [heq] at hstep ⊢
      refine h.setClient hstep ?_ fun _ => rfl
      rcases hsend with rfl | rfl
      · exact .flags ..
      · exact .send hdata.unnumbered _

/-- **Every step keeps the invariant.** -/
theorem Inv.step (h : n.Inv) {a : NetOp} {n' : Net} (hstep : n.Step a n') : n'.Inv := by
  unfold Step Net.step at hstep
  cases a with
  | receive c =>
      dsimp only at hstep
      split at hstep
      next p frame hc hf =>
        obtain rfl := Option.some.inj hstep
        exact h.receive hc hf
      next => cases hstep
  | call op =>
      rw [Option.ite_none_right_eq_some] at hstep
      obtain ⟨hallowed, hcall⟩ := hstep
      obtain ⟨m', hm', rfl⟩ := Option.map_eq_some_iff.1 hcall
      have hrun : n.mem.Step op m' := hm'
      cases hrun.took with
      | openSession c req now newID hid =>
          exact h.open hid hallowed
      | leave p c resumable now hp =>
          exact h.leave hp c resumable now
      | sweep now =>
          exact h.sweep now
      | deliver p data pol hp =>
          exact h.deliver hp hallowed pol
      | trySend c data pol =>
          exact h.trySend c hallowed pol
      | ack p seq _ =>
          refine h.setSession hrun ?_
          unfold Session.ack
          split_ifs
          · exact ⟨rfl, fun _ hs hl => ⟨hs, hl, id⟩⟩
          · exact .refl _
      | claimKey p key _ =>
          exact h.setSession hrun ⟨rfl, fun _ hs hl => ⟨hs, hl, id⟩⟩
      | write c cl hcl =>
          exact h.setClient hrun (.write hcl) fun hno =>
            absurd (hno.symm.trans hallowed) (by decide)
      | closeRaw c =>
          exact h.setClient hrun (.flags ..) fun _ => rfl
      | shutdown c =>
          exact h.setClient hrun (.flags ..) fun _ => rfl

/-- Nothing is committed, queued or written in the empty store. -/
theorem inv_init (opt : SessionOptions) (digest : String → String) (sendBuffer : ClientRef → ℤ) :
    (init opt digest sendBuffer).Inv where
  store := Mem.storeInv_newSessionStore opt digest sendBuffer
  logged _ := ⟨rfl, List.suffix_refl _⟩
  fresh _ _ := rfl
  events _ data hd := by cases hd
  peer _ := Receiver.upTo_empty _
  unopened _ _ := ⟨rfl, rfl, rfl⟩
  unbound _ _ := rfl
  bound c p hc := by cases hc
  live p c hopen := absurd rfl hopen

/-- **Recovery loses nothing, repeats nothing and keeps the order.**  In every run
of the store and the peers, over all connections of a session, the sequenced
frames its peer handles are a prefix of the frames committed to it, numbered
1, 2, 3, …; and on each connection the sequenced frames handed to the write side
carry consecutive numbers, starting after the `lastSeq` the connection continues
from. -/
theorem recovery (opt : SessionOptions) (digest : String → String) (sendBuffer : ClientRef → ℤ)
    (n : Net) (h : Reachable Step (init opt digest sendBuffer) n) :
    (∀ p, (n.peer p).handled <+: (n.mem.session p).frames ∧
      (n.mem.session p).frames.map frameSeq =
        (List.range' 1 (n.mem.session p).committed.length).map some) ∧
    ∀ c p, (n.mem.client c).session = some p →
      (n.mem.client c).carried.filterMap frameSeq =
        List.range' (n.start c + 1) (sequenced (n.mem.client c).carried).length := by
  have hinv : n.Inv :=
    h.invariant (inv_init opt digest sendBuffer) fun _ _ _ hn hstep => hn.step hstep
  refine ⟨fun p => ⟨?_, ?_⟩, fun c p hc => ?_⟩
  · rw [(hinv.peer p).handled_eq]
    exact List.take_prefix ..
  · rw [Session.frameSeq_frames (hinv.events p), ← Session.length_log]
    have hnum := (n.mem.session p).numbered_log
    unfold Numbered at hnum
    rw [← hnum, List.map_map]
    rfl
  · have hnum := Session.numbered_frames (hinv.events p)
    rw [← hnum.map_key_of_prefix (hinv.bound c p hc).slice]
    exact filterMap_frameSeq _

/-- The peer handles an event, loses the transport with the next one still in the
queue, and comes back for it and for what was sent in between. -/
theorem recovery_after_drop :
    ∃ n, Reachable Step (init ⟨0, 0, 0, 0, 0⟩ id fun _ => 0) n ∧
      (n.peer 0).handled.length = 3 ∧ (n.mem.client 1).session = some 0 ∧
      (n.peer 0).handled <+: (n.mem.session 0).frames ∧
      (n.mem.client 1).carried.filterMap frameSeq =
        List.range' (n.start 1 + 1) (sequenced (n.mem.client 1).carried).length := by
  obtain ⟨n, hn, hp⟩ := Reachable.of_exec Net.step
    (s := init ⟨0, 0, 0, 0, 0⟩ id fun _ => 0)
    [.call (.openSession 0 ⟨false, false, "", 0, ""⟩ 0 (some "a")),
      .call (.deliver 0 (ascii "\x7b\x7d") .disconnect), .call (.write 0), .call (.write 0),
      .receive 0, .receive 0, .call (.deliver 0 (ascii "\x7b\x7d") .disconnect),
      .call (.closeRaw 0), .call (.leave 0 0 true 1),
      .call (.deliver 0 (ascii "\x7b\x7d") .drop),
      .call (.openSession 1 ⟨true, false, "a", 1, ""⟩ 2 (some "b")),
      .call (.write 1), .call (.write 1), .call (.write 1), .receive 1, .receive 1, .receive 1]
    (p := fun n => (n.peer 0).handled.length = 3 ∧ (n.mem.client 1).session = some 0)
    (by decide +kernel)
  obtain ⟨hlen, hbound⟩ := of_decide_eq_true hp
  obtain ⟨hhandled, hnumbers⟩ := recovery _ _ _ n hn
  exact ⟨n, hn, hlen, hbound, (hhandled 0).1, hnumbers 1 0 hbound⟩

end Net
end GoSocket
