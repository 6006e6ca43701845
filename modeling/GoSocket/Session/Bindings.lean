/-
# Which client belongs to which session

A client is bound to a session by `Open` and by nothing else, and the session
then has it as its live client and its member.  `step_clientTouched` says what
one call can do to one client; `Bound` is what follows for a server that calls
`Open` once for each connection, as `serveTransport` does: whoever a session
names as live client or member is bound to it.
-/

import GoSocket.Session.Runs

namespace GoSocket

open Lib

namespace Mem

/-- What the call `op`, which ends in `m'`, can do to the client `d`. -/
inductive ClientTouched (m : Mem) (op : Op) (m' : Mem) (d : ClientRef) : Client → Prop where
  | same : ClientTouched m op m' d (m.client d)
  | bound {req : ResumeRequest} {now : ℤ} {newID : Option String} {p : SessionRef}
      {replay : List Bytes} : op = .openSession d req now newID →
      (m'.session p).live = some d → (m'.session p).member = some d →
      (m'.session p).state = .attached → p < m'.sessionCount →
      ClientTouched m op m' d { m.client d with session := some p, replay := replay }
  | parked {p : SessionRef} {now : ℤ} : op = .leave p d true now →
      ClientTouched m op m' d { m.client d with parked := true }
  | sent (send : List Bytes) (dropped : ℕ) :
      ClientTouched m op m' d { m.client d with send := send, dropped := dropped }
  | wrote {cl : Client} : op = .write d → (m.client d).writeNext = some cl →
      ClientTouched m op m' d cl
  | closed : op = .closeRaw d → ClientTouched m op m' d (m.client d).closeRaw
  | shutdown : op = .shutdown d → ClientTouched m op m' d (m.client d).shutdown

variable {m : Mem}

/-- A delivery puts frames on the live client's queue or counts them as dropped. -/
theorem deliver_sent (op : Op) (m' : Mem) (p : SessionRef) (data : Bytes) (pol : SendPolicy)
    (d : ClientRef) : ClientTouched m op m' d ((m.deliver p data pol).1.client d) := by
  rw [deliver_client]
  split_ifs with hlive
  · have hlc : m.liveClient p = some (m.client d) := by
      rw [liveClient, hlive, Option.map_some]
    rcases (m.session p).deliver_cases (m.liveClient p) data pol with
      ⟨n, live', hd, hsk⟩ | ⟨st, live', ok, hd, -, -, hh⟩
    · rw [hd]
      rw [hlc] at hsk
      cases hsk with
      | nothing => exact .same
      | raw _ hc =>
          obtain rfl := Option.some.inj hc
          exact .sent _ _
      | lost _ hc =>
          obtain rfl := Option.some.inj hc
          exact .sent _ _
    · rw [hd]
      rw [hlc] at hh
      cases hh with
      | queued hon =>
          obtain rfl := Option.some.inj (Session.online_eq_some.1 hon).2
          exact .sent _ _
      | offline => exact .same
      | closed => exact .same
      | full => exact .same
  · exact .same

/-- What an `Open` does to each client: it may bind the one it is for. -/
theorem clientTouched_open {c : ClientRef} {req : ResumeRequest} {now : ℤ}
    {newID : Option String} (h : m.StoreInv) (d : ClientRef) :
    ClientTouched m (.openSession c req now newID) (m.open c req now newID).1 d
      ((m.open c req now newID).1.client d) := by
  obtain ⟨m', res, due, hopen, ho⟩ := m.exists_opened c req now newID
  rw [hopen]
  cases ho with
  | @resumed p hinv hreq hs hv =>
      have hlt := (h.linked.session p).allocated (Session.verdict_eq_none.1 hv).1
      rw [attachLocked_client]
      split_ifs with hdc
      · subst hdc
        exact .bound rfl (by simp [Session.attach]) (by simp [Session.attach])
          (by simp [Session.attach]) (by simpa using hlt)
      · exact .same
  | unbound _ hr =>
      rw [hr.client_eq.1]
      exact .same
  | @fresh m₁ reason victim id hnew hr =>
      rw [fresh_client, hr.client_eq.1]
      split_ifs with hdc
      · subst hdc
        exact .bound rfl (by simp [newSession]) (by simp [newSession]) (by simp [newSession])
          (Nat.lt_succ_self _)
      · exact .same

/-- What a `Leave` does to each client: it may mark the one that leaves as parked. -/
theorem clientTouched_leave (h : m.StoreInv) {p : SessionRef} {c : ClientRef} {resumable : Bool}
    {now : ℤ} (m' : Mem) (d : ClientRef) :
    ClientTouched m (.leave p c resumable now) m' d
      ((m.leave p c resumable now).1.client d) := by
  obtain ⟨m'', res, due, hleave, hl⟩ := h.linked.exists_left p c resumable now
  rw [hleave]
  cases hl with
  | gone => exact .same
  | displaced => exact .same
  | ended =>
      rw [setSession_client, discard_client]
      exact .same
  | parked _ _ hres hpop =>
      rw [hpop.mem, discardAll_client, park_client]
      split_ifs with hdc
      · subst hdc hres
        exact .parked rfl
      · exact .same

/-- **Everything one call can do to a client.** -/
theorem step_clientTouched (h : m.StoreInv) {op : Op} {m' : Mem} (hstep : m.Step op m')
    (d : ClientRef) : ClientTouched m op m' d (m'.client d) := by
  have hset : ∀ {c : ClientRef} {cl : Client}, ClientTouched m op m' c cl →
      ClientTouched m op m' d ((m.setClient c cl).client d) := by
    intro c cl hcl
    rw [setClient_client]
    split_ifs with hdc
    · exact hdc ▸ hcl
    · exact .same
  cases hstep.took with
  | openSession c req now newID _ =>
      exact clientTouched_open h d
  | leave p c resumable now _ =>
      exact clientTouched_leave h _ d
  | sweep now =>
      obtain ⟨r, hpop, heq⟩ := sweep_popped h.linked now
      rw [heq, hpop.mem, discardAll_client]
      exact .same
  | deliver p data pol _ =>
      exact deliver_sent _ _ p data pol d
  | trySend c data pol =>
      cases hc : (m.client c).session with
      | none =>
          obtain ⟨send, dropped, ok, heq, -⟩ := trySendPolicy_unbound hc data pol
          rw [heq] at hset ⊢
          exact hset (.sent send dropped)
      | some p =>
          rw [trySendPolicy_bound hc]
          exact deliver_sent _ _ p data pol d
  | ack p seq _ =>
      exact .same
  | claimKey p key _ =>
      exact .same
  | write c cl hcl =>
      rw [setClient_client]
      split_ifs with hdc
      · subst hdc
        exact .wrote rfl hcl
      · exact .same
  | closeRaw c =>
      rw [setClient_client]
      split_ifs with hdc
      · subst hdc
        exact .closed rfl
      · exact .same
  | shutdown c =>
      rw [setClient_client]
      split_ifs with hdc
      · subst hdc
        exact .shutdown rfl
      · exact .same

/-- A transport that was closed stays closed, and a terminal close is not taken back. -/
theorem ClientTouched.mono {op : Op} {m' : Mem} {d : ClientRef} {cl : Client}
    (h : ClientTouched m op m' d cl) :
    ((m.client d).closed = true → cl.closed = true) ∧
      ((m.client d).noResume = true → cl.noResume = true) := by
  cases h with
  | same => exact ⟨id, id⟩
  | bound => exact ⟨id, id⟩
  | parked => exact ⟨id, id⟩
  | sent => exact ⟨id, id⟩
  | wrote _ hw =>
      obtain ⟨-, hclosed, hno, -⟩ := Client.writeNext_frame hw
      exact ⟨fun hc => hclosed.trans hc, fun hn => hno.trans hn⟩
  | closed => exact ⟨fun _ => rfl, id⟩
  | shutdown => exact ⟨fun _ => rfl, fun _ => rfl⟩

/-- Only `Open` binds a client. -/
theorem ClientTouched.session {op : Op} {m' : Mem} {d : ClientRef} {cl : Client}
    (h : ClientTouched m op m' d cl) :
    cl.session = (m.client d).session ∨
      ∃ req now newID p, op = .openSession d req now newID ∧ cl.session = some p ∧
        (m'.session p).live = some d ∧ (m'.session p).member = some d ∧
        (m'.session p).state = .attached ∧ p < m'.sessionCount := by
  cases h with
  | same => exact Or.inl rfl
  | bound hop hlive hmem hatt hlt => exact Or.inr ⟨_, _, _, _, hop, rfl, hlive, hmem, hatt, hlt⟩
  | parked => exact Or.inl rfl
  | sent => exact Or.inl rfl
  | wrote _ hw => exact Or.inl (Client.writeNext_frame hw).1
  | closed => exact Or.inl rfl
  | shutdown => exact Or.inl rfl

/-- The sessions' live clients and members are bound to them, and to allocated sessions. -/
structure Bound (m : Mem) : Prop where
  live : ∀ {p c}, (m.session p).live = some c → (m.client c).session = some p
  member : ∀ {p c}, (m.session p).member = some c → (m.client c).session = some p
  allocated : ∀ {p c}, (m.client c).session = some p → p < m.sessionCount

/-- No client is bound in the empty store. -/
theorem bound_newSessionStore (opt : SessionOptions) (digest : String → String)
    (sendBuffer : ClientRef → ℤ) : (newSessionStore opt digest sendBuffer).Bound := by
  constructor <;> intro p c hc <;> cases hc

/-- A refused resume does not change who is live or member. -/
theorem Refused.holders_eq {req : ResumeRequest} {now : ℤ} {m₁ : Mem} {reason : Option Reason}
    {victim : Option SessionRef} (h : Refused m req now m₁ reason victim) (q : SessionRef) :
    (m₁.session q).live = (m.session q).live ∧ (m₁.session q).member = (m.session q).member := by
  cases h with
  | kept => exact ⟨rfl, rfl⟩
  | killed =>
      rw [discard_session]
      split_ifs with hqp
      · rw [hqp]
        exact ⟨rfl, rfl⟩
      · exact ⟨rfl, rfl⟩

/-- **`Open` binds its client to one session**, or to none, and leaves the live
clients and members of the other sessions alone. -/
theorem open_binds (h : m.StoreInv) (c : ClientRef) (req : ResumeRequest) (now : ℤ)
    (newID : Option String) :
    let m' := (m.open c req now newID).1
    (∃ p, (m'.client c).session = some p ∧ (m'.session p).live = some c ∧
      (m'.session p).member = some c ∧ p < m'.sessionCount ∧
      ∀ q ≠ p, (m'.session q).live = (m.session q).live ∧
        (m'.session q).member = (m.session q).member) ∨
    (m'.client = m.client ∧ ∀ q, (m'.session q).live = (m.session q).live ∧
      (m'.session q).member = (m.session q).member) := by
  obtain ⟨m', res, due, hopen, ho⟩ := m.exists_opened c req now newID
  rw [hopen]
  cases ho with
  | @resumed p hinv hreq hs hv =>
      have hlt := (h.linked.session p).allocated (Session.verdict_eq_none.1 hv).1
      exact Or.inl ⟨p, by simp, by simp [Session.attach], by simp [Session.attach],
        by simpa using hlt, fun q hqp => by simp [hqp]⟩
  | unbound _ hr => exact Or.inr ⟨hr.client_eq.1, hr.holders_eq⟩
  | @fresh m₁ reason victim id hnew hr =>
      refine Or.inl ⟨m₁.sessionCount, by simp, by simp [newSession], by simp [newSession],
        Nat.lt_succ_self _, fun q hqp => ?_⟩
      rw [fresh_session, if_neg hqp]
      exact hr.holders_eq q

/-- No other call gives a session a new live client or a new member. -/
theorem Touched.holders {op : Op} {q : SessionRef} {s : Session} (h : Touched m op q s)
    (hop : ∀ c req now newID, op ≠ .openSession c req now newID) :
    (s.live = (m.session q).live ∨ s.live = none) ∧ s.member = (m.session q).member := by
  cases h with
  | same => exact ⟨Or.inl rfl, rfl⟩
  | allocated heq => exact absurd heq (hop _ _ _ _)
  | attached heq => exact absurd heq (hop _ _ _ _)
  | parked => exact ⟨Or.inr rfl, rfl⟩
  | expired => exact ⟨Or.inl rfl, rfl⟩
  | evicted => exact ⟨Or.inl rfl, rfl⟩
  | refused => exact ⟨Or.inl rfl, rfl⟩
  | ended => exact ⟨Or.inr rfl, rfl⟩
  | @delivered data pol _ =>
      obtain ⟨_, _, _, _, _, hd⟩ := (m.session q).deliver_frame (m.liveClient q) data pol
      rw [hd]
      exact ⟨Or.inl rfl, rfl⟩
  | acked =>
      unfold Session.ack
      split_ifs <;> exact ⟨Or.inl rfl, rfl⟩
  | claimed => exact ⟨Or.inl rfl, rfl⟩

/-- `Open` on a client without a session. -/
theorem Bound.open (hb : m.Bound) (h : m.StoreInv) {c : ClientRef}
    (hc : (m.client c).session = none) (req : ResumeRequest) (now : ℤ) {newID : Option String}
    (hid : ∀ id ∈ newID, m.store.sessions id = none) : (m.open c req now newID).1.Bound := by
  have hstep : m.Step (.openSession c req now newID) (m.open c req now newID).1 := if_pos hid
  have hcount := hstep.sessionCount_le h
  have hsame : ∀ d ≠ c, ((m.open c req now newID).1.client d).session = (m.client d).session := by
    intro d hdc
    rcases (step_clientTouched h hstep d).session with heq | ⟨_, _, _, _, hop, -⟩
    · exact heq
    · cases hop
      exact absurd rfl hdc
  have hne : ∀ {d p}, (m.client d).session = some p → d ≠ c := by
    rintro d p hd rfl
    rw [hc] at hd
    cases hd
  have hbinds := open_binds h c req now newID
  generalize (m.open c req now newID).1 = m' at hbinds hsame hcount
  rcases hbinds with ⟨p, hp, hlive, hmem, hlt, hother⟩ | ⟨hclient, hother⟩
  · -- the new holder is bound, every other one was before
    have hkeep : ∀ {q d}, (m.client d).session = some q → (m'.client d).session = some q :=
      fun hd => (hsame _ (hne hd)).trans hd
    refine ⟨fun {q d} hq => ?_, fun {q d} hq => ?_, fun {q d} hd => ?_⟩
    · by_cases hqp : q = p
      · subst hqp
        obtain rfl := Option.some.inj (hlive.symm.trans hq)
        exact hp
      · exact hkeep (hb.live ((hother q hqp).1.symm.trans hq))
    · by_cases hqp : q = p
      · subst hqp
        obtain rfl := Option.some.inj (hmem.symm.trans hq)
        exact hp
      · exact hkeep (hb.member ((hother q hqp).2.symm.trans hq))
    · by_cases hdc : d = c
      · subst hdc
        obtain rfl := Option.some.inj (hp.symm.trans hd)
        exact hlt
      · exact (hb.allocated ((hsame d hdc).symm.trans hd)).trans_le hcount
  · refine ⟨fun {q d} hq => ?_, fun {q d} hq => ?_, fun {q d} hd => ?_⟩
    · rw [hclient]
      exact hb.live ((hother q).1.symm.trans hq)
    · rw [hclient]
      exact hb.member ((hother q).2.symm.trans hq)
    · rw [hclient] at hd
      exact (hb.allocated hd).trans_le hcount

/-- **Every call keeps the bindings**, as long as `Open` is given a client without
a session. -/
theorem Bound.step (hb : m.Bound) (h : m.StoreInv) {op : Op} {m' : Mem} (hstep : m.Step op m')
    (hopen : ∀ c req now newID, op = .openSession c req now newID → (m.client c).session = none) :
    m'.Bound := by
  by_cases hop : ∃ c req now newID, op = .openSession c req now newID
  · obtain ⟨c, req, now, newID, rfl⟩ := hop
    cases hstep.took with
    | openSession _ _ _ _ hid => exact hb.open h (hopen _ _ _ _ rfl) req now hid
  · have hop' : ∀ c req now newID, op ≠ .openSession c req now newID :=
      fun c req now newID heq => hop ⟨c, req, now, newID, heq⟩
    have hsame : ∀ d, (m'.client d).session = (m.client d).session := by
      intro d
      rcases (step_clientTouched h hstep d).session with heq | ⟨_, _, _, _, heq, -⟩
      · exact heq
      · exact absurd heq (hop' _ _ _ _)
    refine ⟨fun {q d} hq => ?_, fun {q d} hq => ?_, fun {q d} hd => ?_⟩
    · rw [hsame]
      rcases ((h.step_touched hstep q).holders hop').1 with heq | hnone
      · exact hb.live (heq.symm.trans hq)
      · rw [hnone] at hq
        cases hq
    · rw [hsame]
      exact hb.member (((h.step_touched hstep q).holders hop').2.symm.trans hq)
    · exact (hb.allocated ((hsame d).symm.trans hd)).trans_le (hstep.sessionCount_le h)

end Mem
end GoSocket
