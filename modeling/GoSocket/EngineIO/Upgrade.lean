/-
# A session upgrades once

`readyForUpgrade` is asked before the WebSocket handshake and `applyUpgrade` checks
again under the manager's lock, so between the two anything may happen to the
session.  What matters is the second check: it finds the two flags set by the POSTs
of this very sid, and it sets `upgraded`, which no one clears.

`Registry` is what holds of the memory between any two steps, and `Request.Ok` what
each request knows where it is: whose session it works on, and that the WebSocket it
brings is its own.  They are assertions in the sense of `Lib.Threads`, and the other
modules about the handler build on them (`Machine.Sound`).
-/

import GoSocket.EngineIO.Inversion
import Mathlib.Data.List.Nodup

namespace GoSocket

open Lib

namespace EngineIO

namespace Memory

/-- A POST to `sid` has carried a probe. -/
def Probed (m : Memory) (sid : String) : Prop :=
  ∃ p, (sid, p) ∈ m.posted ∧ (p.type = .ping ∨ p.type = .pong) ∧ isProbe p.data = true

/-- A POST to `sid` has carried an upgrade packet. -/
def UpgradeSent (m : Memory) (sid : String) : Prop :=
  ∃ p, (sid, p) ∈ m.posted ∧ p.type = .upgrade

/-- What holds of the sessions between two steps. -/
structure Registry (m : Memory) : Prop where
  session : ∀ {sid ps}, m.sessions sid = some ps →
    ps.conn < m.connCount ∧ (m.conn ps.conn).polling.sid = sid
  distinct : ∀ {c d}, c < m.connCount → d < m.connCount →
    (m.conn c).polling.sid = (m.conn d).polling.sid → c = d
  probed : ∀ {sid ps}, m.sessions sid = some ps → ps.probed = true → m.Probed sid
  upgradeOK : ∀ {sid ps}, m.sessions sid = some ps → ps.upgradeOK = true → m.UpgradeSent sid
  /-- A session that was upgraded stays marked. -/
  upgraded : ∀ {sid w ps}, (sid, w) ∈ m.won → m.sessions sid = some ps → ps.upgraded = true
  won : ∀ {sid w}, (sid, w) ∈ m.won → w < m.socketCount ∧
    (∃ c < m.connCount, (m.conn c).polling.sid = sid) ∧ m.Probed sid ∧ m.UpgradeSent sid
  once : (m.won.map Prod.fst).Nodup
  socketOnce : (m.won.map Prod.snd).Nodup
  current : ∀ {c w}, c < m.connCount → (m.conn c).current = .websocket w →
    ((m.conn c).polling.sid, w) ∈ m.won

variable {m m' : Memory} {e : Effect}

/-- A probe that was posted stays posted. -/
theorem Probed.mono {sid : String} (h : m.Probed sid) (hg : m.Grows m') : m'.Probed sid := by
  obtain ⟨p, hp, htype, hdata⟩ := h
  exact ⟨p, hg.posted.subset hp, htype, hdata⟩

/-- An upgrade packet that was posted stays posted. -/
theorem UpgradeSent.mono {sid : String} (h : m.UpgradeSent sid) (hg : m.Grows m') :
    m'.UpgradeSent sid := by
  obtain ⟨p, hp, htype⟩ := h
  exact ⟨p, hg.posted.subset hp, htype⟩

/-- The empty registry is in order. -/
theorem registry_init (maxPayload : ℤ) : (init maxPayload).Registry where
  session h := nomatch h
  distinct h := absurd h (Nat.not_lt_zero _)
  probed h := nomatch h
  upgradeOK h := nomatch h
  upgraded h := absurd h List.not_mem_nil
  won h := absurd h List.not_mem_nil
  once := List.nodup_nil
  socketOnce := List.nodup_nil
  current h := absurd h (Nat.not_lt_zero _)

/-- What a goroutine knows of the memory when it does an effect. -/
def Permits (m : Memory) : Effect → Prop
  | .markProbed sid => m.Probed sid
  | .markUpgrade sid => m.UpgradeSent sid
  | .mark sid w => (∃ ps, m.sessions sid = some ps ∧ ps.probed = true ∧ ps.upgradeOK = true ∧
      ps.upgraded = false) ∧ w < m.socketCount ∧ w ∉ m.won.map Prod.snd
  | .conn c (.swap w) => ((m.conn c).polling.sid, w) ∈ m.won
  | _ => True

/-- Only `applyUpgrade` wins an upgrade. -/
theorem won_apply (m : Memory) (e : Effect) :
    (m.apply e).won = m.won ∨
      ∃ sid w, e = .mark sid w ∧ (m.apply e).won = m.won ++ [(sid, w)] := by
  cases e with
  | mark sid w => exact Or.inr ⟨sid, w, rfl, rfl⟩
  | _ => exact Or.inl rfl

end Memory

/-- Only `Swap` changes the current transport. -/
theorem Conn.apply_current (s : Conn) (e : ConnEffect) :
    (s.apply e).current = s.current ∨ ∃ w, e = .swap w ∧ (s.apply e).current = .websocket w := by
  cases e with
  | swap w => exact Or.inr ⟨w, rfl, rfl⟩
  | _ => exact Or.inl rfl

namespace Memory

variable {m m' : Memory} {e : Effect}

/-- The polling transport does not come back. -/
theorem websocket_apply {c : ConnRef} (h : ∃ w, (m.conn c).current = .websocket w) :
    ∃ w, ((m.apply e).conn c).current = .websocket w := by
  refine apply_of (P := fun s => ∃ w, s.current = .websocket w) (fun _ _ => id) (fun b _ => ?_) h
  rcases (m.conn c).apply_current b with hsame | ⟨v, -, hv⟩
  · rwa [hsame]
  · exact ⟨v, hv⟩

/-- A WebSocket that is installed was so before, or has just been. -/
theorem current_of_apply {c : ConnRef} {w : SockRef}
    (h : ((m.apply e).conn c).current = .websocket w) :
    (m.conn c).current = .websocket w ∨ e = .conn c (.swap w) := by
  rcases of_apply (P := fun s => s.current = .websocket w) (fun _ _ => id) h with
    hwas | ⟨b, rfl, hb⟩
  · exact Or.inl hwas
  · rcases (m.conn c).apply_current b with hsame | ⟨v, rfl, hv⟩
    · exact Or.inl (hsame.symm.trans hb)
    · obtain rfl := Active.websocket.inj (hv.symm.trans hb)
      exact Or.inr rfl

namespace Registry

/-- A marked session is upgraded from then on. -/
theorem apply_upgraded (h : m.Registry) (hp : m.Permits e) {sid : String} {w : SockRef}
    {ps : PollSession} (hwon : (sid, w) ∈ (m.apply e).won)
    (hps : (m.apply e).sessions sid = some ps) : ps.upgraded = true := by
  have hold : (sid, w) ∈ m.won → ps.upgraded = true := by
    intro hmem
    obtain ⟨ps₀, hps₀, -, -, -, heq | ⟨-, -, htrue⟩⟩ := sessions_apply hps
    · exact heq.trans (h.upgraded hmem hps₀)
    · exact htrue
  rcases m.won_apply e with heq | ⟨sid', w', rfl, heq⟩
  · exact hold (heq ▸ hwon)
  · rw [heq, List.mem_append, List.mem_singleton] at hwon
    rcases hwon with hmem | hmem
    · exact hold hmem
    · obtain ⟨rfl, rfl⟩ := Prod.mk.inj hmem
      obtain ⟨⟨ps₀, hps₀, -⟩, -⟩ := hp
      simp only [apply, modifySession, Function.update_self, hps₀, Option.map_some] at hps
      obtain rfl := Option.some.inj hps
      rfl

/-- After a permitted effect every won upgrade still names a socket and a connection that exist,
and was probed and confirmed. -/
theorem apply_won (h : m.Registry) (hp : m.Permits e) {sid : String} {w : SockRef}
    (hwon : (sid, w) ∈ (m.apply e).won) :
    w < (m.apply e).socketCount ∧
      (∃ c < (m.apply e).connCount, ((m.apply e).conn c).polling.sid = sid) ∧
      (m.apply e).Probed sid ∧ (m.apply e).UpgradeSent sid := by
  have hg := m.grows_apply e
  have hold : w < m.socketCount ∧ (∃ c < m.connCount, (m.conn c).polling.sid = sid) ∧
      m.Probed sid ∧ m.UpgradeSent sid := by
    rcases m.won_apply e with heq | ⟨sid', w', rfl, heq⟩
    · exact h.won (heq ▸ hwon)
    · rw [heq, List.mem_append, List.mem_singleton] at hwon
      rcases hwon with hmem | hmem
      · exact h.won hmem
      · obtain ⟨rfl, rfl⟩ := Prod.mk.inj hmem
        obtain ⟨⟨ps, hps, hprobed, hok, -⟩, hw, -⟩ := hp
        exact ⟨hw, ⟨ps.conn, h.session hps⟩, h.probed hps hprobed, h.upgradeOK hps hok⟩
  obtain ⟨hw, ⟨c, hc, hsid⟩, hprobed, hsent⟩ := hold
  exact ⟨hw.trans_le hg.socketCount, ⟨c, by simpa using hc, by simpa using hsid⟩,
    hprobed.mono hg, hsent.mono hg⟩

/-- After a permitted effect a connection on a socket still has its upgrade won. -/
theorem apply_current (h : m.Registry) (hp : m.Permits e) {c : ConnRef} {w : SockRef}
    (hc : c < m.connCount) (hcur : ((m.apply e).conn c).current = .websocket w) :
    (((m.apply e).conn c).polling.sid, w) ∈ (m.apply e).won := by
  rw [apply_sid]
  refine (m.grows_apply e).won.subset ?_
  rcases current_of_apply hcur with hcur | rfl
  · exact h.current hc hcur
  · exact hp

/-- A session wins with one WebSocket only. -/
theorem won_inj (h : m.Registry) {sid : String} {v w : SockRef} (hv : (sid, v) ∈ m.won)
    (hw : (sid, w) ∈ m.won) : v = w :=
  (Prod.mk.inj (List.inj_on_of_nodup_map h.once hv hw rfl)).2

/-- A WebSocket that was installed stays the current transport. -/
theorem current_apply (h : m.Registry) (hp : m.Permits e) {c : ConnRef} {w : SockRef}
    (hc : c < m.connCount) (hcur : (m.conn c).current = .websocket w) :
    ((m.apply e).conn c).current = .websocket w := by
  refine apply_of (P := fun s => s.current = .websocket w) (fun _ _ => id) ?_ hcur
  rintro b rfl
  rcases (m.conn c).apply_current b with hsame | ⟨v, rfl, hv⟩
  · exact hsame.trans hcur
  · rw [hv, h.won_inj hp (h.current hc hcur)]

/-- **An effect keeps the registry.** -/
theorem apply (h : m.Registry) (hp : m.Permits e) : (m.apply e).Registry where
  session hps := by
    obtain ⟨ps, hps, hconn, -⟩ := sessions_apply hps
    rw [hconn, apply_sid, apply_connCount]
    exact h.session hps
  distinct hc hd hsid := by
    rw [apply_connCount] at hc hd
    rw [apply_sid, apply_sid] at hsid
    exact h.distinct hc hd hsid
  probed hps htrue := by
    obtain ⟨ps, hps, -, heq | rfl, -⟩ := sessions_apply hps
    · exact (h.probed hps (heq ▸ htrue)).mono (m.grows_apply e)
    · exact Probed.mono hp (m.grows_apply _)
  upgradeOK hps htrue := by
    obtain ⟨ps, hps, -, -, heq | rfl, -⟩ := sessions_apply hps
    · exact (h.upgradeOK hps (heq ▸ htrue)).mono (m.grows_apply e)
    · exact UpgradeSent.mono hp (m.grows_apply _)
  upgraded := h.apply_upgraded hp
  won := h.apply_won hp
  once := by
    rcases m.won_apply e with heq | ⟨sid, w, rfl, heq⟩
    · exact heq ▸ h.once
    · obtain ⟨⟨ps, hps, -, -, hnot⟩, -⟩ := hp
      rw [heq, List.map_append, List.nodup_append]
      refine ⟨h.once, List.nodup_singleton _, ?_⟩
      rintro _ hmem _ hsingle rfl
      obtain ⟨⟨sid', w'⟩, hwon, rfl⟩ := List.mem_map.1 hmem
      obtain rfl : sid' = sid := List.mem_singleton.1 hsingle
      -- it would be marked already
      rw [h.upgraded hwon hps] at hnot
      cases hnot
  socketOnce := by
    rcases m.won_apply e with heq | ⟨sid, w, rfl, heq⟩
    · exact heq ▸ h.socketOnce
    · rw [heq, List.map_append, List.nodup_append]
      refine ⟨h.socketOnce, List.nodup_singleton _, ?_⟩
      rintro _ hmem _ hsingle rfl
      obtain rfl := List.mem_singleton.1 hsingle
      exact hp.2.2 hmem
  current hc := h.apply_current hp (by simpa using hc)

/-- A connection made under a fresh sid keeps the registry in order. -/
theorem create (h : m.Registry) {sid : String} (hfresh : m.Fresh sid) :
    (m.create sid).Registry := by
  have hg := m.grows_create sid
  have hnew : ((m.create sid).conn m.connCount).polling.sid = sid := by
    simp [Memory.create, newConn, newPollingTransport]
  have hunwon : ∀ w, (sid, w) ∉ m.won := by
    intro w hw
    obtain ⟨-, ⟨c, hc, hsid⟩, -⟩ := h.won hw
    exact hfresh c hc hsid
  have hsessions : ∀ {sid' ps}, (m.create sid).sessions sid' = some ps →
      (sid' = sid ∧ ps = ⟨m.connCount, false, false, false⟩) ∨ m.sessions sid' = some ps := by
    intro sid' ps hps
    by_cases hsid : sid' = sid
    · subst hsid
      exact Or.inl ⟨rfl, by simpa [Memory.create, eq_comm] using hps⟩
    · exact Or.inr ((create_sessions_of_ne hsid).symm.trans hps)
  -- the sessions there were have other sids
  have hother : ∀ {c}, c < m.connCount → ((m.create sid).conn c).polling.sid ≠ sid := by
    intro c hc
    rw [hg.sid c hc]
    exact hfresh c hc
  refine ⟨fun hps => ?_, fun {c d} hc hd hsid => ?_, fun hps htrue => ?_, fun hps htrue => ?_,
    fun {sid' w ps} hwon hps => ?_, fun hwon => ?_, h.once, h.socketOnce, fun {c w} hc hcur => ?_⟩
  · rcases hsessions hps with ⟨rfl, rfl⟩ | hps
    · exact ⟨Nat.lt_succ_self _, hnew⟩
    · obtain ⟨hlt, hsid⟩ := h.session hps
      exact ⟨hlt.trans_le hg.connCount, (hg.sid _ hlt).trans hsid⟩
  · rcases Nat.lt_succ_iff_lt_or_eq.1 hc with hc | rfl <;>
      rcases Nat.lt_succ_iff_lt_or_eq.1 hd with hd | rfl
    · rw [hg.sid c hc, hg.sid d hd] at hsid
      exact h.distinct hc hd hsid
    · exact absurd (hsid.trans hnew) (hother hc)
    · exact absurd (hsid.symm.trans hnew) (hother hd)
    · rfl
  · rcases hsessions hps with ⟨rfl, rfl⟩ | hps
    · cases htrue
    · exact (h.probed hps htrue).mono hg
  · rcases hsessions hps with ⟨rfl, rfl⟩ | hps
    · cases htrue
    · exact (h.upgradeOK hps htrue).mono hg
  · rcases hsessions hps with ⟨rfl, rfl⟩ | hps
    · exact absurd hwon (hunwon w)
    · exact h.upgraded hwon hps
  · obtain ⟨hw, ⟨c, hc, hsid⟩, hprobed, hsent⟩ := h.won hwon
    exact ⟨hw, ⟨c, hc.trans_le hg.connCount, (hg.sid c hc).trans hsid⟩, hprobed.mono hg,
      hsent.mono hg⟩
  · rcases Nat.lt_succ_iff_lt_or_eq.1 hc with hc | rfl
    · rw [hg.sid c hc]
      exact h.current hc (create_conn hc ▸ hcur)
    · simp [Memory.create, newConn] at hcur

end Registry
end Memory

/-- What an upgrade request to `sid` knows: the WebSocket it brings is its own, it has won
with it or nobody has, and after `Swap` it is the current transport. -/
def UpgradeStage.Ok (m : Memory) (n : RequestRef) (sid : String) : UpgradeStage → Prop
  | .applying w | .refusing w =>
      w < m.socketCount ∧ m.owner w = n ∧ w ∉ m.won.map Prod.snd
  | .swapping c w => c < m.connCount ∧ (m.conn c).polling.sid = sid ∧ (sid, w) ∈ m.won
  | .flushing c w _ | .signalling c w | .upgraded c w =>
      c < m.connCount ∧ (m.conn c).polling.sid = sid ∧ (m.conn c).current = .websocket w
  | .refused w =>
      w < m.socketCount ∧ m.owner w = n ∧ w ∉ m.won.map Prod.snd ∧
        (m.socket w).raw.closed = true
  | .checking | .handshake | .failed => True

/-- What a request knows. -/
def Request.Ok (m : Memory) (n : RequestRef) : Request → Prop
  | .get c _ => c < m.connCount
  | .post sid c s => c < m.connCount ∧ (m.conn c).polling.sid = sid ∧
      ∀ p rest, s = .handling p rest → (sid, p) ∈ m.posted
  | .upgrade sid s => s.Ok m n sid
  | .send c _ _ => c < m.connCount
  | .absent | .unknown => True

/-- The WebSocket the read pump works on. -/
def PumpStage.socket : PumpStage → Option SockRef
  | .websocket w | .reading w | .frame w _ | .closing w => some w
  | .idle | .polling | .selecting | .stopped => none

/-- The WebSocket `closeRaw` works on. -/
def CloserStage.socket : CloserStage → Option SockRef
  | .websocket w | .raw w => some w
  | .idle | .polling _ | .done => none

/-- What a goroutine knows. -/
def ThreadRef.Ok : (i : ThreadRef) → Memory → i.Local → Prop
  | .request n, m, r => r.Ok m n
  | .pump c, m, s => ∀ w ∈ s.socket, c < m.connCount ∧ (m.conn c).current = .websocket w
  | .closer c, m, s => ∀ w ∈ s.socket, c < m.connCount ∧ (m.conn c).current = .websocket w

/-- What holds between two steps of the machine. -/
abbrev Machine.Sound (m : Machine) : Prop := m.Annotated Memory.Registry ThreadRef.Ok

variable {m m' : Memory} {n : RequestRef}

/-- What a request knows stays true as long as its own WebSocket does not win. -/
theorem Request.Ok.mono {r : Request} (h : r.Ok m n) (hg : m.Grows m')
    (hcur : ∀ c w, c < m.connCount → (m.conn c).current = .websocket w →
      (m'.conn c).current = .websocket w)
    (hwon : ∀ w < m.socketCount, m.owner w = n → w ∉ m.won.map Prod.snd →
      w ∉ m'.won.map Prod.snd) : r.Ok m' n := by
  cases r with
  | absent => trivial
  | unknown => trivial
  | get c s => exact Nat.lt_of_lt_of_le h hg.connCount
  | send c o s => exact Nat.lt_of_lt_of_le h hg.connCount
  | post sid c s =>
      obtain ⟨hc, hsid, hposted⟩ := h
      exact ⟨hc.trans_le hg.connCount, (hg.sid c hc).trans hsid,
        fun p rest hs => hg.posted.subset (hposted p rest hs)⟩
  | upgrade sid s =>
      cases s with
      | applying w | refusing w =>
          obtain ⟨hw, howner, hno⟩ := h
          exact ⟨hw.trans_le hg.socketCount, (hg.owner w hw).trans howner, hwon w hw howner hno⟩
      | swapping c w =>
          obtain ⟨hc, hsid, hmem⟩ := h
          exact ⟨hc.trans_le hg.connCount, (hg.sid c hc).trans hsid, hg.won.subset hmem⟩
      | flushing c w e | signalling c w | upgraded c w =>
          obtain ⟨hc, hsid, hw⟩ := h
          exact ⟨hc.trans_le hg.connCount, (hg.sid c hc).trans hsid, hcur c w hc hw⟩
      | refused w =>
          obtain ⟨hw, howner, hno, hclosed⟩ := h
          exact ⟨hw.trans_le hg.socketCount, (hg.owner w hw).trans howner,
            hwon w hw howner hno, hg.rawClosed w hclosed⟩
      | checking | handshake | failed => trivial

/-- What a goroutine knows stays true under the steps of the others. -/
theorem ThreadRef.Ok.mono {i : ThreadRef} {l : i.Local} (h : i.Ok m l) (hg : m.Grows m')
    (hcur : ∀ c w, c < m.connCount → (m.conn c).current = .websocket w →
      (m'.conn c).current = .websocket w)
    (hwon : ∀ n, i = .request n → ∀ w < m.socketCount, m.owner w = n →
      w ∉ m.won.map Prod.snd → w ∉ m'.won.map Prod.snd) : i.Ok m' l := by
  have hsocket : ∀ {c w}, c < m.connCount ∧ (m.conn c).current = .websocket w →
      c < m'.connCount ∧ (m'.conn c).current = .websocket w := fun {c w} ⟨hc, hw⟩ =>
    ⟨hc.trans_le hg.connCount, hcur c w hc hw⟩
  cases i with
  | request n => exact Request.Ok.mono h hg hcur (hwon n rfl)
  | pump c => exact fun w hw => hsocket (h w hw)
  | closer c => exact fun w hw => hsocket (h w hw)

section own

variable {i : ThreadRef} {e : Effect} {c : ConnRef} {sid : String}

/-- What `enqueue` does is permitted by the registry. -/
theorem EnqueueStep.permits {bytes : Bytes} {s : EnqueueStage} {r : EnqueueNext}
    (h : EnqueueStep m n c bytes s r e) : m.Permits e := by
  cases h <;> trivial

/-- What the polling close does is permitted by the registry. -/
theorem CloseStep.permits {s : CloseStage} {r : Option CloseStage} (h : CloseStep m c s r e) :
    m.Permits e := by
  cases h <;> trivial

/-- A POST's step is permitted, and leaves the POST with what it knows. -/
theorem PostStep.own {s s' : PostStage} (h : PostStep m n sid c s s' e)
    (hok : (Request.post sid c s).Ok m n) :
    m.Permits e ∧ (Request.post sid c s').Ok (m.apply e) n := by
  obtain ⟨hc, hsid, hposted⟩ := hok
  have hc' : c < (m.apply e).connCount := by simpa using hc
  have hsid' : ((m.apply e).conn c).polling.sid = sid := by simpa using hsid
  -- the request is at a packet only after it has taken it
  have hpast : ∀ {s' : PostStage}, (∀ p rest, s' ≠ .handling p rest) →
      (Request.post sid c s').Ok (m.apply e) n := fun hs =>
    ⟨hc', hsid', fun p rest heq => absurd heq (hs p rest)⟩
  cases h with
  | next p rest =>
      refine ⟨trivial, hc', hsid', ?_⟩
      rintro _ _ ⟨⟩
      exact List.mem_append_right _ List.mem_cons_self
  | probe rest hp hdata =>
      exact ⟨⟨_, hsid ▸ hposted _ rest rfl, Or.inl hp, hdata⟩, hpast (by simp)⟩
  | probed rest hp hdata =>
      exact ⟨⟨_, hsid ▸ hposted _ rest rfl, Or.inr hp, hdata⟩, hpast (by simp)⟩
  | upgrade rest hp => exact ⟨⟨_, hsid ▸ hposted _ rest rfl, hp⟩, hpast (by simp)⟩
  | replying rest hs => exact ⟨hs.permits, hpast (by simp)⟩
  | replied rest hs => exact ⟨hs.permits, hpast (by simp)⟩
  | unreplied rest r r' hs => exact ⟨hs.permits, hpast (by simp)⟩
  | closing hs => exact ⟨hs.permits, hpast (by simp)⟩
  | closed hs => exact ⟨hs.permits, hpast (by simp)⟩
  | ok | ping | refused | message | close | skip | accept | undelivered =>
      exact ⟨trivial, hpast (by simp)⟩

/-- A step of the upgrade handler is permitted, and leaves the handler with what it knows. -/
theorem UpgradeStep.own {s s' : UpgradeStage} (h : UpgradeStep m n sid s s' e)
    (hG : m.Registry) (hok : s.Ok m n sid) : m.Permits e ∧ s'.Ok (m.apply e) n sid := by
  -- after `Swap` the WebSocket stays installed
  have hcur : ∀ {d w}, m.Permits e → d < m.connCount ∧ (m.conn d).polling.sid = sid ∧
      (m.conn d).current = .websocket w → d < (m.apply e).connCount ∧
        ((m.apply e).conn d).polling.sid = sid ∧
        ((m.apply e).conn d).current = .websocket w := fun {d w} hp ⟨hd, hsid, hcur⟩ =>
    ⟨by simpa using hd, by simpa using hsid, hG.current_apply hp hd hcur⟩
  cases h with
  | ready => exact ⟨trivial, trivial⟩
  | unready => exact ⟨trivial, trivial⟩
  | failed => exact ⟨trivial, trivial⟩
  | connect =>
      refine ⟨trivial, Nat.lt_succ_self _, by simp [Memory.apply], fun hmem => ?_⟩
      obtain ⟨⟨sid', w⟩, hmem, rfl⟩ := List.mem_map.1 hmem
      exact (hG.won hmem).1.false
  | mark hps hprobed hready hnot =>
      obtain ⟨hw, -, hno⟩ := hok
      obtain ⟨hlt, hsid⟩ := hG.session hps
      exact ⟨⟨⟨_, hps, hprobed, hready, hnot⟩, hw, hno⟩, by simpa using hlt, by simpa using hsid,
        List.mem_append_right _ List.mem_cons_self⟩
  | refuse w => exact ⟨trivial, hok⟩
  | swap d w =>
      obtain ⟨hd, hsid, hmem⟩ := hok
      refine ⟨?_, hd, by simpa using hsid, by simp [Memory.apply, Memory.setConn, Conn.apply]⟩
      show ((m.conn d).polling.sid, w) ∈ m.won
      rwa [hsid]
  | flushing hs => exact ⟨hs.permits, hcur hs.permits hok⟩
  | flushed r hs => exact ⟨hs.permits, hcur hs.permits hok⟩
  | signal d w => exact ⟨trivial, hcur trivial hok⟩
  | close w =>
      obtain ⟨hw, howner, hno⟩ := hok
      exact ⟨trivial, hw, howner, hno, by simp [Memory.apply, Memory.setSocket]⟩

/-- **What a goroutine knows after its own step**, and what it knows when it does its
effect. -/
theorem ThreadStep.own {l l' : i.Local} (h : ThreadStep m i l l' e) (hG : m.Registry)
    (hok : i.Ok m l) : m.Permits e ∧ i.Ok (m.apply e) l' := by
  have hg := m.grows_apply e
  have hsocket : ∀ {c w}, m.Permits e → c < m.connCount ∧ (m.conn c).current = .websocket w →
      c < (m.apply e).connCount ∧ ((m.apply e).conn c).current = .websocket w :=
    fun {c w} hp ⟨hc, hcur⟩ => ⟨by simpa using hc, hG.current_apply hp hc hcur⟩
  cases h with
  | get hs =>
      have hc : _ < (m.apply e).connCount := Nat.lt_of_lt_of_le hok hg.connCount
      cases hs <;> exact ⟨trivial, hc⟩
  | post hs => exact hs.own hok
  | upgrade hs => exact hs.own hG hok
  | send hs =>
      have hc : _ < (m.apply e).connCount := Nat.lt_of_lt_of_le hok hg.connCount
      cases hs with
      | enqueuing hs => exact ⟨hs.permits, hc⟩
      | enqueued r hs => exact ⟨hs.permits, hc⟩
      | _ => exact ⟨trivial, hc⟩
  | pump hc hs =>
      cases hs with
      | websocket hcur =>
          refine ⟨trivial, ?_⟩
          rintro _ ⟨⟩
          exact ⟨hc, hcur⟩
      | opened w | frame w rest | next w | skip w p rest | ping w p rest =>
          exact ⟨trivial, fun v hv => hsocket trivial (hok v hv)⟩
      | close p rest hopen => exact ⟨trivial, fun v hv => hsocket trivial (hok v hv)⟩
      | _ => exact ⟨trivial, fun v hv => nomatch hv⟩
  | closer hc hs =>
      cases hs with
      | websocket hcur =>
          refine ⟨trivial, ?_⟩
          rintro _ ⟨⟩
          exact ⟨hc, hcur⟩
      | swap hopen => exact ⟨trivial, fun v hv => hsocket trivial (hok v hv)⟩
      | closing hs => exact ⟨hs.permits, fun v hv => nomatch hv⟩
      | closed hs => exact ⟨hs.permits, fun v hv => nomatch hv⟩
      | _ => exact ⟨trivial, fun v hv => nomatch hv⟩

end own

namespace Machine

variable {m m' : Machine} {a : MachineOp}

/-- The empty machine is sound. -/
theorem sound_init (maxPayload : ℤ) : (init maxPayload).Sound where
  shared := Memory.registry_init maxPayload
  thread i := by
    cases i with
    | request n => trivial
    | pump c => exact fun w hw => nomatch hw
    | closer c => exact fun w hw => nomatch hw

/-- A step of a goroutine keeps the assertions. -/
theorem Sound.run (h : m.Sound) {i : ThreadRef} {l : i.Local} {e : Effect}
    (hs : ThreadStep m.shared i (m.thread i) l e) : Sound (m.put i (m.shared.apply e) l) := by
  obtain ⟨hpermits, hown⟩ := hs.own h.shared (h.thread i)
  refine h.put (h.shared.apply hpermits) hown fun j hj hok => ?_
  refine hok.mono (m.shared.grows_apply e) (fun _ _ => h.shared.current_apply hpermits) ?_
  rintro n rfl w hw howner hno
  rcases m.shared.won_apply e with heq | ⟨sid, w', rfl, heq⟩
  · rwa [heq]
  · -- the WebSocket that wins is that of the request in `applyUpgrade`
    obtain ⟨-, n', rfl, hr⟩ : m.Cause i _ (.mark sid w') := cause hs
    obtain ⟨-, howner', -⟩ : Request.Ok m.shared n' (.upgrade sid (.applying w')) :=
      hr ▸ h.thread (.request n')
    rw [heq, List.map_append, List.mem_append, List.map_singleton, List.mem_singleton]
    rintro (hmem | rfl)
    · exact hno hmem
    · exact hj (by rw [← howner, howner'])

/-- What `getPolling` finds is a session that has not been upgraded. -/
theorem getPolling_session {s : Memory} {sid : String} {c : ConnRef}
    (h : s.getPolling sid = some c) :
    ∃ ps, s.sessions sid = some ps ∧ ps.upgraded = false ∧ ps.conn = c := by
  unfold Memory.getPolling at h
  split at h
  next ps hps =>
    split_ifs at h with hup
    exact ⟨ps, hps, by simpa using hup, Option.some.inj h⟩
  next => cases h

/-- A new request knows what it has been told by `getPolling`. -/
theorem Sound.starts (h : m.Sound) {r : Request} (hr : m.Starts r) :
    r.Ok m.shared m.shared.requestCount := by
  cases hr with
  | unknown => trivial
  | get hc =>
      obtain ⟨ps, hps, -, rfl⟩ := getPolling_session hc
      exact (h.shared.session hps).1
  | post packets hc =>
      obtain ⟨ps, hps, -, rfl⟩ := getPolling_session hc
      obtain ⟨hlt, hsid⟩ := h.shared.session hps
      exact ⟨hlt, hsid, fun p rest hs => nomatch hs⟩
  | refused _ hc =>
      obtain ⟨ps, hps, -, rfl⟩ := getPolling_session hc
      obtain ⟨hlt, hsid⟩ := h.shared.session hps
      exact ⟨hlt, hsid, fun p rest hs => nomatch hs⟩
  | upgrade sid => trivial
  | send o hc => exact hc

/-- A request that starts keeps the machine sound. -/
theorem Sound.spawn (h : m.Sound) {r : Request} (hr : m.Starts r) : (m.spawn r).Sound := by
  have hg := m.shared.grows_requestCount (m.shared.requestCount + 1)
  refine Pool.Annotated.put h ?_ ?_ fun j _ hok =>
    hok.mono hg (fun _ _ _ => id) fun _ _ _ _ _ => id
  · exact ⟨h.shared.session, h.shared.distinct, h.shared.probed, h.shared.upgradeOK,
      h.shared.upgraded, h.shared.won, h.shared.once, h.shared.socketOnce, h.shared.current⟩
  · exact (h.starts hr).mono hg (fun _ _ _ => id) fun _ _ _ => id

/-- A connection made under a fresh sid keeps the machine sound. -/
theorem Sound.create (h : m.Sound) {sid : String} (hfresh : m.shared.Fresh sid) :
    Sound { m with shared := m.shared.create sid } :=
  ⟨h.shared.create hfresh, fun i => (h.thread i).mono (m.shared.grows_create _)
    (fun _ _ hc hcur => (Memory.create_conn hc).symm ▸ hcur) fun _ _ _ _ _ => id⟩

/-- Every step keeps the machine sound. -/
theorem Sound.step (h : m.Sound) (hstep : m.Step a m') : m'.Sound := by
  cases hstep.moved with
  | create hfresh => exact h.create hfresh
  | spawn hr => exact h.spawn hr
  | run _ hs => exact h.run hs

/-- **Every reachable machine is sound.** -/
theorem Sound.of_reachable {maxPayload : ℤ} (h : Reachable Step (init maxPayload) m) : m.Sound :=
  h.invariant (sound_init maxPayload) fun _ _ _ hm hstep => hm.step hstep

/-- A session that was upgraded is not there for polling. -/
theorem getPolling_of_won (h : m.shared.Registry) {sid : String} {w : SockRef}
    (hwon : (sid, w) ∈ m.shared.won) : m.shared.getPolling sid = none := by
  unfold Memory.getPolling
  cases hps : m.shared.sessions sid with
  | none => rfl
  | some ps => simp only [h.upgraded hwon hps, if_true]

/-- `applyUpgrade`, under the lock: it wins, or it changes nothing. -/
theorem Step.applying (hstep : m.Step a m') {n : RequestRef} {k : Choice} {sid : String}
    {w : SockRef} (ha : a = .run (.request n) k)
    (hr : m.request n = .upgrade sid (.applying w)) :
    (m'.shared.won = m.shared.won ++ [(sid, w)] ∧
      ∃ c, m'.request n = .upgrade sid (.swapping c w)) ∨
      (m'.shared = m.shared ∧ m'.request n = .upgrade sid (.refusing w)) := by
  subst ha
  cases hstep.took with
  | run hnext =>
      have hs := ThreadRef.took hnext
      rw [show m.thread (.request n) = _ from hr] at hs
      cases hs with
      | upgrade hs =>
          cases hs with
          | mark => exact Or.inl ⟨rfl, _, Pool.put_thread_self ..⟩
          | refuse => exact Or.inr ⟨rfl, Pool.put_thread_self ..⟩

/-- A WebSocket that was refused is closed, and nothing else is done. -/
theorem refusing_step {n : RequestRef} {sid : String} {w : SockRef}
    (hr : m.request n = .upgrade sid (.refusing w)) (k : Choice) :
    ∃ m', m.Step (.run (.request n) k) m' ∧ m'.request n = .upgrade sid (.refused w) ∧
      m'.shared.sessions = m.shared.sessions ∧ m'.shared.conn = m.shared.conn ∧
      (m'.shared.socket w).raw.closed = true := by
  have hnext : ThreadRef.next m.shared k (.request n) (m.thread (.request n)) =
      some (.upgrade sid (.refused w), .closeRaw w) := by
    rw [show m.thread (.request n) = _ from hr]
    rfl
  refine ⟨m.put (.request n) (m.shared.apply (.closeRaw w)) (.upgrade sid (.refused w)), ?_,
    Pool.put_thread_self .., rfl, rfl, by simp [Memory.apply, Memory.setSocket]⟩
  simp only [Step, step, hnext, Option.map_some]

/-- **A session upgrades at most once and never early.**  In every state reached by any
interleaving of POSTs, polls, upgrade requests, closes and the rest:

* for each sid at most one call of `applyUpgrade` has succeeded;
* if one has, POSTs to that sid have carried a probe and an upgrade packet, and the sid
  is not served by polling any more;
* a request in `applyUpgrade` either wins or leaves the memory as it is, and in that case
  the next thing it does is to close its WebSocket, and nothing else;
* the WebSocket of a request that has returned was won by it, or it is closed. -/
theorem upgrades_once (maxPayload : ℤ) (m : Machine) (h : Reachable Step (init maxPayload) m) :
    (m.shared.won.map Prod.fst).Nodup ∧
    (∀ sid w, (sid, w) ∈ m.shared.won →
      m.shared.Probed sid ∧ m.shared.UpgradeSent sid ∧ m.shared.getPolling sid = none) ∧
    (∀ n sid w, m.request n = .upgrade sid (.applying w) → ∀ k m',
      m.Step (.run (.request n) k) m' →
        (m'.shared.won = m.shared.won ++ [(sid, w)] ∧
          ∃ c, m'.request n = .upgrade sid (.swapping c w)) ∨
        (m'.shared = m.shared ∧ m'.request n = .upgrade sid (.refusing w))) ∧
    (∀ n sid w, m.request n = .upgrade sid (.refusing w) → ∀ k, ∃ m',
      m.Step (.run (.request n) k) m' ∧ m'.request n = .upgrade sid (.refused w) ∧
        m'.shared.sessions = m.shared.sessions ∧ m'.shared.conn = m.shared.conn ∧
        (m'.shared.socket w).raw.closed = true) ∧
    (∀ n sid c w, m.request n = .upgrade sid (.upgraded c w) → (sid, w) ∈ m.shared.won) ∧
    ∀ n sid w, m.request n = .upgrade sid (.refused w) →
      (m.shared.socket w).raw.closed = true ∧ w ∉ m.shared.won.map Prod.snd := by
  have hs := Sound.of_reachable h
  have hknows : ∀ n r, m.request n = r → r.Ok m.shared n := fun n r hr =>
    hr ▸ hs.thread (.request n)
  refine ⟨hs.shared.once, fun sid w hwon => ?_, fun n sid w hr k m' hstep => hstep.applying rfl hr,
    fun n sid w hr k => refusing_step hr k, fun n sid c w hr => ?_, fun n sid w hr => ?_⟩
  · obtain ⟨-, -, hprobed, hsent⟩ := hs.shared.won hwon
    exact ⟨hprobed, hsent, getPolling_of_won hs.shared hwon⟩
  · obtain ⟨hc, hsid, hcur⟩ := hknows n _ hr
    exact hsid ▸ hs.shared.current hc hcur
  · obtain ⟨-, -, hno, hclosed⟩ := hknows n _ hr
    exact ⟨hclosed, hno⟩

/-- Two upgrade requests make their handshakes before either of them calls
`applyUpgrade`. -/
theorem upgrades_once_raced :
    ∃ m, Reachable Step (init 100) m ∧ m.shared.won = [("s", 0)] ∧
      m.request 3 = .upgrade "s" (.refused 1) ∧ m.shared.getPolling "s" = none ∧
      (m.shared.socket 1).raw.closed = true := by
  obtain ⟨m, hm, hp⟩ := Reachable.of_exec step (s := init 100)
    (readySession ++ .upgrade "s" :: .upgrade "s" :: advance (.request 2) 2 ++
      advance (.request 3) 2 ++ advance (.request 2) 1 ++ advance (.request 3) 2)
    (p := fun m => m.shared.won = [("s", 0)] ∧ m.request 3 = .upgrade "s" (.refused 1))
    (by decide +kernel)
  obtain ⟨hwon, hr⟩ := of_decide_eq_true hp
  obtain ⟨-, hserved, -, -, -, hrefused⟩ := upgrades_once 100 m hm
  exact ⟨m, hm, hwon, hr, (hserved "s" 0 (by simp [hwon])).2.2, (hrefused 3 "s" 1 hr).1⟩

end Machine
end EngineIO
end GoSocket
