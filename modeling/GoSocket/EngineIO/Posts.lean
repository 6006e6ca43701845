/-
# What a POST does to its session

`servePost` reads the body, at most `MaxPayload+1` bytes of it, decodes it and hands the
packets to `handleInbound`, which applies them one after the other and stops at the first
error.  `Endpoint` is what it works on, the polling transport and the manager's entry for
its sid; the functions are the ones of `polling_transport.go`, run with nothing in
between, and a POST of the machine that is left alone does what they compute
(`Machine.post_alone`).

Two things go wrong.

* `MaxPayload+1` is an `int64`.  With the largest `MaxPayload` it is negative, nothing is
  read, and the empty batch is answered with `ok` (`servePost_limit_iff`).
* A message that finds the inbox full, or a ping that finds the outbox full, fails the
  request after the packets before it were applied, and a probe counts before its pong
  fails.  A client that repeats the request sends those packets twice.  The request has
  no effect, or is applied as a whole, exactly when there is room for all of it or the
  first packet that would change anything is refused; with the largest `MaxPayload`,
  exactly when it is a batch that changes nothing (`rejected_post_iff`).
-/

import GoSocket.EngineIO.Inversion

namespace GoSocket

open Lib

namespace EngineIO

section limit

/-- What `io.ReadAll(io.LimitReader(r.Body, MaxPayload+1))` returns. -/
def postBody (maxPayload : ℤ) (body : Bytes) : Bytes :=
  body.take ((maxPayload + 1).bmod (2 ^ 64)).toNat

/-- `servePost` in terms of what it has read. -/
theorem servePost_eq (maxPayload : ℤ) (body : Bytes) :
    servePost maxPayload body =
      if maxPayload < (postBody maxPayload body).length then .done .tooLarge
      else
        match decodeBatch (postBody maxPayload body) with
        | .ok packets => .packets packets
        | .error _ => .done .badBatch :=
  rfl

/-- A POST is answered "too large" when what was read of its body exceeds the limit. -/
theorem servePost_eq_tooLarge_iff (maxPayload : ℤ) (body : Bytes) :
    servePost maxPayload body = .done .tooLarge ↔
      maxPayload < (postBody maxPayload body).length := by
  rw [servePost_eq]
  split_ifs with h
  · exact iff_of_true rfl h
  · refine iff_of_false ?_ h
    split <;> simp

section read

variable {maxPayload : ℤ} (hmin : -9223372036854775808 ≤ maxPayload)
  (hlt : maxPayload < 9223372036854775807)

include hmin hlt

/-- Below the largest `int64`, one byte more than `MaxPayload` is read. -/
theorem postBody_take (body : Bytes) :
    postBody maxPayload body = body.take (maxPayload + 1).toNat := by
  rw [postBody, Int.bmod_eq_of_le (by omega) (by omega)]

/-- What was read of a body exceeds the limit when the body does. -/
theorem length_postBody (body : Bytes) :
    maxPayload < (postBody maxPayload body).length ↔ maxPayload < body.length := by
  rw [postBody_take hmin hlt, List.length_take]
  omega

/-- A body within the limit is read whole. -/
theorem postBody_eq {body : Bytes} (hbody : body.length ≤ maxPayload) :
    postBody maxPayload body = body := by
  rw [postBody_take hmin hlt]
  exact List.take_of_length_le (by omega)

end read

/-- With the largest limit nothing is read. -/
theorem postBody_max (body : Bytes) : postBody 9223372036854775807 body = [] :=
  List.take_zero

/-- **When the size limit is right.**  For every `MaxPayload` and every body,
`servePost` answers with 413 exactly when the body is longer than `MaxPayload`, and otherwise
hands the whole body to `DecodeBatch`, if and only if `MaxPayload` is not the largest
`int64` or the body is empty. -/
theorem servePost_limit_iff (maxPayload : GoInt) (body : Bytes) :
    ((servePost maxPayload.1 body = .done .tooLarge ↔ maxPayload.1 < body.length) ∧
      (body.length ≤ maxPayload.1 →
        postBody maxPayload.1 body = body ∧
        servePost maxPayload.1 body =
          match decodeBatch body with
          | .ok packets => .packets packets
          | .error _ => .done .badBatch)) ↔
      maxPayload.1 < 9223372036854775807 ∨ body = [] := by
  rw [servePost_eq_tooLarge_iff]
  by_cases hlt : maxPayload.1 < 9223372036854775807
  · refine iff_of_true ⟨length_postBody maxPayload.2.1 hlt body, fun hbody => ?_⟩ (Or.inl hlt)
    have hwhole := postBody_eq maxPayload.2.1 hlt hbody
    refine ⟨hwhole, ?_⟩
    rw [servePost_eq, hwhole, if_neg (by omega)]
  · have hmax : maxPayload.1 = 9223372036854775807 := by have := maxPayload.2.2; omega
    rw [servePost_eq, hmax, postBody_max]
    constructor
    · rintro ⟨htoo, hwhole⟩
      have hbody : (body.length : ℤ) ≤ 9223372036854775807 :=
        Int.not_lt.1 fun h => absurd (htoo.2 h) (by simp)
      exact Or.inr (hwhole hbody).1.symm
    · rintro (h | rfl)
      · exact absurd h (by simp)
      · exact ⟨Iff.rfl, fun _ => ⟨rfl, rfl⟩⟩

/-- **Counterexample.**  Under the largest `MaxPayload` a body is not read, and the empty batch is
handled instead. -/
theorem body_dropped :
    servePost 9223372036854775807 (ascii "4hello") = .packets [] ∧
      decodeBatch (ascii "4hello") = .ok [⟨.message, ascii "hello"⟩] := by
  decide +kernel

end limit

/-- What a POST works on: the polling transport, and the manager's entry for its sid. -/
@[ext] structure Endpoint where
  transport : PollingTransport
  session : Option PollSession
  deriving DecidableEq

namespace Endpoint

/-- `onProbe`. -/
def markProbed (s : Endpoint) : Endpoint :=
  { s with session := s.session.map fun ps => { ps with probed := true } }

/-- `onUpgradePacket`. -/
def markUpgrade (s : Endpoint) : Endpoint :=
  { s with session := s.session.map fun ps => { ps with upgradeOK := true } }

/-- The callback of a probe. -/
def probe (s : Endpoint) (data : Bytes) : Endpoint := if isProbe data then s.markProbed else s

def enqueueOutbound (s : Endpoint) (bytes : Bytes) : EnqueueResult × Endpoint :=
  if s.transport.closed then (.eof, s)
  else if s.transport.outbox.length < chanCapacity then
    (.ok, { s with
      transport.outbox := s.transport.outbox ++ [bytes]
      transport.wake := true })
  else (.full, s)

/-- `deliverInbound`; `none` is the nil error. -/
def deliverInbound (s : Endpoint) (data : Bytes) : Option PostResult × Endpoint :=
  if s.transport.closed then (some .eof, s)
  else if s.transport.inboxClosed then (some .panicked, s)
  else if s.transport.inbox.length < chanCapacity then
    (none, { s with transport.inbox := s.transport.inbox ++ [data] })
  else (some .inboxFull, s)

/-- `Close`. -/
def close (s : Endpoint) : Endpoint :=
  if s.transport.closed then s
  else
    { transport := { s.transport with closed := true, inboxClosed := true }
      session := none }

/-- `handleOne`; `none` is the nil error. -/
def handleOne (s : Endpoint) (p : Packet) : Option PostResult × Endpoint :=
  match p.type with
  | .ping =>
      match (s.probe p.data).enqueueOutbound (wire .pong p.data) with
      | (.ok, s) => (none, s)
      | (.eof, s) => (some .eof, s)
      | (.full, s) => (some .outboxFull, s)
  | .pong => (none, s.probe p.data)
  | .message => s.deliverInbound p.data
  | .upgrade => (none, s.markUpgrade)
  | .close => (some .eof, s.close)
  | _ => (none, s)

def handleInbound (s : Endpoint) : List Packet → PostResult × Endpoint
  | [] => (.ok, s)
  | p :: rest =>
      match s.handleOne p with
      | (none, s) => s.handleInbound rest
      | (some r, s) => (r, s)

/-- `servePost`. -/
def servePost (s : Endpoint) (body : Bytes) : PostResult × Endpoint :=
  let raw := postBody s.transport.maxPayload body
  if s.transport.maxPayload < raw.length then (.tooLarge, s)
  else
    match decodeBatch raw with
    | .ok packets => s.handleInbound packets
    | .error _ => (.badBatch, s)

/-- What a packet is for: a message goes to the inbox, a ping is answered, and probes and
upgrade packets are marked. -/
def applied (s : Endpoint) (p : Packet) : Endpoint :=
  match p.type with
  | .ping =>
      { s.probe p.data with
        transport.outbox := s.transport.outbox ++ [wire .pong p.data]
        transport.wake := true }
  | .pong => s.probe p.data
  | .message => { s with transport.inbox := s.transport.inbox ++ [p.data] }
  | .upgrade => s.markUpgrade
  | _ => s

/-- What a POST is to leave as it was: the inbox, the outbox and the flags of the session. -/
def visible (s : Endpoint) : List Bytes × List Bytes × Option PollSession :=
  (s.transport.inbox, s.transport.outbox, s.session)

/-- The packet changes something. -/
def acts (s : Endpoint) (p : Packet) : Bool := (s.applied p).visible ≠ s.visible

/-- There is room for what the packet puts into a queue. -/
def Takes (s : Endpoint) (p : Packet) : Prop :=
  (p.type = .message → s.transport.inbox.length < chanCapacity) ∧
    (p.type = .ping → s.transport.outbox.length < chanCapacity)

/-- There is room for all the packets. -/
def Fits (s : Endpoint) (packets : List Packet) : Prop :=
  packets.countP (·.type = .message) ≤ chanCapacity - s.transport.inbox.length ∧
    packets.countP (·.type = .ping) ≤ chanCapacity - s.transport.outbox.length

/-- The packet is refused and changes nothing: it is no probe that is not marked yet. -/
def Refuses (s : Endpoint) (p : Packet) : Prop :=
  ¬ s.Takes p ∧ (p.type = .ping → (s.probe p.data).session = s.session)

/-- An open session. -/
def Open (s : Endpoint) : Prop := s.transport.closed = false ∧ s.transport.inboxClosed = false

variable {s : Endpoint} {p : Packet} {packets : List Packet}

/-- Answering a probe keeps the transport's fields but the outbox. -/
@[simp] theorem probe_transport (s : Endpoint) (data : Bytes) :
    (s.probe data).transport = s.transport := by
  unfold probe
  split <;> rfl

/-- A packet other than a close leaves an open endpoint open. -/
theorem Open.applied (h : s.Open) (p : Packet) : (s.applied p).Open := by
  obtain ⟨type, data⟩ := p
  cases type with
  | ping | pong => simpa [Open, Endpoint.applied] using h
  | _ => exact h

/-- A packet for which there is room is applied. -/
theorem handleOne_of_takes (h : s.Open) (hp : p.type ≠ .close) (hroom : s.Takes p) :
    s.handleOne p = (none, s.applied p) := by
  obtain ⟨type, data⟩ := p
  cases type with
  | ping => simp [handleOne, Endpoint.applied, enqueueOutbound, h.1, hroom.2 rfl]
  | message => simp [handleOne, Endpoint.applied, deliverInbound, h.1, h.2, hroom.1 rfl]
  | close => exact absurd rfl hp
  | _ => rfl

/-- A packet for which there is no room fails the request; a probe is marked all the same. -/
theorem handleOne_of_not_takes (h : s.Open) (hroom : ¬ s.Takes p) :
    ∃ r, r ≠ .ok ∧ s.handleOne p = (some r, if p.type = .ping then s.probe p.data else s) := by
  obtain ⟨type, data⟩ := p
  cases type with
  | ping =>
      have hfull : ¬ s.transport.outbox.length < chanCapacity := by simpa [Takes] using hroom
      exact ⟨.outboxFull, by simp, by simp [handleOne, enqueueOutbound, h.1, hfull]⟩
  | message =>
      have hfull : ¬ s.transport.inbox.length < chanCapacity := by simpa [Takes] using hroom
      exact ⟨.inboxFull, by simp, by simp [handleOne, deliverInbound, h.1, h.2, hfull]⟩
  | _ => exact absurd ⟨nofun, nofun⟩ hroom

/-- Room for all is room for the first and then for the rest. -/
theorem fits_cons : s.Fits (p :: packets) ↔ s.Takes p ∧ (s.applied p).Fits packets := by
  obtain ⟨type, data⟩ := p
  cases type with
  | ping => simp [Fits, Takes, Endpoint.applied]; omega
  | message => simp [Fits, Takes, Endpoint.applied]; omega
  | _ => simp [Fits, Takes, Endpoint.applied, markUpgrade]

/-- **A batch for which there is room is applied in order.** -/
theorem handleInbound_of_fits (h : s.Open) (hclose : ∀ p ∈ packets, p.type ≠ .close)
    (hfits : s.Fits packets) : s.handleInbound packets = (.ok, packets.foldl applied s) := by
  induction packets generalizing s with
  | nil => rfl
  | cons p packets ih =>
      obtain ⟨hp, hclose⟩ := List.forall_mem_cons.1 hclose
      obtain ⟨hroom, hfits⟩ := fits_cons.1 hfits
      rw [handleInbound, handleOne_of_takes h hp hroom]
      exact ih (h.applied p) hclose hfits

/-- A batch for which there is no room is rejected. -/
theorem handleInbound_of_not_fits (h : s.Open) (hclose : ∀ p ∈ packets, p.type ≠ .close)
    (hfits : ¬ s.Fits packets) : (s.handleInbound packets).1 ≠ .ok := by
  induction packets generalizing s with
  | nil => exact absurd ⟨Nat.zero_le _, Nat.zero_le _⟩ hfits
  | cons p packets ih =>
      obtain ⟨hp, hclose⟩ := List.forall_mem_cons.1 hclose
      by_cases hroom : s.Takes p
      · rw [handleInbound, handleOne_of_takes h hp hroom]
        exact ih (h.applied p) hclose fun hrest => hfits (fits_cons.2 ⟨hroom, hrest⟩)
      · obtain ⟨r, hr, hone⟩ := handleOne_of_not_takes h hroom
        rw [handleInbound, hone]
        exact hr

/-- Flags that are set. -/
def raise (a b : Bool) (ps : PollSession) : PollSession :=
  { ps with probed := ps.probed || a, upgradeOK := ps.upgradeOK || b }

/-- What packets can have made of a session: the queues are continued and flags are set. -/
def Below (s s' : Endpoint) : Prop :=
  s.transport.inbox <+: s'.transport.inbox ∧ s.transport.outbox <+: s'.transport.outbox ∧
    ∃ a b, s'.session = s.session.map (raise a b)

variable {s' s'' : Endpoint}

/-- An endpoint is below itself. -/
theorem Below.refl (s : Endpoint) : s.Below s :=
  ⟨List.prefix_rfl, List.prefix_rfl, false, false, by cases h : s.session <;> simp [raise]⟩

/-- Growing twice is growing. -/
theorem Below.trans (h : s.Below s') (h' : s'.Below s'') : s.Below s'' := by
  obtain ⟨hin, hout, a, b, hsession⟩ := h
  obtain ⟨hin', hout', a', b', hsession'⟩ := h'
  refine ⟨hin.trans hin', hout.trans hout', a || a', b || b', ?_⟩
  rw [hsession', hsession, Option.map_map]
  congr 1
  funext ps
  simp [raise, Bool.or_assoc]

/-- What was changed stays changed. -/
theorem Below.visible_eq (h : s.Below s') (h' : s'.Below s'') (heq : s''.visible = s.visible) :
    s'.visible = s.visible := by
  obtain ⟨hin, hout, a, b, hsession⟩ := h
  obtain ⟨hin', hout', a', b', hsession'⟩ := h'
  obtain ⟨heqin, heqout, heqsession⟩ : s''.transport.inbox = s.transport.inbox ∧
      s''.transport.outbox = s.transport.outbox ∧ s''.session = s.session := by
    simpa [visible] using heq
  rw [heqin] at hin'
  rw [heqout] at hout'
  have hflag : ∀ p a a' : Bool, (p || a || a') = p → (p || a) = p := by decide
  have hsame : s'.session = s.session := by
    rw [hsession'] at heqsession
    rw [hsession] at heqsession ⊢
    cases hps : s.session with
    | none => rfl
    | some ps =>
        rw [hps] at heqsession
        have hps' : raise a' b' (raise a b ps) = ps := Option.some.inj heqsession
        have hprobed := hflag _ _ _ (congrArg PollSession.probed hps')
        have hupgrade := hflag _ _ _ (congrArg PollSession.upgradeOK hps')
        simp [raise, hprobed, hupgrade]
  simp only [visible, hsame, hin'.eq_of_length_le hin.length_le,
    hout'.eq_of_length_le hout.length_le]

/-- Answering a ping only adds to the endpoint. -/
theorem below_probe (s : Endpoint) (data : Bytes) : s.Below (s.probe data) := by
  refine ⟨by rw [probe_transport], by rw [probe_transport], isProbe data, false, ?_⟩
  unfold probe
  cases hdata : isProbe data <;> cases h : s.session <;> simp [raise, markProbed, h]

/-- Applying a packet only adds to the endpoint. -/
theorem below_applied (s : Endpoint) (p : Packet) : s.Below (s.applied p) := by
  obtain ⟨type, data⟩ := p
  cases type with
  | ping =>
      obtain ⟨-, -, hsession⟩ := s.below_probe data
      exact ⟨by simp [Endpoint.applied], by simp [Endpoint.applied], hsession⟩
  | pong => exact s.below_probe data
  | message => exact ⟨List.prefix_append .., List.prefix_rfl, (Below.refl s).2.2⟩
  | upgrade =>
      refine ⟨List.prefix_rfl, List.prefix_rfl, false, true, ?_⟩
      cases h : s.session <;> simp [raise, Endpoint.applied, markUpgrade, h]
  | _ => exact .refl s

/-- Packets that are applied one after the other. -/
theorem below_foldl_applied (s : Endpoint) (packets : List Packet) :
    s.Below (packets.foldl applied s) := by
  induction packets generalizing s with
  | nil => exact .refl s
  | cons p packets ih => exact (s.below_applied p).trans (ih _)

/-- Packets without a close only add to an open endpoint. -/
theorem below_handleInbound (h : s.Open) (hclose : ∀ p ∈ packets, p.type ≠ .close) :
    s.Below (s.handleInbound packets).2 := by
  induction packets generalizing s with
  | nil => exact .refl s
  | cons p packets ih =>
      obtain ⟨hp, hclose⟩ := List.forall_mem_cons.1 hclose
      by_cases hroom : s.Takes p
      · rw [handleInbound, handleOne_of_takes h hp hroom]
        exact (s.below_applied p).trans (ih (h.applied p) hclose)
      · obtain ⟨r, -, hone⟩ := handleOne_of_not_takes h hroom
        rw [handleInbound, hone]
        dsimp only
        split_ifs
        · exact s.below_probe p.data
        · exact .refl s

/-- A packet that changes nothing one can see changes nothing. -/
theorem applied_of_not_acts (h : s.acts p = false) : s.applied p = s ∧ s.Takes p := by
  obtain ⟨type, data⟩ := p
  have hvisible : (s.applied ⟨type, data⟩).visible = s.visible := by simpa [acts] using h
  cases type with
  | ping => simp [visible, Endpoint.applied] at hvisible
  | message => simp [visible, Endpoint.applied] at hvisible
  | pong =>
      refine ⟨?_, nofun, nofun⟩
      have hsession : (s.probe data).session = s.session := congrArg (fun v => v.2.2) hvisible
      exact Endpoint.ext (s.probe_transport data) hsession
  | upgrade =>
      refine ⟨?_, nofun, nofun⟩
      have hsession : s.markUpgrade.session = s.session := congrArg (fun v => v.2.2) hvisible
      exact Endpoint.ext rfl hsession
  | _ => exact ⟨rfl, nofun, nofun⟩

/-- Packets change nothing exactly when none of them does. -/
theorem foldl_applied_eq_iff :
    packets.foldl applied s = s ↔ ∀ p ∈ packets, s.acts p = false := by
  induction packets with
  | nil => simp
  | cons p packets ih =>
      rw [List.foldl_cons, List.forall_mem_cons]
      cases hacts : s.acts p with
      | false => simpa [(applied_of_not_acts hacts).1] using ih
      | true =>
          -- what the first one has changed stays changed
          refine iff_of_false (fun heq => ?_) (by simp)
          have hkept := (s.below_applied p).visible_eq ((s.applied p).below_foldl_applied packets)
            (congrArg visible heq)
          simp [acts, hkept] at hacts

/-- **What a rejected batch has done**: nothing, exactly when the first packet that would change
something is refused and changes nothing. -/
theorem handleInbound_visible_iff (h : s.Open) (hclose : ∀ p ∈ packets, p.type ≠ .close)
    (hfits : ¬ s.Fits packets) :
    (s.handleInbound packets).2.visible = s.visible ↔
      ∃ p, packets.find? s.acts = some p ∧ s.Refuses p := by
  induction packets with
  | nil => exact absurd ⟨Nat.zero_le _, Nat.zero_le _⟩ hfits
  | cons p packets ih =>
      obtain ⟨hp, hclose⟩ := List.forall_mem_cons.1 hclose
      cases hacts : s.acts p with
      | false =>
          obtain ⟨hsame, hroom⟩ := applied_of_not_acts hacts
          have hrest : ¬ s.Fits packets := fun hrest =>
            hfits (fits_cons.2 ⟨hroom, hsame.symm ▸ hrest⟩)
          rw [handleInbound, handleOne_of_takes h hp hroom, hsame,
            List.find?_cons_of_neg (by simp [hacts])]
          exact ih hclose hrest
      | true =>
          rw [List.find?_cons_of_pos hacts]
          by_cases hroom : s.Takes p
          · -- it was applied, and what was changed stays changed
            refine iff_of_false (fun heq => ?_) ?_
            · rw [handleInbound, handleOne_of_takes h hp hroom] at heq
              have hkept := (s.below_applied p).visible_eq
                (below_handleInbound (h.applied p) hclose) heq
              simp [acts, hkept] at hacts
            · rintro ⟨q, hq, hrefuses⟩
              obtain rfl := Option.some.inj hq
              exact hrefuses.1 hroom
          · obtain ⟨r, -, hone⟩ := handleOne_of_not_takes h hroom
            rw [handleInbound, hone]
            dsimp only
            by_cases hping : p.type = .ping
            · simp [hping, Refuses, hroom, visible]
            · simp [hping, Refuses, hroom]

/-- `handleInbound` on a ping, by what becomes of its answer. -/
theorem handleInbound_ping (s : Endpoint) (data : Bytes) (rest : List Packet) :
    s.handleInbound (⟨.ping, data⟩ :: rest) =
      match (s.probe data).enqueueOutbound (wire .pong data) with
      | (.ok, s) => s.handleInbound rest
      | (.eof, s) => (.eof, s)
      | (.full, s) => (.outboxFull, s) := by
  rw [handleInbound, handleOne]
  rcases (s.probe data).enqueueOutbound (wire .pong data) with ⟨r, s'⟩
  cases r <;> rfl

/-- `servePost` comes to `handleInbound`, or has refused the body. -/
theorem servePost_stage (s : Endpoint) (body : Bytes) :
    (∃ packets, EngineIO.servePost s.transport.maxPayload body = .packets packets ∧
      s.servePost body = s.handleInbound packets) ∨
    ∃ q, EngineIO.servePost s.transport.maxPayload body = .done q ∧ s.servePost body = (q, s) := by
  rw [servePost_eq]
  unfold servePost
  dsimp only
  split_ifs
  · exact Or.inr ⟨_, rfl, rfl⟩
  · split
    · exact Or.inl ⟨_, rfl, rfl⟩
    · exact Or.inr ⟨_, rfl, rfl⟩

section servePost

variable {body : Bytes} (hmin : -9223372036854775808 ≤ s.transport.maxPayload)
  (hlt : s.transport.maxPayload < 9223372036854775807)

include hmin hlt

/-- A body over the limit is refused and changes nothing. -/
theorem servePost_of_long (hbody : s.transport.maxPayload < body.length) :
    s.servePost body = (.tooLarge, s) :=
  if_pos ((length_postBody hmin hlt body).2 hbody)

/-- A body that is no batch is refused and changes nothing. -/
theorem servePost_of_error (hbody : body.length ≤ s.transport.maxPayload) {e : PacketError}
    (hdecode : decodeBatch body = .error e) : s.servePost body = (.badBatch, s) := by
  unfold servePost
  dsimp only
  rw [postBody_eq hmin hlt hbody, if_neg (by omega), hdecode]

/-- A body that is a batch has its packets handled. -/
theorem servePost_of_ok (hbody : body.length ≤ s.transport.maxPayload)
    (hdecode : decodeBatch body = .ok packets) : s.servePost body = s.handleInbound packets := by
  unfold servePost
  dsimp only
  rw [postBody_eq hmin hlt hbody, if_neg (by omega), hdecode]

end servePost

/-- With the largest limit the empty batch is handled instead of the body. -/
theorem servePost_of_max (hmax : s.transport.maxPayload = 9223372036854775807) (body : Bytes) :
    s.servePost body = (.ok, s) := by
  unfold servePost
  dsimp only
  rw [hmax, postBody_max]
  rfl

/-- **When a POST is applied as a whole or not at all.**  For every open session and every body
without a close packet: an error leaves the inbox, the outbox and the flags as they were, and
`ok` means that every packet was applied in order, if and only if the body is refused for its
size or its form, or there is room for all of its packets, or the first packet that would change
something is refused and is no new probe.  With the largest `int64` as `MaxPayload` the body is
not read, and it holds exactly for a batch whose packets change nothing. -/
theorem rejected_post_iff (s : Endpoint) (hopen : s.Open)
    (hmin : -9223372036854775808 ≤ s.transport.maxPayload)
    (hmax : s.transport.maxPayload ≤ 9223372036854775807) (body : Bytes)
    (hclose : ∀ packets, decodeBatch body = .ok packets → ∀ p ∈ packets, p.type ≠ .close) :
    (((s.servePost body).1 ≠ .ok → (s.servePost body).2.visible = s.visible) ∧
      ((s.servePost body).1 = .ok → ∃ packets, decodeBatch body = .ok packets ∧
        (s.servePost body).2 = packets.foldl applied s)) ↔
    if s.transport.maxPayload = 9223372036854775807 then
      ∃ packets, decodeBatch body = .ok packets ∧ ∀ p ∈ packets, s.acts p = false
    else
      ∀ packets, body.length ≤ s.transport.maxPayload → decodeBatch body = .ok packets →
        s.Fits packets ∨ ∃ p, packets.find? s.acts = some p ∧ s.Refuses p := by
  by_cases hlargest : s.transport.maxPayload = 9223372036854775807
  · rw [servePost_of_max hlargest, if_pos hlargest]
    simp [eq_comm (a := s), foldl_applied_eq_iff]
  rw [if_neg hlargest]
  have hlt : s.transport.maxPayload < 9223372036854775807 := by omega
  by_cases hbody : s.transport.maxPayload < body.length
  · rw [servePost_of_long hmin hlt hbody]
    exact iff_of_true ⟨fun _ => rfl, nofun⟩ fun _ hle => absurd hbody (Int.not_lt.2 hle)
  have hbody : body.length ≤ s.transport.maxPayload := Int.not_lt.1 hbody
  cases hdecode : decodeBatch body with
  | error e =>
      rw [servePost_of_error hmin hlt hbody hdecode]
      exact iff_of_true ⟨fun _ => rfl, nofun⟩ nofun
  | ok packets =>
      have hclose := hclose packets hdecode
      rw [servePost_of_ok hmin hlt hbody hdecode]
      by_cases hfits : s.Fits packets
      · rw [handleInbound_of_fits hopen hclose hfits]
        refine iff_of_true ⟨fun h => absurd rfl h, fun _ => ⟨packets, rfl, rfl⟩⟩ ?_
        rintro packets' - heq
        obtain rfl := Except.ok.inj heq
        exact Or.inl hfits
      · have hrejected := handleInbound_of_not_fits hopen hclose hfits
        have hvisible := handleInbound_visible_iff hopen hclose hfits
        constructor
        · rintro ⟨hunchanged, -⟩ packets' - heq
          obtain rfl := Except.ok.inj heq
          exact Or.inr (hvisible.1 (hunchanged hrejected))
        · intro hcond
          rcases hcond packets hbody rfl with hroom | hrefused
          · exact absurd hroom hfits
          · exact ⟨fun _ => hvisible.2 hrefused, fun hok => absurd hok hrejected⟩

/-- A session that was just made. -/
def fresh (sid : String) (maxPayload : ℤ) : Endpoint :=
  ⟨newPollingTransport sid maxPayload, some ⟨0, false, false, false⟩⟩

/-- A message and a probe, for which there is room. -/
theorem post_applied :
    ((fresh "s" 100).servePost (joinWires [ascii "4a", ascii "2probe"])).1 = .ok ∧
      ∃ packets, decodeBatch (joinWires [ascii "4a", ascii "2probe"]) = .ok packets ∧
        ((fresh "s" 100).servePost (joinWires [ascii "4a", ascii "2probe"])).2 =
          packets.foldl applied (fresh "s" 100) := by
  have hdecode : decodeBatch (joinWires [ascii "4a", ascii "2probe"]) =
      .ok [⟨.message, ascii "a"⟩, ⟨.ping, ascii "probe"⟩] := by decide +kernel
  have hok : ((fresh "s" 100).servePost (joinWires [ascii "4a", ascii "2probe"])).1 = .ok := by
    decide +kernel
  refine ⟨hok, ((rejected_post_iff (fresh "s" 100) ⟨rfl, rfl⟩ (by decide) (by decide) _ ?_).2
    ?_).2 hok⟩
  · intro packets h
    obtain rfl := Except.ok.inj (hdecode.symm.trans h)
    decide
  · rw [if_neg (by decide)]
    intro packets _ h
    obtain rfl := Except.ok.inj (hdecode.symm.trans h)
    exact Or.inl ⟨by decide, by decide⟩

/-- **Counterexample.**  A POST with 65 messages is answered with an error, and 64 of them are in
the inbox; a probe that finds the outbox full is answered with an error, and the session is
marked. -/
theorem post_half_applied :
    ((fresh "s" 1000).servePost (joinWires (List.replicate 65 (ascii "4a")))).1 = .inboxFull ∧
    ((fresh "s" 1000).servePost (joinWires (List.replicate 65 (ascii "4a")))).2.transport.inbox =
      List.replicate 64 (ascii "a") ∧
    (Endpoint.servePost
        { fresh "s" 1000 with transport.outbox := List.replicate 64 (ascii "2") }
        (ascii "2probe")).1 = .outboxFull ∧
    (Endpoint.servePost
        { fresh "s" 1000 with transport.outbox := List.replicate 64 (ascii "2") }
        (ascii "2probe")).2.session = some ⟨0, true, false, false⟩ := by
  decide +kernel

end Endpoint

/-- What a POST to `sid` works on, in the memory of the machine. -/
def Memory.endpoint (m : Memory) (sid : String) (c : ConnRef) : Endpoint :=
  ⟨(m.conn c).polling, m.sessions sid⟩

namespace Machine

variable {m : Machine} {n : RequestRef} {sid : String} {c : ConnRef} {r : PostResult × Endpoint}

/-- Only the request `n` takes steps. -/
def Alone (n : RequestRef) (_ : Machine) (a : MachineOp) : Prop := a = .run (.request n) .go

/-- Left alone, the POST `n` returns with this result. -/
def Ends (m : Machine) (n : RequestRef) (sid : String) (c : ConnRef) (r : PostResult × Endpoint) :
    Prop :=
  ∃ m', Reachable (Guarded (Alone n) Step) m m' ∧ m'.request n = .post sid c (.done r.1) ∧
    m'.shared.endpoint sid c = r.2

/-- A finished POST ends with its answer and the endpoint as it is. -/
theorem Ends.done {q : PostResult} (hr : m.request n = .post sid c (.done q)) :
    m.Ends n sid c (q, m.shared.endpoint sid c) :=
  ⟨m, .refl m, hr, rfl⟩

/-- A POST goes on. -/
theorem Ends.step {s s' : PostStage} {e : Effect} (hr : m.request n = .post sid c s)
    (hnext : s.next m.shared n sid c = some (s', e))
    (h : Ends (m.put (.request n) (m.shared.apply e) (.post sid c s')) n sid c r) :
    m.Ends n sid c r := by
  obtain ⟨m', hm', hend⟩ := h
  refine ⟨m', hm'.head (a := .run (.request n) .go) ⟨rfl, ?_⟩, hend⟩
  simp only [Step, Machine.step, ThreadRef.next, show m.thread (.request n) = _ from hr,
    Request.next, hnext, Option.map_some]

/-- The session a POST to `sid` works on has this sid. -/
def Of (m : Machine) (sid : String) (c : ConnRef) : Prop := (m.shared.conn c).polling.sid = sid

/-- A step moves no connection to another session. -/
theorem Of.put (h : m.Of sid c) {i : ThreadRef} {l : i.Local} {e : Effect} :
    Of (m.put i (m.shared.apply e) l) sid c :=
  (Memory.apply_sid c).trans h

section alone

variable {rest : List Packet}
  (ih : ∀ {m : Machine}, m.Of sid c → m.request n = .post sid c (.packets rest) →
    m.Ends n sid c ((m.shared.endpoint sid c).handleInbound rest))

include ih

/-- The answer to a ping. -/
theorem ends_replying {data : Bytes} (hof : m.Of sid c)
    (hr : m.request n = .post sid c (.replying .check data rest)) :
    m.Ends n sid c
      (match (m.shared.endpoint sid c).enqueueOutbound (wire .pong data) with
      | (.ok, s) => s.handleInbound rest
      | (.eof, s) => (.eof, s)
      | (.full, s) => (.outboxFull, s)) := by
  cases hclosed : (m.shared.conn c).polling.closed with
  | true =>
      have hcheck : (PostStage.replying .check data rest).next m.shared n sid c =
          some (.done .eof, .nothing) := by simp [PostStage.next, EnqueueStage.next, hclosed]
      have hresult : (m.shared.endpoint sid c).enqueueOutbound (wire .pong data) =
          (.eof, m.shared.endpoint sid c) := if_pos hclosed
      rw [hresult]
      refine Ends.step hr hcheck ?_
      exact Ends.done (request_put_self ..)
  | false =>
      have hcheck : (PostStage.replying .check data rest).next m.shared n sid c =
          some (.replying .send data rest, .nothing) := by
        simp [PostStage.next, EnqueueStage.next, hclosed]
      refine Ends.step hr hcheck ?_
      by_cases hroom : (m.shared.conn c).polling.outbox.length < chanCapacity
      · have hsend : (PostStage.replying .send data rest).next m.shared n sid c =
            some (.replying .signal data rest, .conn c (.enqueue n (wire .pong data))) := by
          simp [PostStage.next, EnqueueStage.next, hroom]
        have hresult : (m.shared.endpoint sid c).enqueueOutbound (wire .pong data) =
            (.ok, ((m.shared.apply (.conn c (.enqueue n (wire .pong data)))).apply
              (.conn c .wake)).endpoint sid c) := by
          simp [Endpoint.enqueueOutbound, Memory.endpoint, hclosed, hroom, Memory.apply,
            Memory.setConn, Conn.apply]
        rw [hresult]
        refine Ends.step (request_put_self ..) hsend ?_
        refine Ends.step (request_put_self ..) rfl ?_
        exact ih hof.put.put.put (request_put_self ..)
      · have hsend : (PostStage.replying .send data rest).next m.shared n sid c =
            some (.done .outboxFull, .nothing) := by
          simp [PostStage.next, EnqueueStage.next, hroom]
        have hresult : (m.shared.endpoint sid c).enqueueOutbound (wire .pong data) =
            (.full, m.shared.endpoint sid c) := by
          simp [Endpoint.enqueueOutbound, Memory.endpoint, hclosed, hroom]
        rw [hresult]
        refine Ends.step (request_put_self ..) hsend ?_
        exact Ends.done (request_put_self ..)

/-- `deliverInbound`, from where it has found the transport open. -/
theorem ends_delivering {data : Bytes} (hof : m.Of sid c)
    (hclosed : (m.shared.conn c).polling.closed = false)
    (hr : m.request n = .post sid c (.delivering data rest)) :
    m.Ends n sid c ((m.shared.endpoint sid c).handleInbound (⟨.message, data⟩ :: rest)) := by
  rw [Endpoint.handleInbound, Endpoint.handleOne]
  cases hinbox : (m.shared.conn c).polling.inboxClosed with
  | true =>
      have hsend : (PostStage.delivering data rest).next m.shared n sid c =
          some (.done .panicked, .nothing) := by simp [PostStage.next, hinbox]
      have hresult : (m.shared.endpoint sid c).deliverInbound data =
          (some .panicked, m.shared.endpoint sid c) := by
        simp [Endpoint.deliverInbound, Memory.endpoint, hclosed, hinbox]
      rw [hresult]
      refine Ends.step hr hsend ?_
      exact Ends.done (request_put_self ..)
  | false =>
      by_cases hroom : (m.shared.conn c).polling.inbox.length < chanCapacity
      · have hsend : (PostStage.delivering data rest).next m.shared n sid c =
            some (.packets rest, .conn c (.accept data)) := by
          simp [PostStage.next, hinbox, hroom]
        have hresult : (m.shared.endpoint sid c).deliverInbound data =
            (none, (m.shared.apply (.conn c (.accept data))).endpoint sid c) := by
          simp [Endpoint.deliverInbound, Memory.endpoint, hclosed, hinbox, hroom, Memory.apply,
            Memory.setConn, Conn.apply]
        rw [hresult]
        refine Ends.step hr hsend ?_
        exact ih hof.put (request_put_self ..)
      · have hsend : (PostStage.delivering data rest).next m.shared n sid c =
            some (.done .inboxFull, .nothing) := by simp [PostStage.next, hinbox, hroom]
        have hresult : (m.shared.endpoint sid c).deliverInbound data =
            (some .inboxFull, m.shared.endpoint sid c) := by
          simp [Endpoint.deliverInbound, Memory.endpoint, hclosed, hinbox, hroom]
        rw [hresult]
        refine Ends.step hr hsend ?_
        exact Ends.done (request_put_self ..)

/-- `deliverInbound`. -/
theorem ends_message {data : Bytes} (hof : m.Of sid c)
    (hr : m.request n = .post sid c (.handling ⟨.message, data⟩ rest)) :
    m.Ends n sid c ((m.shared.endpoint sid c).handleInbound (⟨.message, data⟩ :: rest)) := by
  cases hclosed : (m.shared.conn c).polling.closed with
  | true =>
      have hcheck : (PostStage.handling ⟨.message, data⟩ rest).next m.shared n sid c =
          some (.done .eof, .nothing) := by simp [PostStage.next, hclosed]
      have hresult : (m.shared.endpoint sid c).deliverInbound data =
          (some .eof, m.shared.endpoint sid c) := if_pos hclosed
      rw [Endpoint.handleInbound, Endpoint.handleOne, hresult]
      refine Ends.step hr hcheck ?_
      exact Ends.done (request_put_self ..)
  | false =>
      have hcheck : (PostStage.handling ⟨.message, data⟩ rest).next m.shared n sid c =
          some (.delivering data rest, .nothing) := by simp [PostStage.next, hclosed]
      refine Ends.step hr hcheck ?_
      exact ends_delivering ih hof.put hclosed (request_put_self ..)

omit ih in
/-- `Close`. -/
theorem ends_close {data : Bytes} (hof : m.Of sid c)
    (hr : m.request n = .post sid c (.handling ⟨.close, data⟩ rest)) :
    m.Ends n sid c ((m.shared.endpoint sid c).handleInbound (⟨.close, data⟩ :: rest)) := by
  rw [Endpoint.handleInbound, Endpoint.handleOne]
  refine Ends.step hr rfl ?_
  cases hclosed : (m.shared.conn c).polling.closed with
  | true =>
      have hswap : (PostStage.closing .swap).next m.shared n sid c =
          some (.done .eof, .nothing) := by simp [PostStage.next, CloseStage.next, hclosed]
      have hresult : (m.shared.endpoint sid c).close = m.shared.endpoint sid c := if_pos hclosed
      rw [hresult]
      refine Ends.step (request_put_self ..) hswap ?_
      exact Ends.done (request_put_self ..)
  | false =>
      have hswap : (PostStage.closing .swap).next m.shared n sid c =
          some (.closing .closeInbox, .conn c .close) := by
        simp [PostStage.next, CloseStage.next, hclosed]
      have hsid : (((m.shared.apply (.conn c .close)).apply
          (.conn c .closeInbox)).conn c).polling.sid = sid := by
        rw [Memory.apply_sid, Memory.apply_sid]
        exact hof
      have hremove : (PostStage.closing .remove).next
          ((m.shared.apply (.conn c .close)).apply (.conn c .closeInbox)) n sid c =
            some (.done .eof, .remove sid) := by
        simp only [PostStage.next, CloseStage.next, hsid]
      have hresult : (m.shared.endpoint sid c).close =
          (((m.shared.apply (.conn c .close)).apply (.conn c .closeInbox)).apply
            (.remove sid)).endpoint sid c := by
        simp [Endpoint.close, Memory.endpoint, hclosed, Memory.apply, Memory.setConn, Conn.apply]
      rw [hresult]
      refine Ends.step (request_put_self ..) hswap ?_
      refine Ends.step (request_put_self ..) rfl ?_
      refine Ends.step (request_put_self ..) hremove ?_
      exact Ends.done (request_put_self ..)

/-- `handleOne`. -/
theorem ends_handling {p : Packet} (hof : m.Of sid c)
    (hr : m.request n = .post sid c (.handling p rest)) :
    m.Ends n sid c ((m.shared.endpoint sid c).handleInbound (p :: rest)) := by
  obtain ⟨type, data⟩ := p
  -- a probe is marked under the sid of the transport
  have hprobe : (m.shared.apply (probeEffect m.shared c data)).endpoint sid c =
      (m.shared.endpoint sid c).probe data := by
    unfold probeEffect Endpoint.probe
    split_ifs
    · rw [show (m.shared.conn c).polling.sid = sid from hof]
      simp [Memory.endpoint, Memory.apply, Memory.modifySession, Endpoint.markProbed]
    · rfl
  cases type with
  | ping =>
      refine Ends.step hr rfl ?_
      have hends := ends_replying ih hof.put (m := m.put (.request n)
        (m.shared.apply (probeEffect m.shared c data))
        (.post sid c (.replying .check data rest))) (request_put_self ..)
      rw [Pool.put_shared, hprobe] at hends
      rw [Endpoint.handleInbound_ping]
      exact hends
  | pong =>
      refine Ends.step hr rfl ?_
      have hends := ih hof.put (m := m.put (.request n)
        (m.shared.apply (probeEffect m.shared c data)) (.post sid c (.packets rest)))
        (request_put_self ..)
      rw [Pool.put_shared, hprobe] at hends
      exact hends
  | message => exact ends_message ih hof hr
  | upgrade =>
      refine Ends.step hr rfl ?_
      have hends := ih hof.put (m := m.put (.request n)
        (m.shared.apply (.markUpgrade (m.shared.conn c).polling.sid)) (.post sid c (.packets rest)))
        (request_put_self ..)
      have hmark : (m.shared.apply (.markUpgrade (m.shared.conn c).polling.sid)).endpoint sid c =
          (m.shared.endpoint sid c).markUpgrade := by
        rw [show (m.shared.conn c).polling.sid = sid from hof]
        simp [Memory.endpoint, Memory.apply, Memory.modifySession, Endpoint.markUpgrade]
      rw [Pool.put_shared, hmark] at hends
      exact hends
  | close => exact ends_close hof hr
  | _ =>
      refine Ends.step hr rfl ?_
      exact ih hof.put (request_put_self ..)

end alone

/-- **`handleInbound` is what a POST does** that is left alone. -/
theorem ends_packets (packets : List Packet) (hof : m.Of sid c)
    (hr : m.request n = .post sid c (.packets packets)) :
    m.Ends n sid c ((m.shared.endpoint sid c).handleInbound packets) := by
  induction packets generalizing m with
  | nil =>
      refine Ends.step hr rfl ?_
      exact Ends.done (request_put_self ..)
  | cons p rest ih =>
      refine Ends.step hr rfl ?_
      exact ends_handling ih hof.put (request_put_self ..)

/-- **`servePost` is what a POST does** that is left alone: from the state in which `getPolling` has
answered it, its own steps lead to its result, and leave the session as `servePost` does. -/
theorem post_alone (hof : m.Of sid c) (body : Bytes)
    (hr : m.request n = .post sid c (servePost (m.shared.conn c).polling.maxPayload body)) :
    m.Ends n sid c ((m.shared.endpoint sid c).servePost body) := by
  rcases (m.shared.endpoint sid c).servePost_stage body with ⟨packets, hstage, hresult⟩ |
    ⟨q, hstage, hresult⟩
  · rw [hresult]
    exact ends_packets packets hof (hr.trans (congrArg _ hstage))
  · rw [hresult]
    exact Ends.done (hr.trans (congrArg _ hstage))

end Machine

end EngineIO
end GoSocket
