/-
# Everything a goroutine can do

One relation for each kind of goroutine, with one case for each of its atomic
steps: where it goes, what it does to the memory, and what it has seen there.

The modules about the handler use them in two ways.  `Machine.invariant` reduces a
property of all runs to what a new session, a new request and one such case keep; and
where the case itself does not matter but its effect does, `Machine.cause` says which
goroutine can have had the effect, and where it was.
-/

import GoSocket.EngineIO.Machine

namespace GoSocket

open Lib

namespace EngineIO

variable (m : Memory) (n : RequestRef) (sid : String) (c : ConnRef)

/-- The steps of `enqueueOutbound`. -/
inductive EnqueueStep (bytes : Bytes) : EnqueueStage → EnqueueNext → Effect → Prop where
  | eof : EnqueueStep bytes .check (.returned .eof) .nothing
  | checked : (m.conn c).polling.closed = false → EnqueueStep bytes .check (.more .send) .nothing
  | sent : EnqueueStep bytes .send (.more .signal) (.conn c (.enqueue n bytes))
  | full : EnqueueStep bytes .send (.returned .full) .nothing
  | signal : EnqueueStep bytes .signal (.returned .ok) (.conn c .wake)

/-- The steps of `pollingTransport.Close`. -/
inductive CloseStep : CloseStage → Option CloseStage → Effect → Prop where
  | again : (m.conn c).polling.closed = true → CloseStep .swap none .nothing
  | swap : (m.conn c).polling.closed = false → CloseStep .swap (some .closeInbox) (.conn c .close)
  | closeInbox : CloseStep .closeInbox (some .remove) (.conn c .closeInbox)
  | remove : CloseStep .remove none (.remove (m.conn c).polling.sid)

/-- The steps of `poll`. -/
inductive GetStep : GetStage → GetStage → Effect → Prop where
  | closed : GetStep .opened (.done .closed) .nothing
  | checked : GetStep .opened .selecting .nothing
  | take {bytes : Bytes} {rest : List Bytes} : (m.conn c).polling.outbox = bytes :: rest →
      GetStep .selecting (.collecting [bytes]) (.conn c (.dequeue n))
  | heartbeat : GetStep .selecting (.done .heartbeat) .nothing
  | awake : GetStep .selecting .woken (.conn c .awake)
  | takeWoken {bytes : Bytes} {rest : List Bytes} : (m.conn c).polling.outbox = bytes :: rest →
      GetStep .woken (.collecting [bytes]) (.conn c (.dequeue n))
  | nothing : GetStep .woken (.done .nothing) .nothing
  | collect {wires : List Bytes} {bytes : Bytes} {rest : List Bytes} :
      (m.conn c).polling.outbox = bytes :: rest →
      GetStep (.collecting wires) (.collecting (wires ++ [bytes])) (.conn c (.dequeue n))
  | batch (wires : List Bytes) : GetStep (.collecting wires) (.done (.batch wires)) .nothing

/-- The steps of `handleInbound`. -/
inductive PostStep : PostStage → PostStage → Effect → Prop where
  | ok : PostStep (.packets []) (.done .ok) .nothing
  | next (p : Packet) (rest : List Packet) :
      PostStep (.packets (p :: rest)) (.handling p rest) (.post sid p)
  | probe {p : Packet} (rest : List Packet) : p.type = .ping → isProbe p.data = true →
      PostStep (.handling p rest) (.replying .check p.data rest)
        (.markProbed (m.conn c).polling.sid)
  | ping {p : Packet} (rest : List Packet) :
      PostStep (.handling p rest) (.replying .check p.data rest) .nothing
  | probed {p : Packet} (rest : List Packet) : p.type = .pong → isProbe p.data = true →
      PostStep (.handling p rest) (.packets rest) (.markProbed (m.conn c).polling.sid)
  | refused {p : Packet} (rest : List Packet) : PostStep (.handling p rest) (.done .eof) .nothing
  | message {p : Packet} (rest : List Packet) : (m.conn c).polling.closed = false →
      PostStep (.handling p rest) (.delivering p.data rest) .nothing
  | upgrade {p : Packet} (rest : List Packet) : p.type = .upgrade →
      PostStep (.handling p rest) (.packets rest) (.markUpgrade (m.conn c).polling.sid)
  | close {p : Packet} (rest : List Packet) : PostStep (.handling p rest) (.closing .swap) .nothing
  | skip {p : Packet} (rest : List Packet) : PostStep (.handling p rest) (.packets rest) .nothing
  | replying {e e' : EnqueueStage} {data : Bytes} (rest : List Packet) {eff : Effect} :
      EnqueueStep m n c (wire .pong data) e (.more e') eff →
      PostStep (.replying e data rest) (.replying e' data rest) eff
  | replied {e : EnqueueStage} {data : Bytes} (rest : List Packet) {eff : Effect} :
      EnqueueStep m n c (wire .pong data) e (.returned .ok) eff →
      PostStep (.replying e data rest) (.packets rest) eff
  | unreplied {e : EnqueueStage} {data : Bytes} (rest : List Packet) (r : EnqueueResult)
      (r' : PostResult) {eff : Effect} :
      EnqueueStep m n c (wire .pong data) e (.returned r) eff →
      PostStep (.replying e data rest) (.done r') eff
  | accept {data : Bytes} (rest : List Packet) :
      PostStep (.delivering data rest) (.packets rest) (.conn c (.accept data))
  | undelivered {data : Bytes} (rest : List Packet) (r : PostResult) :
      PostStep (.delivering data rest) (.done r) .nothing
  | closing {e e' : CloseStage} {eff : Effect} : CloseStep m c e (some e') eff →
      PostStep (.closing e) (.closing e') eff
  | closed {e : CloseStage} {eff : Effect} : CloseStep m c e none eff →
      PostStep (.closing e) (.done .eof) eff

/-- The steps of `serveWebSocketUpgrade`. -/
inductive UpgradeStep : UpgradeStage → UpgradeStage → Effect → Prop where
  | ready : UpgradeStep .checking .handshake .nothing
  | unready : UpgradeStep .checking .failed .nothing
  | connect : UpgradeStep .handshake (.applying m.socketCount) (.connect n)
  | failed : UpgradeStep .handshake .failed .nothing
  | mark {w : SockRef} {ps : PollSession} : m.sessions sid = some ps → ps.probed = true →
      ps.upgradeOK = true → ps.upgraded = false →
      UpgradeStep (.applying w) (.swapping ps.conn w) (.mark sid w)
  | refuse (w : SockRef) : m.readyForUpgrade sid = false →
      UpgradeStep (.applying w) (.refusing w) .nothing
  | swap (d : ConnRef) (w : SockRef) :
      UpgradeStep (.swapping d w) (.flushing d w .check) (.conn d (.swap w))
  | flushing {d : ConnRef} {w : SockRef} {e e' : EnqueueStage} {eff : Effect} :
      EnqueueStep m n d (wire .noop []) e (.more e') eff →
      UpgradeStep (.flushing d w e) (.flushing d w e') eff
  | flushed {d : ConnRef} {w : SockRef} {e : EnqueueStage} (r : EnqueueResult) {eff : Effect} :
      EnqueueStep m n d (wire .noop []) e (.returned r) eff →
      UpgradeStep (.flushing d w e) (.signalling d w) eff
  | signal (d : ConnRef) (w : SockRef) :
      UpgradeStep (.signalling d w) (.upgraded d w) (.conn d .signal)
  | close (w : SockRef) : UpgradeStep (.refusing w) (.refused w) (.closeRaw w)

/-- The steps of a call through the `sessionTransport`. -/
inductive SendStep (o : Outgoing) : SendStage → SendStage → Effect → Prop where
  | polling : (m.conn c).current = .polling → SendStep o .loading .polling .nothing
  | websocket {w : SockRef} : (m.conn c).current = .websocket w →
      SendStep o .loading (.websocket w) .nothing
  | closed : SendStep o .polling (.done (o = .sendClose)) .nothing
  | checked : SendStep o .polling (.enqueuing .check) .nothing
  | enqueuing {e e' : EnqueueStage} {eff : Effect} :
      EnqueueStep m n c (wire o.packet.type o.packet.data) e (.more e') eff →
      SendStep o (.enqueuing e) (.enqueuing e') eff
  | enqueued {e : EnqueueStage} (r : EnqueueResult) {eff : Effect} :
      EnqueueStep m n c (wire o.packet.type o.packet.data) e (.returned r) eff →
      SendStep o (.enqueuing e) (.done (r = .ok)) eff
  | closedEio (w : SockRef) : SendStep o (.websocket w) (.done (o = .sendClose)) .nothing
  | checkedEio (w : SockRef) : SendStep o (.websocket w) (.sending w) .nothing
  | sent (w : SockRef) :
      SendStep o (.sending w) (.done true) (.send n c w (wire o.packet.type o.packet.data))
  | failed (w : SockRef) : SendStep o (.sending w) (.done false) .nothing

/-- The steps of the read pump; `go` is a step that does nothing to the memory. -/
inductive PumpStep : PumpStage → PumpStage → Effect → Prop where
  | polling : (m.conn c).current = .polling → PumpStep .idle .polling .nothing
  | websocket {w : SockRef} : (m.conn c).current = .websocket w →
      PumpStep .idle (.websocket w) .nothing
  | eof : (m.conn c).polling.closed = true → PumpStep .polling .stopped (.conn c .eof)
  | checked : PumpStep .polling .selecting .nothing
  | receive : PumpStep .selecting .idle (.conn c .receive)
  | drained : (m.conn c).polling.inbox = [] → (m.conn c).polling.inboxClosed = true →
      PumpStep .selecting .stopped (.conn c .eof)
  | upgraded : (m.conn c).polling.upgrade = true → PumpStep .selecting .idle (.conn c .upgraded)
  | timeout : PumpStep .selecting .idle .nothing
  | giveUp : PumpStep .selecting .stopped .nothing
  | opened (w : SockRef) : PumpStep (.websocket w) (.reading w) .nothing
  | closed (w : SockRef) : PumpStep (.websocket w) .stopped .nothing
  | frame (w : SockRef) (rest : List Packet) : PumpStep (.reading w) (.frame w rest) .nothing
  | retry (w : SockRef) : PumpStep (.reading w) .idle .nothing
  | fail (w : SockRef) : PumpStep (.reading w) .stopped .nothing
  | next (w : SockRef) : PumpStep (.frame w []) (.reading w) .nothing
  | skip (w : SockRef) (p : Packet) (rest : List Packet) :
      PumpStep (.frame w (p :: rest)) (.frame w rest) .nothing
  | message (w : SockRef) (p : Packet) (rest : List Packet) :
      PumpStep (.frame w (p :: rest)) .idle .nothing
  | ping (w : SockRef) (p : Packet) (rest : List Packet) :
      PumpStep (.frame w (p :: rest)) (.frame w rest) (.reply w (wire .pong p.data))
  | stop (w : SockRef) (p : Packet) (rest : List Packet) :
      PumpStep (.frame w (p :: rest)) .stopped .nothing
  | close {w : SockRef} (p : Packet) (rest : List Packet) : (m.socket w).closed = false →
      PumpStep (.frame w (p :: rest)) (.closing w) (.closeEio w)
  | closeRaw (w : SockRef) : PumpStep (.closing w) .stopped (.closeRaw w)

/-- The steps of `closeRaw`. -/
inductive CloserStep : CloserStage → CloserStage → Effect → Prop where
  | polling : (m.conn c).current = .polling → CloserStep .idle (.polling .swap) .nothing
  | websocket {w : SockRef} : (m.conn c).current = .websocket w →
      CloserStep .idle (.websocket w) .nothing
  | closing {e e' : CloseStage} {eff : Effect} : CloseStep m c e (some e') eff →
      CloserStep (.polling e) (.polling e') eff
  | closed {e : CloseStage} {eff : Effect} : CloseStep m c e none eff →
      CloserStep (.polling e) .done eff
  | again {w : SockRef} : (m.socket w).closed = true → CloserStep (.websocket w) .done .nothing
  | swap {w : SockRef} : (m.socket w).closed = false →
      CloserStep (.websocket w) (.raw w) (.closeEio w)
  | closeRaw (w : SockRef) : CloserStep (.raw w) .done (.closeRaw w)

variable {m n sid c} {eff : Effect} {k : Choice}

/-- Everything a step of `enqueue` can be. -/
theorem EnqueueStage.took {bytes : Bytes} {e : EnqueueStage} {r : EnqueueNext}
    (h : e.next m n c bytes = (r, eff)) : EnqueueStep m n c bytes e r eff := by
  cases e with
  | check =>
      simp only [EnqueueStage.next] at h
      split_ifs at h with hclosed <;> cases h
      · exact .eof
      · exact .checked (by simpa using hclosed)
  | send =>
      simp only [EnqueueStage.next] at h
      split_ifs at h <;> cases h
      · exact .sent
      · exact .full
  | signal =>
      cases h
      exact .signal

/-- Everything a step of `Close` on the polling side can be. -/
theorem CloseStage.took {e : CloseStage} {r : Option CloseStage} (h : e.next m c = (r, eff)) :
    CloseStep m c e r eff := by
  cases e with
  | swap =>
      simp only [CloseStage.next] at h
      split_ifs at h with hclosed <;> cases h
      · exact .again hclosed
      · exact .swap (by simpa using hclosed)
  | closeInbox =>
      cases h
      exact .closeInbox
  | remove =>
      cases h
      exact .remove

/-- Everything a step of a polling GET can be. -/
theorem GetStage.took {s s' : GetStage} (h : s.next m n c k = some (s', eff)) :
    GetStep m n c s s' eff := by
  cases s with
  | opened =>
      simp only [GetStage.next] at h
      split_ifs at h <;> cases h
      · exact .closed
      · exact .checked
  | selecting =>
      simp only [GetStage.next] at h
      split at h
      · cases h
        exact .take (by assumption)
      · cases h
        exact .heartbeat
      · split_ifs at h
        cases h
        exact .awake
      · cases h
  | woken =>
      simp only [GetStage.next] at h
      split at h <;> cases h
      · exact .takeWoken (by assumption)
      · exact .nothing
  | collecting wires =>
      simp only [GetStage.next] at h
      split at h <;> cases h
      · exact .collect (by assumption)
      · exact .batch wires
  | done r => cases h

/-- Everything a step of a polling POST can be: a packet taken up, a pong queued, a message
delivered, a step of the close that a close packet asks for, and the answer. -/
theorem PostStage.took {s s' : PostStage} (h : s.next m n sid c = some (s', eff)) :
    PostStep m n sid c s s' eff := by
  cases s with
  | packets rest =>
      cases rest with
      | nil =>
          cases h
          exact .ok
      | cons p rest =>
          cases h
          exact .next p rest
  | handling p rest =>
      simp only [PostStage.next] at h
      split at h
      next hp =>
        unfold probeEffect at h
        split_ifs at h with hdata <;> cases h
        · exact .probe rest hp hdata
        · exact .ping rest
      next hp =>
        unfold probeEffect at h
        split_ifs at h with hdata <;> cases h
        · exact .probed rest hp hdata
        · exact .skip rest
      next hp =>
        split_ifs at h with hclosed <;> cases h
        · exact .refused rest
        · exact .message rest (by simpa using hclosed)
      next hp =>
        cases h
        exact .upgrade rest hp
      next hp =>
        cases h
        exact .close rest
      next =>
        cases h
        exact .skip rest
  | replying e data rest =>
      simp only [PostStage.next] at h
      split at h <;> cases h
      next hn => exact .replying rest (EnqueueStage.took hn)
      next hn => exact .replied rest (EnqueueStage.took hn)
      next hn => exact .unreplied rest .eof .eof (EnqueueStage.took hn)
      next hn => exact .unreplied rest .full .outboxFull (EnqueueStage.took hn)
  | delivering data rest =>
      simp only [PostStage.next] at h
      split_ifs at h <;> cases h
      · exact .undelivered rest .panicked
      · exact .accept rest
      · exact .undelivered rest .inboxFull
  | closing e =>
      simp only [PostStage.next] at h
      split at h <;> cases h
      next hn => exact .closing (CloseStage.took hn)
      next hn => exact .closed (CloseStage.took hn)
  | done r => cases h

/-- Everything a step of an upgrade request can be: the check, the handshake, and the stages of
`applyUpgrade` up to its signal, or the refusal. -/
theorem UpgradeStage.took {s s' : UpgradeStage} (h : s.next m n sid k = some (s', eff)) :
    UpgradeStep m n sid s s' eff := by
  cases s with
  | checking =>
      simp only [UpgradeStage.next] at h
      split_ifs at h <;> cases h
      · exact .ready
      · exact .unready
  | handshake =>
      cases k with
      | go =>
          cases h
          exact .connect
      | fail =>
          cases h
          exact .failed
      | _ => cases h
  | applying w =>
      simp only [UpgradeStage.next] at h
      split at h
      next ps hps =>
        split_ifs at h with hready <;> cases h
        · simp only [Memory.readyForUpgrade, hps, Bool.and_eq_true, Bool.not_eq_true'] at hready
          exact .mark hps hready.1.1 hready.1.2 hready.2
        · exact .refuse w (by simpa using hready)
      next hps =>
        cases h
        exact .refuse w (by simp [Memory.readyForUpgrade, hps])
  | swapping d w =>
      cases h
      exact .swap d w
  | flushing d w e =>
      simp only [UpgradeStage.next] at h
      split at h <;> cases h
      next hn => exact .flushing (EnqueueStage.took hn)
      next hn => exact .flushed _ (EnqueueStage.took hn)
  | signalling d w =>
      cases h
      exact .signal d w
  | refusing w =>
      cases h
      exact .close w
  | failed => cases h
  | upgraded d w => cases h
  | refused w => cases h

/-- Everything a step of a send can be, on either transport. -/
theorem SendStage.took {o : Outgoing} {s s' : SendStage} (h : s.next m n c o k = some (s', eff)) :
    SendStep m n c o s s' eff := by
  cases s with
  | loading =>
      simp only [SendStage.next] at h
      split at h <;> cases h
      next hc => exact .polling hc
      next hc => exact .websocket hc
  | polling =>
      simp only [SendStage.next] at h
      split_ifs at h <;> cases h
      · exact .closed
      · exact .checked
  | enqueuing e =>
      simp only [SendStage.next] at h
      split at h <;> cases h
      next hn => exact .enqueuing (EnqueueStage.took hn)
      next hn => exact .enqueued _ (EnqueueStage.took hn)
  | websocket w =>
      simp only [SendStage.next] at h
      split_ifs at h <;> cases h
      · exact .closedEio w
      · exact .checkedEio w
  | sending w =>
      simp only [SendStage.next] at h
      split at h
      · split_ifs at h
        cases h
        exact .sent w
      · cases h
        exact .failed w
      · cases h
  | done ok => cases h

/-- Everything a step of a read pump can be: the load of the current transport, a read of the
polling transport and how it ends, a read of the WebSocket, and the packets of its frames one at
a time. -/
theorem PumpStage.took {s s' : PumpStage} (h : s.next m c k = some (s', eff)) :
    PumpStep m c s s' eff := by
  cases s with
  | idle =>
      simp only [PumpStage.next] at h
      split at h <;> cases h
      next hc => exact .polling hc
      next hc => exact .websocket hc
  | polling =>
      simp only [PumpStage.next] at h
      split_ifs at h with hclosed <;> cases h
      · exact .eof hclosed
      · exact .checked
  | selecting =>
      simp only [PumpStage.next] at h
      split at h
      · split at h
        · cases h
          exact .receive
        next hin =>
          split_ifs at h with hclosed
          cases h
          exact .drained hin hclosed
      · split_ifs at h with hup
        cases h
        exact .upgraded hup
      · cases h
        exact .timeout
      · cases h
        exact .giveUp
      · cases h
  | websocket w =>
      simp only [PumpStage.next] at h
      split_ifs at h <;> cases h
      · exact .closed w
      · exact .opened w
  | reading w =>
      simp only [PumpStage.next] at h
      split at h
      · split_ifs at h
        split at h <;> cases h
        · exact .frame w _
        · exact .fail w
      · cases h
        exact .retry w
      · cases h
        exact .fail w
      · cases h
  | frame w rest =>
      cases rest with
      | nil =>
          cases h
          exact .next w
      | cons p rest =>
          simp only [PumpStage.next] at h
          split at h
          · cases h
            exact .message w p rest
          · split at h
            · split_ifs at h
              cases h
              exact .ping w p rest
            · cases h
              exact .message w p rest
            · cases h
              exact .stop w p rest
            · cases h
          · split_ifs at h with hclosed <;> cases h
            · exact .stop w p rest
            · exact .close p rest (by simpa using hclosed)
          · cases h
            exact .skip w p rest
  | closing w =>
      cases h
      exact .closeRaw w
  | stopped => cases h

/-- Everything a step of `closeRaw` can be. -/
theorem CloserStage.took {s s' : CloserStage} (h : s.next m c = some (s', eff)) :
    CloserStep m c s s' eff := by
  cases s with
  | idle =>
      simp only [CloserStage.next] at h
      split at h <;> cases h
      next hc => exact .polling hc
      next hc => exact .websocket hc
  | polling e =>
      simp only [CloserStage.next] at h
      split at h <;> cases h
      next hn => exact .closing (CloseStage.took hn)
      next hn => exact .closed (CloseStage.took hn)
  | websocket w =>
      simp only [CloserStage.next] at h
      split_ifs at h with hclosed <;> cases h
      · exact .again hclosed
      · exact .swap (by simpa using hclosed)
  | raw w =>
      cases h
      exact .closeRaw w
  | done => cases h

variable (m) in
/-- The steps of a goroutine. -/
inductive ThreadStep : (i : ThreadRef) → i.Local → i.Local → Effect → Prop where
  | get {n : RequestRef} {c : ConnRef} {s s' : GetStage} {eff : Effect} :
      GetStep m n c s s' eff → ThreadStep (.request n) (.get c s) (.get c s') eff
  | post {n : RequestRef} {sid : String} {c : ConnRef} {s s' : PostStage} {eff : Effect} :
      PostStep m n sid c s s' eff →
      ThreadStep (.request n) (.post sid c s) (.post sid c s') eff
  | upgrade {n : RequestRef} {sid : String} {s s' : UpgradeStage} {eff : Effect} :
      UpgradeStep m n sid s s' eff →
      ThreadStep (.request n) (.upgrade sid s) (.upgrade sid s') eff
  | send {n : RequestRef} {c : ConnRef} {o : Outgoing} {s s' : SendStage} {eff : Effect} :
      SendStep m n c o s s' eff → ThreadStep (.request n) (.send c o s) (.send c o s') eff
  | pump {c : ConnRef} {s s' : PumpStage} {eff : Effect} : c < m.connCount →
      PumpStep m c s s' eff → ThreadStep (.pump c) s s' eff
  | closer {c : ConnRef} {s s' : CloserStage} {eff : Effect} : c < m.connCount →
      CloserStep m c s s' eff → ThreadStep (.closer c) s s' eff

/-- A step of a request is a step of its handler. -/
inductive RequestStep (m : Memory) (n : RequestRef) (k : Choice) :
    Request → Request → Effect → Prop where
  | get {c : ConnRef} {s s' : GetStage} {eff : Effect} :
      s.next m n c k = some (s', eff) → RequestStep m n k (.get c s) (.get c s') eff
  | post {sid : String} {c : ConnRef} {s s' : PostStage} {eff : Effect} :
      s.next m n sid c = some (s', eff) → RequestStep m n k (.post sid c s) (.post sid c s') eff
  | upgrade {sid : String} {s s' : UpgradeStage} {eff : Effect} :
      s.next m n sid k = some (s', eff) → RequestStep m n k (.upgrade sid s) (.upgrade sid s') eff
  | send {c : ConnRef} {o : Outgoing} {s s' : SendStage} {eff : Effect} :
      s.next m n c o k = some (s', eff) → RequestStep m n k (.send c o s) (.send c o s') eff

/-- Everything a step of a request can be, whichever handler it is in. -/
theorem Request.took {r r' : Request} (h : r.next m n k = some (r', eff)) :
    RequestStep m n k r r' eff := by
  cases r with
  | get c s =>
      obtain ⟨⟨s', eff⟩, hs, ⟨⟩⟩ := Option.map_eq_some_iff.1 h
      exact .get hs
  | post sid c s =>
      obtain ⟨⟨s', eff⟩, hs, ⟨⟩⟩ := Option.map_eq_some_iff.1 h
      exact .post hs
  | upgrade sid s =>
      obtain ⟨⟨s', eff⟩, hs, ⟨⟩⟩ := Option.map_eq_some_iff.1 h
      exact .upgrade hs
  | send c o s =>
      obtain ⟨⟨s', eff⟩, hs, ⟨⟩⟩ := Option.map_eq_some_iff.1 h
      exact .send hs
  | absent | unknown => cases h

/-- **Everything a goroutine can do.** -/
theorem ThreadRef.took {i : ThreadRef} {l l' : i.Local} (h : i.next m k l = some (l', eff)) :
    ThreadStep m i l l' eff := by
  cases i with
  | request n =>
      cases Request.took h with
      | get hs => exact .get (GetStage.took hs)
      | post hs => exact .post (PostStage.took hs)
      | upgrade hs => exact .upgrade (UpgradeStage.took hs)
      | send hs => exact .send (SendStage.took hs)
  | pump c =>
      obtain ⟨hc, hs⟩ := Option.ite_none_right_eq_some.1 h
      exact .pump hc (PumpStage.took hs)
  | closer c =>
      obtain ⟨hc, hs⟩ := Option.ite_none_right_eq_some.1 h
      exact .closer hc (CloserStage.took hs)

namespace Machine

section views

variable (m : Machine) (s : Memory)

/-- Where the request that stepped is. -/
@[simp] theorem request_put_self (n : RequestRef) (r : Request) :
    request (m.put (.request n) s r) n = r :=
  Pool.put_thread_self ..

/-- Where the pump that stepped is. -/
@[simp] theorem pump_put_self (c : ConnRef) (l : PumpStage) : pump (m.put (.pump c) s l) c = l :=
  Pool.put_thread_self ..

/-- Where the closer that stepped is. -/
@[simp] theorem closer_put_self (c : ConnRef) (l : CloserStage) :
    closer (m.put (.closer c) s l) c = l :=
  Pool.put_thread_self ..

variable {i : ThreadRef} (l : i.Local)

/-- A step of another goroutine leaves a request where it is. -/
theorem request_put_of_ne {n : RequestRef} (h : i ≠ .request n) :
    request (m.put i s l) n = m.request n :=
  Pool.put_thread_of_ne _ _ _ _ h.symm

/-- A step of another goroutine leaves a pump where it is. -/
theorem pump_put_of_ne {c : ConnRef} (h : i ≠ .pump c) : pump (m.put i s l) c = m.pump c :=
  Pool.put_thread_of_ne _ _ _ _ h.symm

/-- A step of another goroutine leaves a closer where it is. -/
theorem closer_put_of_ne {c : ConnRef} (h : i ≠ .closer c) :
    closer (m.put i s l) c = m.closer c :=
  Pool.put_thread_of_ne _ _ _ _ h.symm

/-- The spawned request takes the next reference. -/
@[simp] theorem spawn_request_self (r : Request) :
    (m.spawn r).request m.shared.requestCount = r :=
  request_put_self ..

/-- Spawning a request leaves the others where they are. -/
theorem spawn_request_of_ne (r : Request) {n : RequestRef} (h : n ≠ m.shared.requestCount) :
    (m.spawn r).request n = m.request n :=
  request_put_of_ne _ _ _ (by simpa using h.symm)

/-- What the new request is not, is one of the old ones. -/
theorem of_spawn {P : Request → Prop} {r : Request} {n : RequestRef} (hr : ¬ P r)
    (h : P ((m.spawn r).request n)) : P (m.request n) := by
  by_cases hn : n = m.shared.requestCount
  · subst hn
    rw [spawn_request_self] at h
    exact absurd h hr
  · rwa [spawn_request_of_ne _ _ hn] at h

/-- Spawning a request leaves the pumps where they are. -/
@[simp] theorem spawn_pump (r : Request) (c : ConnRef) : (m.spawn r).pump c = m.pump c :=
  pump_put_of_ne _ _ _ (by simp)

/-- Spawning a request leaves the closers where they are. -/
@[simp] theorem spawn_closer (r : Request) (c : ConnRef) : (m.spawn r).closer c = m.closer c :=
  closer_put_of_ne _ _ _ (by simp)

end views

variable {m m' : Machine} {a : MachineOp}

/-- The requests that can start; a client's GET or POST has the transport `getPolling` has
returned, or there is none. -/
inductive Starts (m : Machine) : Request → Prop where
  | unknown : Starts m .unknown
  | get {sid : String} {c : ConnRef} : m.shared.getPolling sid = some c →
      Starts m (.get c .opened)
  | post {sid : String} {c : ConnRef} (packets : List Packet) :
      m.shared.getPolling sid = some c → Starts m (.post sid c (.packets packets))
  | refused {sid : String} {c : ConnRef} (r : PostResult) : m.shared.getPolling sid = some c →
      Starts m (.post sid c (.done r))
  | upgrade (sid : String) : Starts m (.upgrade sid .checking)
  | send {c : ConnRef} (o : Outgoing) : c < m.shared.connCount → Starts m (.send c o .loading)

/-- The kinds of steps: a session is made, a request starts, or a goroutine goes on. -/
inductive Moved (m : Machine) (a : MachineOp) : Machine → Prop where
  | create {sid : String} : m.shared.Fresh sid →
      Moved m a { m with shared := m.shared.create sid }
  | spawn {r : Request} : m.Starts r → Moved m a (m.spawn r)
  | run {i : ThreadRef} {k : Choice} {l : i.Local} {e : Effect} : a = .run i k →
      ThreadStep m.shared i (m.thread i) l e → Moved m a (m.put i (m.shared.apply e) l)

/-- A request for a polling session starts if its handler does. -/
theorem Starts.polling {sid : String} {f : ConnRef → Request}
    (h : ∀ c, m.shared.getPolling sid = some c → m.Starts (f c)) : m.Starts (m.polling sid f) := by
  unfold Machine.polling
  cases hc : m.shared.getPolling sid with
  | none => exact .unknown
  | some c => exact h c hc

/-- A POST to a polling session starts with its body judged. -/
theorem Starts.posted {sid : String} {c : ConnRef} (hc : m.shared.getPolling sid = some c)
    (maxPayload : ℤ) (body : Bytes) : m.Starts (.post sid c (servePost maxPayload body)) := by
  unfold servePost
  dsimp only
  split_ifs
  · exact .refused _ hc
  · split
    · exact .post _ hc
    · exact .refused _ hc

/-- **Everything a step can be**, by kinds. -/
theorem Step.moved (hstep : m.Step a m') : Moved m a m' := by
  cases hstep.took with
  | create hfresh => exact .create hfresh
  | get sid => exact .spawn (.polling fun c hc => .get hc)
  | post sid body => exact .spawn (.polling fun c hc => .posted hc _ body)
  | upgrade sid => exact .spawn (.upgrade sid)
  | send o hc => exact .spawn (.send o hc)
  | run hnext => exact .run rfl (ThreadRef.took hnext)

/-- The request an operation brings, where `Starts` forgets the operation and the body of a
POST. -/
inductive Brings (m : Machine) : MachineOp → Request → Prop where
  | unknown (a : MachineOp) : Brings m a .unknown
  | get {sid : String} {c : ConnRef} : m.shared.getPolling sid = some c →
      Brings m (.get sid) (.get c .opened)
  | post {sid : String} {c : ConnRef} (body : Bytes) : m.shared.getPolling sid = some c →
      Brings m (.post sid body) (.post sid c (servePost (m.shared.conn c).polling.maxPayload body))
  | upgrade (sid : String) : Brings m (.upgrade sid) (.upgrade sid .checking)
  | send {c : ConnRef} (o : Outgoing) : c < m.shared.connCount →
      Brings m (.send c o) (.send c o .loading)

/-- An arrival at a polling session brings what its handler starts with. -/
theorem Brings.polling {sid : String} {f : ConnRef → Request}
    (h : ∀ c, m.shared.getPolling sid = some c → m.Brings a (f c)) :
    m.Brings a (m.polling sid f) := by
  unfold Machine.polling
  cases hc : m.shared.getPolling sid with
  | none => exact .unknown a
  | some c => exact h c hc

/-- What an arrival brings can start. -/
theorem Brings.starts {r : Request} (h : m.Brings a r) : m.Starts r := by
  cases h with
  | unknown => exact .unknown
  | get hc => exact .get hc
  | post body hc => exact .posted hc _ body
  | upgrade sid => exact .upgrade sid
  | send o hc => exact .send o hc

/-- **Induction over the runs that keep to a condition**, for what depends on the operation
that brings a request, or on more of a step than `ThreadStep` says. -/
theorem invariant_next {G : Machine → MachineOp → Prop} {P : Machine → Prop} {maxPayload : ℤ}
    (h : Reachable (Guarded G Step) (init maxPayload) m) (hinit : P (init maxPayload))
    (hcreate : ∀ {m : Machine}, P m → ∀ {sid}, m.shared.Fresh sid →
      P { m with shared := m.shared.create sid })
    (hspawn : ∀ {m : Machine}, P m → ∀ {a r}, m.Brings a r → G m a → P (m.spawn r))
    (hrun : ∀ {m : Machine} {i k l e}, P m → i.next m.shared k (m.thread i) = some (l, e) →
      G m (.run i k) → P (m.put i (m.shared.apply e) l)) : P m := by
  refine h.invariant hinit fun m a m' hm hstep => ?_
  obtain ⟨hG, hstep⟩ := hstep
  cases hstep.took with
  | create hfresh => exact hcreate hm hfresh
  | get sid => exact hspawn hm (.polling fun c hc => .get hc) hG
  | post sid body => exact hspawn hm (.polling fun c hc => .post body hc) hG
  | upgrade sid => exact hspawn hm (.upgrade sid) hG
  | send o hc => exact hspawn hm (.send o hc) hG
  | run hnext => exact hrun hm hnext hG

/-- **Induction over the runs that keep to a condition**: it is enough to look at a new
session, a new request and a step of a goroutine. -/
theorem invariant {G : Machine → MachineOp → Prop} {P : Machine → Prop} {maxPayload : ℤ}
    (h : Reachable (Guarded G Step) (init maxPayload) m) (hinit : P (init maxPayload))
    (hcreate : ∀ {m : Machine}, P m → ∀ {sid}, m.shared.Fresh sid →
      P { m with shared := m.shared.create sid })
    (hspawn : ∀ {m : Machine}, P m → ∀ {r}, m.Starts r → P (m.spawn r))
    (hrun : ∀ {m : Machine} {i k l e}, P m → ThreadStep m.shared i (m.thread i) l e →
      G m (.run i k) → P (m.put i (m.shared.apply e) l)) : P m :=
  invariant_next h hinit hcreate (fun hm _ _ hr _ => hspawn hm hr.starts)
    fun hm hnext hG => hrun hm (ThreadRef.took hnext) hG

/-- A request after a step: it is where it was, or it was the one to take the step. -/
theorem of_put {P : Request → Prop} {Q : (i : ThreadRef) → i.Local → i.Local → Prop}
    {i : ThreadRef} {l : i.Local} {s : Memory} {n : RequestRef} (hs : Q i (m.thread i) l)
    (h : P (request (m.put i s l) n)) :
    P (m.request n) ∨ ∃ r, i = .request n ∧ Q (.request n) (m.request n) r ∧ P r := by
  by_cases hi : i = .request n
  · subst hi
    rw [request_put_self] at h
    exact Or.inr ⟨l, rfl, hs, h⟩
  · rw [request_put_of_ne _ _ _ hi] at h
    exact Or.inl h

/-- A fact about a request after a step held before it, or the step was that request's. -/
theorem of_put_request {P : Request → Prop} {i : ThreadRef} {l : i.Local} {e : Effect} {s : Memory}
    {n : RequestRef} (hs : ThreadStep m.shared i (m.thread i) l e)
    (h : P (request (m.put i s l) n)) :
    P (m.request n) ∨
      ∃ r, i = .request n ∧ ThreadStep m.shared (.request n) (m.request n) r e ∧ P r :=
  of_put (Q := fun i l l' => ThreadStep m.shared i l l' e) hs h

/-- The same, with the step as the handler takes it. -/
theorem of_put_next {P : Request → Prop} {i : ThreadRef} {k : Choice} {l : i.Local} {e : Effect}
    {s : Memory} {n : RequestRef} (hnext : i.next m.shared k (m.thread i) = some (l, e))
    (h : P (request (m.put i s l) n)) :
    P (m.request n) ∨
      ∃ r, i = .request n ∧ RequestStep m.shared n k (m.request n) r e ∧ P r :=
  (of_put (Q := fun i l l' => i.next m.shared k l = some (l', e)) hnext h).imp_right
    fun ⟨r, hi, hr, hP⟩ => ⟨r, hi, Request.took hr, hP⟩

/-- What holds of a request, and of what its own step makes of it, holds after a step. -/
theorem put_request {P : Request → Prop} {i : ThreadRef} {l : i.Local} {e : Effect} {s : Memory}
    {n : RequestRef} (hs : ThreadStep m.shared i (m.thread i) l e) (hsame : P (m.request n))
    (hrun : ∀ r, i = .request n → ThreadStep m.shared (.request n) (m.request n) r e → P r) :
    P (request (m.put i s l) n) := by
  by_cases hi : i = .request n
  · subst hi
    rw [request_put_self]
    exact hrun l rfl hs
  · rwa [request_put_of_ne _ _ _ hi]

/-- The goroutines there are: the requests below `requestCount`, and the pumps of the
connections below `connCount`. -/
structure Spawned (m : Machine) : Prop where
  request : ∀ n, m.shared.requestCount ≤ n → m.request n = .absent
  pump : ∀ c, m.shared.connCount ≤ c → m.pump c = .idle
  closer : ∀ c, m.shared.connCount ≤ c → m.closer c = .idle

namespace Spawned

/-- No goroutine has started at first. -/
theorem init (maxPayload : ℤ) : (Machine.init maxPayload).Spawned :=
  ⟨fun _ _ => rfl, fun _ _ => rfl, fun _ _ => rfl⟩

/-- A request that has started is below `requestCount`. -/
theorem lt (h : m.Spawned) {n : RequestRef} (hn : m.request n ≠ .absent) :
    n < m.shared.requestCount :=
  Nat.lt_of_not_le fun hle => hn (h.request n hle)

/-- What no request there is does, nobody does. -/
theorem forall_not (h : m.Spawned) {P : Request → Prop} (habsent : ¬ P .absent)
    (hno : ∀ n < m.shared.requestCount, ¬ P (m.request n)) (n : RequestRef) :
    ¬ P (m.request n) := by
  intro hn
  refine hno n (h.lt fun habs => ?_) hn
  rw [habs] at hn
  exact habsent hn

/-- Spawning a request starts no pump and no closer. -/
theorem spawn (h : m.Spawned) (r : Request) : (m.spawn r).Spawned where
  request n hn := by
    rw [spawn_request_of_ne _ _ (Nat.lt_of_succ_le hn).ne']
    exact h.request n (Nat.le_of_succ_le hn)
  pump c hc := by
    rw [spawn_pump]
    exact h.pump c hc
  closer c hc := by
    rw [spawn_closer]
    exact h.closer c hc

/-- Making a connection starts no goroutine of another. -/
theorem create (h : m.Spawned) (sid : String) :
    Spawned { m with shared := m.shared.create sid } :=
  ⟨h.request, fun c hc => h.pump c (Nat.le_of_succ_le hc),
    fun c hc => h.closer c (Nat.le_of_succ_le hc)⟩

/-- Only the goroutines there are take steps. -/
theorem run (h : m.Spawned) {i : ThreadRef} {l : i.Local} {e : Effect}
    (hs : ThreadStep m.shared i (m.thread i) l e) :
    Spawned (m.put i (m.shared.apply e) l) where
  request n hn := by
    have hle : m.shared.requestCount ≤ n := by simpa using hn
    refine put_request (P := (· = .absent)) hs (h.request n hle) fun r _ hs => ?_
    rw [h.request n hle] at hs
    cases hs
  pump c hc := by
    have hle : m.shared.connCount ≤ c := by simpa using hc
    by_cases hi : i = .pump c
    · subst hi
      generalize m.thread (.pump c) = s at hs
      cases hs with
      | pump hlt => exact absurd hle (Nat.not_le_of_lt hlt)
    · rw [pump_put_of_ne _ _ _ hi]
      exact h.pump c hle
  closer c hc := by
    have hle : m.shared.connCount ≤ c := by simpa using hc
    by_cases hi : i = .closer c
    · subst hi
      generalize m.thread (.closer c) = s at hs
      cases hs with
      | closer hlt => exact absurd hle (Nat.not_le_of_lt hlt)
    · rw [closer_put_of_ne _ _ _ hi]
      exact h.closer c hle

end Spawned

/-- What the goroutine `i` was doing if its step from `m` to `m'` has had the effect. -/
def Cause (m : Machine) (i : ThreadRef) (m' : Machine) : Effect → Prop
  | .mark sid w => m.shared.readyForUpgrade sid = true ∧
      ∃ n, i = .request n ∧ m.request n = .upgrade sid (.applying w)
  | .remove _ => (∃ n sid c, i = .request n ∧ m.request n = .post sid c (.closing .remove)) ∨
      ∃ c, i = .closer c ∧ m.closer c = .polling .remove
  | .closeEio w => (∃ c, i = .pump c ∧ m'.pump c = .closing w) ∨
      ∃ c, i = .closer c ∧ m'.closer c = .raw w
  | .conn c (.accept data) => ∃ n sid rest, i = .request n ∧
      m.request n = .post sid c (.delivering data rest)
  | .conn c .receive => i = .pump c
  | .conn c .eof => i = .pump c ∧ ((m.shared.conn c).polling.closed = true ∨
      (m.shared.conn c).polling.inbox = [] ∧ (m.shared.conn c).polling.inboxClosed = true)
  | .conn c .upgraded => i = .pump c ∧ (m.shared.conn c).polling.upgrade = true
  | .conn c (.enqueue n bytes) => i = .request n ∧
      ((∃ sid data rest, m.request n = .post sid c (.replying .send data rest) ∧
          bytes = wire .pong data) ∨
        (∃ sid w, m.request n = .upgrade sid (.flushing c w .send) ∧ bytes = wire .noop []) ∨
        ∃ o, m.request n = .send c o (.enqueuing .send) ∧
          bytes = wire o.packet.type o.packet.data)
  | .conn c (.dequeue n) => i = .request n ∧ ∃ s, m.request n = .get c s
  | .conn c .signal => ∃ n sid w, i = .request n ∧ m.request n = .upgrade sid (.signalling c w)
  | .conn c .close => (m.shared.conn c).polling.closed = false ∧
      ((∃ n sid, i = .request n ∧ m.request n = .post sid c (.closing .swap) ∧
          m'.request n = .post sid c (.closing .closeInbox)) ∨
        (i = .closer c ∧ m.closer c = .polling .swap ∧ m'.closer c = .polling .closeInbox))
  | .conn c .closeInbox =>
      (∃ n sid, i = .request n ∧ m.request n = .post sid c (.closing .closeInbox)) ∨
        (i = .closer c ∧ m.closer c = .polling .closeInbox)
  | .conn c (.swap w) => ∃ n sid, i = .request n ∧ m.request n = .upgrade sid (.swapping c w)
  | _ => True

/-- **Who has an effect.** -/
theorem cause {i : ThreadRef} {l : i.Local} {e : Effect}
    (hs : ThreadStep m.shared i (m.thread i) l e) :
    Cause m i (m.put i (m.shared.apply e) l) e := by
  generalize hl : m.thread i = l₀ at hs
  cases hs with
  | get hs =>
      cases hs with
      | take | takeWoken | collect => exact ⟨rfl, _, hl⟩
      | _ => trivial
  | post hs =>
      cases hs with
      | replying _ hs =>
          cases hs with
          | checked => trivial
          | sent => exact ⟨rfl, Or.inl ⟨_, _, _, hl, rfl⟩⟩
      | replied _ hs => cases hs; trivial
      | unreplied _ _ _ hs => cases hs <;> trivial
      | accept rest => exact ⟨_, _, rest, rfl, hl⟩
      | closing hs =>
          cases hs with
          | swap hopen => exact ⟨hopen, Or.inl ⟨_, _, rfl, hl, request_put_self ..⟩⟩
          | closeInbox => exact Or.inl ⟨_, _, rfl, hl⟩
      | closed hs =>
          cases hs with
          | again => trivial
          | remove => exact Or.inl ⟨_, _, _, rfl, hl⟩
      | _ => trivial
  | upgrade hs =>
      cases hs with
      | mark hps hprobed hok hnot =>
          exact ⟨by simp [Memory.readyForUpgrade, hps, hprobed, hok, hnot], _, rfl, hl⟩
      | swap => exact ⟨_, _, rfl, hl⟩
      | flushing hs =>
          cases hs with
          | checked => trivial
          | sent => exact ⟨rfl, Or.inr (Or.inl ⟨_, _, hl, rfl⟩)⟩
      | flushed _ hs => cases hs <;> trivial
      | signal => exact ⟨_, _, _, rfl, hl⟩
      | _ => trivial
  | send hs =>
      cases hs with
      | enqueuing hs =>
          cases hs with
          | checked => trivial
          | sent => exact ⟨rfl, Or.inr (Or.inr ⟨_, hl, rfl⟩)⟩
      | enqueued _ hs => cases hs <;> trivial
      | _ => trivial
  | pump _ hs =>
      cases hs with
      | eof hclosed => exact ⟨rfl, Or.inl hclosed⟩
      | receive => rfl
      | drained hin hclosed => exact ⟨rfl, Or.inr ⟨hin, hclosed⟩⟩
      | upgraded hup => exact ⟨rfl, hup⟩
      | close => exact Or.inl ⟨_, rfl, pump_put_self ..⟩
      | _ => trivial
  | closer _ hs =>
      cases hs with
      | closing hs =>
          cases hs with
          | swap hopen => exact ⟨hopen, Or.inr ⟨rfl, hl, closer_put_self ..⟩⟩
          | closeInbox => exact Or.inr ⟨rfl, hl⟩
      | closed hs =>
          cases hs with
          | again => trivial
          | remove => exact Or.inr ⟨_, rfl, hl⟩
      | swap => exact Or.inr ⟨_, rfl, closer_put_self ..⟩
      | _ => trivial

end Machine
end EngineIO
end GoSocket
