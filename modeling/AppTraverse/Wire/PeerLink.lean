import AppTraverse.Wire.WritePump

/-!
# Presence and heartbeats of an Aether peer

The rest of `ChatAetherRuntime`'s `PeerState`: what is reported of a peer, and when it was heard
and pinged.  The writes of the peer are those of its pump.

The clock is `CurrentSteadyTimeMs` at the time of a step.  `log` records what a peer was seen to
do and the callbacks that were made for it; the callbacks are set.
-/

namespace AppTraverse

open Foundations

/-- `PeerPresence`. -/
inductive PeerPresence where
  | unknown
  | connecting
  | online
  | offline
  deriving DecidableEq, Repr

/-- `ae::LinkState`, as far as the runtime tells its values apart. -/
inductive LinkState where
  | unlinked
  | linked
  | linkError
  | other
  deriving DecidableEq, Repr

/-- The times of `IAetherFrameEndpoint::Config`. -/
structure EndpointConfig where
  heartbeatPeriodMs : UInt64 := 2000
  offlineAfterMs : UInt64 := 7000
  deriving DecidableEq, Repr

/-- The check of `Start`. -/
def EndpointConfig.isAccepted (config : EndpointConfig) : Bool :=
  !(decide (config.heartbeatPeriodMs < 250) ||
    decide (config.offlineAfterMs < config.heartbeatPeriodMs * 2))

/-- What happened to a peer: a stream was bound, the peer was closed, a frame of it was decoded,
a ping was queued, or a callback was made. -/
inductive PeerEffect where
  | bound (nowMs : UInt64)
  | closed
  | heard (kind : AetherFrameKind) (nowMs : UInt64)
  | pinged (nowMs : UInt64)
  | presence (reported : PeerPresence) (nowMs : UInt64)
  | frame (payload : Bytes)
  | control (payload : Bytes)
  deriving DecidableEq, Repr

/-- `PeerState`. -/
structure PeerLink where
  pump : PeerState := {}
  streamLinked : Bool := false
  lastRxMs : UInt64 := 0
  lastHeartbeatTxMs : UInt64 := 0
  lastHeartbeatRxMs : UInt64 := 0
  reportedPresence : PeerPresence := .unknown
  log : List PeerEffect := []
  deriving DecidableEq, Repr

/-- The notice that is pending is that of the active write, and the write failed. -/
def PeerState.noticeFails (peer : PeerState) : Bool :=
  peer.terminalNoticePending && peer.terminalNotice.any fun notice =>
    decide (notice.incarnation = peer.channelIncarnation) &&
      decide (peer.activeWriteToken ≠ 0) && decide (notice.token = peer.activeWriteToken) &&
      decide (notice.status = .fail)

namespace PeerLink

variable (config : EndpointConfig) (nowMs : UInt64) (link : PeerLink)

/-- Something happened. -/
def emit (effect : PeerEffect) : PeerLink :=
  { link with log := link.log ++ [effect] }

/-- `set_presence`. -/
def setPresence (reported : PeerPresence) : PeerLink :=
  if link.reportedPresence ≠ reported then
    { link with reportedPresence := reported }.emit (.presence reported nowMs)
  else
    link

/-- A peer that has a stream is connecting, unless it is known to be online. -/
def connect : PeerLink :=
  if link.reportedPresence ≠ .online then link.setPresence nowMs .connecting else link

/-- A peer that has no link is connecting, if it was online. -/
def disconnect : PeerLink :=
  if link.reportedPresence = .online then link.setPresence nowMs .connecting else link

/-- The time of the first stream stands in for that of a frame. -/
def startRx : PeerLink :=
  if link.lastRxMs = 0 then { link with lastRxMs := nowMs } else link

/-- `last_active`. -/
def lastActive : UInt64 :=
  max link.lastHeartbeatRxMs link.lastRxMs

/-- The peer has not been active for so long that it counts as offline. -/
def isSilent : Bool :=
  decide (nowMs - link.lastActive ≥ config.offlineAfterMs)

/-- A frame of the kind was decoded. -/
def hear (kind : AetherFrameKind) : PeerLink :=
  { link with lastRxMs := nowMs }.emit (.heard kind nowMs)

/-- `on_stream_data`. -/
def onStreamData (data : Bytes) : Except ReadPastEnd PeerLink := do
  let (accepted, frame) ← decodeAetherFrame data ⟨.application, []⟩
  if accepted then
    let heard := link.hear nowMs frame.kind
    match frame.kind with
    | .heartbeatPing =>
        let answered := { heard with lastHeartbeatRxMs := nowMs }.setPresence nowMs .online
        let nonce ← decodeHeartbeatNonce frame.payload
        pure { answered with pump := answered.pump.queuePong (encodeHeartbeatNonce nonce) }
    | .heartbeatPong =>
        pure ({ heard with lastHeartbeatRxMs := nowMs }.setPresence nowMs .online)
    | .application => pure ((heard.setPresence nowMs .online).emit (.frame frame.payload))
    | .control => pure (heard.emit (.control frame.payload))
  else
    pure link

/-- `on_stream_update`: a link alone is never taken for Online. -/
def onStreamUpdate (state : LinkState) : PeerLink :=
  if link.pump.stream then
    match state with
    | .linked => { link with streamLinked := true }.connect nowMs
    | .linkError | .unlinked => { link with streamLinked := false }.disconnect nowMs
    | .other => link
  else
    link

/-- `bind_peer_stream`.  `linked` is what the new stream says of itself. -/
def bindPeerStream (linked : Bool) : PeerLink :=
  let fresh := { link with
    pump := link.pump.bindPeerStream
    streamLinked := linked }.emit (.bound nowMs)
  (fresh.connect nowMs).startRx nowMs

/-- The command `kClosePeer`. -/
def closePeer : PeerLink :=
  ({ link with
    pump := link.pump.closePeer
    streamLinked := false }.emit .closed).setPresence nowMs .offline

/-- `process_write_notice`: a write that failed takes the peer off the net. -/
def processWriteNotice : PeerLink :=
  let taken := { link with pump := link.pump.processWriteNotice }
  if link.pump.noticeFails then
    { taken with streamLinked := false }.setPresence nowMs
      (if taken.isSilent config nowMs then .offline else .connecting)
  else
    taken

/-- What the outer pump does for a peer. -/
def pumpRound (info : StreamInfo) (finished : Bool) : PeerLink :=
  let taken := link.processWriteNotice config nowMs
  { taken with pump := taken.pump.tryStartWrite info finished }

/-- A ping is due. -/
def pingIsDue : Bool :=
  link.pump.stream && (decide (link.lastHeartbeatTxMs = 0) ||
    decide (nowMs - link.lastHeartbeatTxMs ≥ config.heartbeatPeriodMs))

/-- A ping is due, and no other one waits: a nonce is drawn for it. -/
def drawsNonce : Bool :=
  link.pingIsDue config nowMs && !link.pump.hasPendingKind .heartbeatPing

/-- The periodic ping. -/
def sendHeartbeat (nonce : UInt64) : PeerLink :=
  if link.pingIsDue config nowMs then
    let sent := { link with
      pump := link.pump.scheduleHeartbeatPing nonce
      lastHeartbeatTxMs := nowMs }
    if link.drawsNonce config nowMs then sent.emit (.pinged nowMs) else sent
  else
    link

/-- A peer that was silent for too long is offline. -/
def checkSilence : PeerLink :=
  if link.reportedPresence = .connecting ∨ link.reportedPresence = .online then
    if link.lastActive ≠ 0 ∧ link.isSilent config nowMs = true then
      link.setPresence nowMs .offline
    else
      link
  else
    link

/-- What the timers do for a peer. -/
def onTimers (nonce : UInt64) : PeerLink :=
  (link.sendHeartbeat config nowMs nonce).checkSilence config nowMs

end PeerLink

/-- What can happen to a peer. -/
inductive LinkAction where
  | send (bytes : Bytes)
  | sendControl (bytes : Bytes)
  | bindStream (linked : Bool)
  | close
  | streamData (data : Bytes)
  | streamUpdate (state : LinkState)
  | writeStatus (token incarnation : UInt64) (status : WriteStatus)
  | timers (nonce : UInt64)
  | pump (info : StreamInfo) (finished : Bool)
  deriving DecidableEq, Repr

/-- One step of a peer.  Data comes only from a stream that is bound. -/
def PeerLink.step (config : EndpointConfig) (nowMs : UInt64) (link : PeerLink) :
    LinkAction → Option PeerLink
  | .send bytes => some { link with pump := link.pump.queuePending .application bytes }
  | .sendControl bytes => some { link with pump := link.pump.queuePending .control bytes }
  | .bindStream linked => some (link.bindPeerStream nowMs linked)
  | .close => some (link.closePeer nowMs)
  | .streamData data =>
      if link.pump.stream then (link.onStreamData nowMs data).toOption else none
  | .streamUpdate state => some (link.onStreamUpdate nowMs state)
  | .writeStatus token incarnation status =>
      some { link with pump := link.pump.applyWriteStatus token incarnation status }
  | .timers nonce => some (link.onTimers config nowMs nonce)
  | .pump info finished => some (link.pumpRound config nowMs info finished)

end AppTraverse
