import AppTraverse.Foundations.TransitionSystem
import AppTraverse.Wire.StreamFrame

/-!
# The write pump of an Aether peer

Everything here runs on the thread of `ChatAetherRuntime`: commands, native callbacks, and the
rounds of the outer pump.  The model has one `PeerState`.  What the native stream says of itself
is an argument of a pump round; presence, times and traces are left out.

A frame carries a ticket, which the program does not have, so that equal frames are told apart.
`accepted`, `coalesced`, `departed`, `writes` and `outstanding` record what happened to the
frames and the writes.
-/

namespace AppTraverse

open Foundations

/-- `ae::WriteAction::Status`, where it is terminal. -/
inductive WriteStatus where
  | success
  | fail
  | stop
  deriving DecidableEq, Repr

/-- `PendingOut`. -/
structure PendingOut where
  ticket : Nat
  kind : AetherFrameKind
  bytes : Bytes
  deriving DecidableEq, Repr

/-- `TerminalWriteNotice`. -/
structure TerminalWriteNotice where
  token : UInt64
  incarnation : UInt64
  status : WriteStatus
  deriving DecidableEq, Repr

/-- A call of `Write`. -/
structure IssuedWrite where
  token : UInt64
  incarnation : UInt64
  item : PendingOut
  deriving DecidableEq, Repr

/-- How a frame left the queue: it was handed to `Write`, dropped as oversize, or discarded when
the peer was closed. -/
inductive Departure where
  | handed
  | oversize
  | closed
  deriving DecidableEq, Repr

/-- What the native stream says of itself. -/
structure StreamInfo where
  recElementSize : Nat
  maxElementSize : Nat
  isWritable : Bool
  deriving DecidableEq, Repr

/-- The frame is longer than an element of the stream. -/
def PendingOut.isOversize (item : PendingOut) (info : StreamInfo) : Bool :=
  decide (info.maxElementSize ≠ 0) &&
    decide ((encodeAetherFrame item.kind item.bytes).length > info.maxElementSize)

/-- `PeerState`, as far as writes go. -/
structure PeerState where
  channelIncarnation : UInt64 := 0
  nextWriteToken : UInt64 := 1
  activeWriteToken : UInt64 := 0
  activeKind : AetherFrameKind := .application
  activePayload : Bytes := []
  terminalNotice : Option TerminalWriteNotice := none
  terminalNoticePending : Bool := false
  pendingOut : List PendingOut := []
  stream : Bool := false
  nextTicket : Nat := 0
  accepted : List PendingOut := []
  coalesced : List PendingOut := []
  departed : List (PendingOut × Departure) := []
  writes : List IssuedWrite := []
  outstanding : List IssuedWrite := []
  deriving DecidableEq, Repr

namespace PeerState

variable (peer : PeerState)

/-- `same_pending`. -/
def samePending (kind : AetherFrameKind) (bytes : Bytes) : Bool :=
  (decide (peer.activeWriteToken ≠ 0) && decide (peer.activeKind = kind) &&
      decide (peer.activePayload = bytes)) ||
    peer.pendingOut.any fun item => decide (item.kind = kind) && decide (item.bytes = bytes)

/-- `has_pending_kind`. -/
def hasPendingKind (kind : AetherFrameKind) : Bool :=
  (decide (peer.activeWriteToken ≠ 0) && decide (peer.activeKind = kind)) ||
    peer.pendingOut.any fun item => decide (item.kind = kind)

/-- `pending_out.push_back`. -/
def push (kind : AetherFrameKind) (bytes : Bytes) : PeerState :=
  { peer with
    pendingOut := peer.pendingOut ++ [⟨peer.nextTicket, kind, bytes⟩]
    nextTicket := peer.nextTicket + 1
    accepted := peer.accepted ++ [⟨peer.nextTicket, kind, bytes⟩] }

/-- `queue_pending`. -/
def queuePending (kind : AetherFrameKind) (bytes : Bytes) : PeerState :=
  if peer.samePending kind bytes then
    { peer with
      nextTicket := peer.nextTicket + 1
      coalesced := peer.coalesced ++ [⟨peer.nextTicket, kind, bytes⟩] }
  else
    peer.push kind bytes

/-- `destroy_peer_channel`.  With the stream go its writes. -/
def destroyPeerChannel : PeerState :=
  { peer with
    stream := false
    activeWriteToken := 0
    activePayload := []
    terminalNotice := none
    terminalNoticePending := false
    outstanding := [] }

/-- The pong that answers a ping: older pongs leave the queue. -/
def queuePong (pongBytes : Bytes) : PeerState :=
  if peer.samePending .heartbeatPong pongBytes then
    peer
  else
    push { peer with
      pendingOut := peer.pendingOut.filter fun item => !decide (item.kind = .heartbeatPong) }
      .heartbeatPong pongBytes

/-- `on_stream_data`. -/
def onStreamData (data : Bytes) : Except ReadPastEnd PeerState := do
  let (accepted, frame) ← decodeAetherFrame data ⟨.application, []⟩
  if accepted && decide (frame.kind = .heartbeatPing) then
    let nonce ← decodeHeartbeatNonce frame.payload
    pure (peer.queuePong (encodeHeartbeatNonce nonce))
  else
    pure peer

/-- `bind_peer_stream`: queued frames are preserved across the replacement. -/
def bindPeerStream : PeerState :=
  { peer.destroyPeerChannel with
    pendingOut := peer.pendingOut
    channelIncarnation := peer.channelIncarnation + 1
    stream := true }

/-- The command `kClosePeer`. -/
def closePeer : PeerState :=
  { peer.destroyPeerChannel with
    pendingOut := []
    channelIncarnation := peer.channelIncarnation + 1
    departed := peer.departed ++ peer.pendingOut.map fun item => (item, .closed) }

/-- `ApplyWriteStatus`. -/
def applyWriteStatus (token incarnation : UInt64) (status : WriteStatus) : PeerState :=
  if peer.channelIncarnation ≠ incarnation then
    peer
  else if peer.activeWriteToken ≠ token then
    peer
  else
    { peer with
      terminalNotice := some ⟨token, incarnation, status⟩
      terminalNoticePending := true }

/-- The write of the notice is over. -/
def finishWrite (notice : TerminalWriteNotice) : PeerState :=
  { peer with
    activeWriteToken := 0
    activePayload := []
    outstanding := peer.outstanding.filter fun write => !decide (write.token = notice.token) }

/-- `process_write_notice`. -/
def processWriteNotice : PeerState :=
  if !peer.terminalNoticePending then
    peer
  else
    match peer.terminalNotice with
    | none => { peer with terminalNoticePending := false }
    | some notice =>
        let taken := { peer with terminalNoticePending := false, terminalNotice := none }
        if notice.incarnation ≠ peer.channelIncarnation then taken
        else if peer.activeWriteToken = 0 ∨ notice.token ≠ peer.activeWriteToken then taken
        else taken.finishWrite notice

/-- `Write` of the frame at the front of the queue.  `finished` says that the native action was
finished before the callback was subscribed. -/
def write (item : PendingOut) (rest : List PendingOut) (finished : Bool) : PeerState :=
  let token := peer.nextWriteToken
  let issued : IssuedWrite := ⟨token, peer.channelIncarnation, item⟩
  { peer with
    activeKind := item.kind
    activePayload := item.bytes
    pendingOut := rest
    activeWriteToken := token
    nextWriteToken := token + 1
    terminalNotice :=
      if finished then some ⟨token, peer.channelIncarnation, .fail⟩ else peer.terminalNotice
    terminalNoticePending := finished || peer.terminalNoticePending
    departed := peer.departed ++ [(item, .handed)]
    writes := peer.writes ++ [issued]
    outstanding := peer.outstanding ++ [issued] }

/-- The loop of `try_start_write`, over what is pending. -/
def tryStartWriteLoop (info : StreamInfo) (finished : Bool) :
    PeerState → List PendingOut → PeerState
  | peer, [] => { peer with pendingOut := [] }
  | peer, item :: rest =>
      if decide (info.recElementSize = 0) || !info.isWritable then
        { peer with pendingOut := item :: rest }
      else if item.isOversize info then
        tryStartWriteLoop info finished
          { peer with departed := peer.departed ++ [(item, .oversize)] } rest
      else
        peer.write item rest finished

/-- `try_start_write`. -/
def tryStartWrite (info : StreamInfo) (finished : Bool) : PeerState :=
  if peer.activeWriteToken ≠ 0 ∨ peer.stream = false then peer
  else tryStartWriteLoop info finished peer peer.pendingOut

/-- `schedule_heartbeat_ping`. -/
def scheduleHeartbeatPing (nonce : UInt64) : PeerState :=
  if peer.stream = false then peer
  else if peer.hasPendingKind .heartbeatPing then peer
  else peer.queuePending .heartbeatPing (encodeHeartbeatNonce nonce)

/-- One round of the outer pump. -/
def pump (info : StreamInfo) (finished : Bool) : PeerState :=
  peer.processWriteNotice.tryStartWrite info finished

end PeerState

/-- What can happen to a peer. -/
inductive PeerAction where
  | send (bytes : Bytes)
  | sendControl (bytes : Bytes)
  | heartbeat (nonce : UInt64)
  | streamData (data : Bytes)
  | bindStream
  | close
  | writeStatus (token incarnation : UInt64) (status : WriteStatus)
  | pump (info : StreamInfo) (finished : Bool)
  deriving DecidableEq, Repr

/-- One step of the system. -/
def PeerState.step (peer : PeerState) : PeerAction → Option PeerState
  | .send bytes => some (peer.queuePending .application bytes)
  | .sendControl bytes => some (peer.queuePending .control bytes)
  | .heartbeat nonce => some (peer.scheduleHeartbeatPing nonce)
  | .streamData data => (peer.onStreamData data).toOption
  | .bindStream => some peer.bindPeerStream
  | .close => some peer.closePeer
  | .writeStatus token incarnation status => some (peer.applyWriteStatus token incarnation status)
  | .pump info finished => some (peer.pump info finished)

end AppTraverse
