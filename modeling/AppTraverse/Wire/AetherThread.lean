import AppTraverse.Foundations.Tables
import AppTraverse.Foundations.TransitionSystem
import AppTraverse.Wire.PeerLink

/-!
# The thread of `ChatAetherRuntime`

The state is that of the loop once the client is configured: the peers by the texts of their
uids, the nonce of the next ping, and the clock, which only goes forward.  The commands of a
round, the callbacks of the library and what the round does for the peers are steps of their
own, in any order.  The timers visit all peers, in the order in which the map holds them.

`isUid` says whether `ae::Uid::FromString` reads a text as a uid.
-/

namespace AppTraverse

open Foundations

/-- The state of the loop. -/
structure AetherThread where
  peers : AList fun _ : String => PeerLink := ∅
  nextNonce : UInt64 := 1
  clockMs : UInt64

/-- What can happen on the thread.  `linked` is what a new stream says of itself, `visit` the
order in which the peers are visited. -/
inductive AetherAction where
  | clock (nowMs : UInt64)
  | openPeer (peerUid : String) (linked : Bool)
  | send (peerUid : String) (bytes : Bytes) (linked : Bool)
  | sendControl (peerUid : String) (bytes : Bytes) (linked : Bool)
  | closePeer (peerUid : String)
  | newPort (peerUid : String) (linked : Bool)
  | streamData (peerUid : String) (data : Bytes)
  | streamUpdate (peerUid : String) (state : LinkState)
  | writeStatus (peerUid : String) (token incarnation : UInt64) (status : WriteStatus)
  | timers (visit : List String)
  | pump (peerUid : String) (info : StreamInfo) (finished : Bool)
  deriving DecidableEq, Repr

namespace AetherThread

variable (isUid : String → Bool) (config : EndpointConfig) (thread : AetherThread)

/-- `peers[peer_uid]`. -/
def peer (peerUid : String) : PeerLink :=
  (thread.peers.lookup peerUid).getD {}

/-- The peer is replaced, or enters the map. -/
def setPeer (peerUid : String) (link : PeerLink) : AetherThread :=
  { thread with peers := thread.peers.insert peerUid link }

/-- `bind_peer_stream`. -/
def bindPeerStream (peerUid : String) (linked : Bool) : AetherThread :=
  thread.setPeer peerUid ((thread.peer peerUid).bindPeerStream thread.clockMs linked)

/-- `open_peer_internal`. -/
def openPeerInternal (peerUid : String) (linked : Bool) : AetherThread :=
  if peerUid.isEmpty || !isUid peerUid then thread
  else if (thread.peer peerUid).pump.stream then thread
  else thread.bindPeerStream peerUid linked

/-- The commands `kSend` and `kSendControl`. -/
def sendFrame (peerUid : String) (kind : AetherFrameKind) (bytes : Bytes) (linked : Bool) :
    AetherThread :=
  let link := thread.peer peerUid
  let queued := thread.setPeer peerUid { link with pump := link.pump.queuePending kind bytes }
  if link.pump.stream then queued else queued.openPeerInternal isUid peerUid linked

/-- The timers of one peer. -/
def visitPeer (peerUid : String) : AetherThread :=
  let link := thread.peer peerUid
  { thread.setPeer peerUid (link.onTimers config thread.clockMs thread.nextNonce) with
    nextNonce :=
      if link.drawsNonce config thread.clockMs then thread.nextNonce + 1 else thread.nextNonce }

/-- The timers of the peers, one after the other. -/
def visitPeers (visit : List String) : AetherThread :=
  visit.foldl (visitPeer config) thread

/-- A callback for a peer, if it is known. -/
def onPeer (peerUid : String) (change : PeerLink → Option PeerLink) : Option AetherThread :=
  match thread.peers.lookup peerUid with
  | none => some thread
  | some link => (change link).map (thread.setPeer peerUid)

/-- One step of the thread. -/
def step : AetherAction → Option AetherThread
  | .clock nowMs => if thread.clockMs ≤ nowMs then some { thread with clockMs := nowMs } else none
  | .openPeer peerUid linked => some (thread.openPeerInternal isUid peerUid linked)
  | .send peerUid bytes linked =>
      some (thread.sendFrame isUid peerUid .application bytes linked)
  | .sendControl peerUid bytes linked =>
      some (thread.sendFrame isUid peerUid .control bytes linked)
  | .closePeer peerUid => thread.onPeer peerUid fun link => some (link.closePeer thread.clockMs)
  | .newPort peerUid linked => some (thread.bindPeerStream peerUid linked)
  | .streamData peerUid data => thread.onPeer peerUid fun link =>
      link.step config thread.clockMs (.streamData data)
  | .streamUpdate peerUid state => thread.onPeer peerUid fun link =>
      some (link.onStreamUpdate thread.clockMs state)
  | .writeStatus peerUid token incarnation status => thread.onPeer peerUid fun link =>
      link.step config thread.clockMs (.writeStatus token incarnation status)
  | .timers visit =>
      if visit.Perm thread.peers.keys then some (thread.visitPeers config visit) else none
  | .pump peerUid info finished => thread.onPeer peerUid fun link =>
      some (link.pumpRound config thread.clockMs info finished)

end AetherThread
end AppTraverse
