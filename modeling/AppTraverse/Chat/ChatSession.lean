import AppTraverse.Chat.ChatRuns
import AppTraverse.Chat.JoinState
import AppTraverse.Foundations.Interruptible
import AppTraverse.Runtime.ReplicaRuns

/-!
# The model thread of a chat session

`ChatSession::ThreadMain`: the state of the worker, and the handlers that run on the model
thread one after another.  A handler is a program that may be cut off between any two of its
changes, where a crash of the process leaves what was persisted until then.

The rooms are Nodes of the Domain, and the synchronization runtime works on the same
objects: it sees a room as it is now, and what it does to a room is seen by the session.
Presence, the published status and the frames of the transport are left out.  A control
message that is sent is kept as the message that its bytes encode.
-/

namespace AppTraverse

open Foundations

/-- `ChatBootstrapKind`. -/
inductive ChatBootstrapKind where
  | joinRequest
  | joinAccepted
  | joinRejected
  deriving DecidableEq, Repr

/-- The value of an enumerator, and the enumerator of a value. -/
def ChatBootstrapKind.raw : ChatBootstrapKind → UInt8
  | .joinRequest => 1
  | .joinAccepted => 2
  | .joinRejected => 3

@[inherit_doc ChatBootstrapKind.raw]
def ChatBootstrapKind.ofRaw (kind : UInt8) : Option ChatBootstrapKind :=
  if kind = 1 then some .joinRequest
  else if kind = 2 then some .joinAccepted
  else if kind = 3 then some .joinRejected
  else none

/-- `ChatBootstrapMessage`. -/
structure ChatBootstrapMessage where
  kind : ChatBootstrapKind
  attemptId : ObjId := ObjId.empty
  roomId : ObjId := ObjId.empty
  rejectionReason : Bytes := []
  deriving DecidableEq, Repr

/-- The four values of a control message in a `BinaryArchive`. -/
structure BootstrapFields where
  kind : UInt8
  attemptId : ObjId
  roomId : ObjId
  rejectionReason : Bytes
  deriving DecidableEq, Repr

/-- What a session uses of Aether.  `formatUid` is the text that `Uid::FromString` and
`Format` make of the text of a uid; `save` and `load` are the `BinaryArchive` of a control
message, where `load` fails when something follows the four values. -/
structure ChatPlatform where
  aether : Aether Messages MessageAddedEvent
  formatUid : Bytes → Option Bytes
  save : BootstrapFields → Bytes
  load : Bytes → Option BootstrapFields
  roomIds : Nat → ObjId

/-- `kMaxControlPayloadBytes`. -/
def maxControlPayloadBytes : Nat := 1024

section Platform

variable (platform : ChatPlatform)

/-- `IsAsciiHex`. -/
def isAsciiHex (c : UInt8) : Bool :=
  (decide (48 ≤ c) && decide (c ≤ 57)) || (decide (97 ≤ c) && decide (c ≤ 102)) ||
    (decide (65 ≤ c) && decide (c ≤ 70))

/-- The positions of the dashes in the text of a uid. -/
def isDashPosition (i : Nat) : Bool := decide (i = 8 ∨ i = 13 ∨ i = 18 ∨ i = 23)

/-- The loop of `TryCanonicalizeAetherUid` over the characters from position `i` on. -/
def uidCharactersFrom (i : Nat) : Bytes → Bool
  | [] => true
  | c :: rest =>
      (if isDashPosition i then decide (c = 45) else isAsciiHex c) && uidCharactersFrom (i + 1) rest

/-- All characters that are not dashes are `'0'`. -/
def allZeroFrom (i : Nat) : Bytes → Bool
  | [] => true
  | c :: rest => (isDashPosition i || decide (c = 48)) && allZeroFrom (i + 1) rest

/-- The checks of `TryCanonicalizeAetherUid` on a trimmed text. -/
def isUidText (text : Bytes) : Bool :=
  decide (text.length = 36) && uidCharactersFrom 0 text && !allZeroFrom 0 text

/-- `TryCanonicalizeAetherUid`. -/
def tryCanonicalizeAetherUid (raw : Bytes) : Option Bytes :=
  let trimmed := trimAsciiWhitespace raw
  if !isUidText trimmed then
    none
  else
    (platform.formatUid trimmed).filter fun text => !text.isEmpty

/-- The source of a control message as it is compared with the expected host. -/
def canonicalSource (source : Bytes) : Bytes :=
  (tryCanonicalizeAetherUid platform source).getD source

/-- `EncodeChatBootstrap` succeeds. -/
def canEncode (msg : ChatBootstrapMessage) : Bool :=
  let bytes := platform.save ⟨msg.kind.raw, msg.attemptId, msg.roomId, msg.rejectionReason⟩
  !bytes.isEmpty && decide (bytes.length ≤ maxControlPayloadBytes)

/-- `DecodeChatBootstrap`. -/
def decodeChatBootstrap (bytes : Bytes) : Option ChatBootstrapMessage :=
  if bytes.isEmpty || decide (maxControlPayloadBytes < bytes.length) then
    none
  else
    match platform.load bytes with
    | none => none
    | some fields =>
        match ChatBootstrapKind.ofRaw fields.kind with
        | none => none
        | some kind =>
            if (if kind = .joinRejected then fields.rejectionReason.isEmpty
                else !fields.rejectionReason.isEmpty) then
              none
            else if kind = .joinAccepted ∧ !fields.roomId.isValid then
              none
            else if !fields.attemptId.isValid then
              none
            else
              some ⟨kind, fields.attemptId, fields.roomId, fields.rejectionReason⟩

end Platform

/-- The join send scheduler of the worker; `none` stands for no frozen bytes. -/
structure JoinScheduler where
  attemptId : ObjId := ObjId.empty
  frozen : Option ChatBootstrapMessage := none
  attemptStart : Nat := 0
  lastSend : Option Nat := none
  deriving DecidableEq, Repr

/-- An observer writes down the JoinAccepted messages that reach the client since its
attempt began. -/
structure RoomOffer where
  source : Bytes
  attemptId : ObjId
  roomId : ObjId
  deriving DecidableEq, Repr

/-- `WorkerState`.  `objects` and `others` are the rest of its storage and of its Domain. -/
structure ChatSession where
  world : ChatWorld
  runtime : ChatDemoRuntimeState
  syncRuntime : Option (SharedSyncRuntime Messages MessageAddedEvent) := none
  objects : RamDomainStorage := ∅
  others : List (ObjId × StoredObject Messages MessageAddedEvent) := []
  myUid : Bytes := []
  aetherReady : Bool := false
  identityConflict : Bool := false
  waitingEntryByEndpoint : AList fun _ : Bytes => ObjId := ∅
  joinScheduler : JoinScheduler := {}
  sent : List (Bytes × ChatBootstrapMessage) := []
  offers : List RoomOffer := []

/-- What a handler draws from its surroundings. -/
structure SessionEnv where
  command : CommandEnv
  eventIds : Nat → ObjId
  now : Nat
  step : StepEnv

/-- The ids that are left after some were used. -/
def CommandEnv.drop (env : CommandEnv) (used : Nat) : CommandEnv :=
  { env with ids := fun n => env.ids (n + used) }

/-- `kJoinRetryInterval`, in milliseconds. -/
def joinRetryInterval : Nat := 1000

/-- `kJoinAttemptDeadline`, in milliseconds. -/
def joinAttemptDeadline : Nat := 30000

namespace ChatSession

variable (session : ChatSession)

/-- The role of the replica. -/
def demoRole : DemoRole := session.world.live.workspace.fields.demoRole

/-- The join state. -/
def join : ChatDemoRuntimeFields := session.runtime.fields

/-- The open endpoint expectations. -/
def expectations : List EndpointExpectation :=
  match session.syncRuntime with
  | none => []
  | some runtime => runtime.expectedEndpointNodes

/-- Another state of the synchronization runtime, if there is one. -/
def mapSync (f : SharedSyncRuntime Messages MessageAddedEvent →
    SharedSyncRuntime Messages MessageAddedEvent) : ChatSession :=
  { session with syncRuntime := session.syncRuntime.map f }

/-- `ExpectInitialNodeFromEndpoint` of a room. -/
def expectRoom (source : Bytes) (roomId : ObjId) : ChatSession :=
  session.mapSync fun runtime =>
    expectInitialNodeFromEndpoint runtime source chatRoomClassId roomId

/-- `ForgetInitialNodeFromEndpoint`. -/
def forgetEndpoint (source : Bytes) : ChatSession :=
  session.mapSync fun runtime => forgetInitialNodeFromEndpoint runtime source

/-- The entry that waits for a room of an endpoint. -/
def setWaiting (source : Bytes) (entryId : ObjId) : ChatSession :=
  { session with
    waitingEntryByEndpoint := session.waitingEntryByEndpoint.insert source entryId }

def eraseWaiting (source : Bytes) : ChatSession :=
  { session with waitingEntryByEndpoint := session.waitingEntryByEndpoint.erase source }

/-- `clear_join_scheduler`. -/
def clearJoinScheduler : ChatSession := { session with joinScheduler := {} }

/-- `OpenPeer` and `SendControl`. -/
def sendControl (destination : Bytes) (msg : ChatBootstrapMessage) : ChatSession :=
  { session with sent := session.sent ++ [(destination, msg)] }

/-- The JoinAccepted messages of the current attempt. -/
def noteOffer (offer : RoomOffer) : ChatSession :=
  { session with offers := session.offers ++ [offer] }

def clearOffers : ChatSession := { session with offers := [] }

/-- `SetJournalCompactionBlocked(true)` on a room. -/
def blockCompaction (roomId : ObjId) : ChatSession :=
  match session.world.live.rooms.lookup roomId with
  | none => session
  | some room =>
      { session with world := { session.world with
          live := session.world.live.setRoom roomId { room with journalCompactionBlocked := true } } }

/-- The room of an entry; the empty id if it has none. -/
def roomOf (entryId : ObjId) : ObjId :=
  match session.world.live.entries.lookup entryId with
  | none => ObjId.empty
  | some entry => entry.fields.room

/-- `FindEntryById`. -/
def hasEntry (entryId : ObjId) : Bool :=
  (session.world.live.workspace.fields.chats.any fun entry =>
    entry.isValid && decide (entry = entryId)) &&
      (session.world.live.entries.lookup entryId).isSome

end ChatSession

/-- Several rooms take new values. -/
def setRooms (rooms : AList fun _ : ObjId => ChatRoom) (nodes : List ChatRoom) :
    AList fun _ : ObjId => ChatRoom :=
  nodes.foldl (fun table node => table.insert node.objId node) rooms

namespace ChatSession

variable (session : ChatSession)

/-- The storage as the synchronization runtime sees it. -/
def storage : ReplicaStorage Messages MessageAddedEvent where
  objects := session.objects
  nodes := session.world.saved.rooms.entries.map Sigma.snd

/-- Another content of the storage. -/
def setStorage (storage : ReplicaStorage Messages MessageAddedEvent) : ChatSession :=
  { session with
    objects := storage.objects
    world := { session.world with saved := { session.world.saved with
      rooms := setRooms session.world.saved.rooms storage.nodes } } }

/-- The synchronization runtime works on the rooms as they are now. -/
def replicaOf (runtime : SharedSyncRuntime Messages MessageAddedEvent) :
    Replica Messages MessageAddedEvent where
  runtime := { runtime with
    nodes := runtime.nodes.map fun node =>
      (session.world.live.rooms.lookup node.objId).getD node }
  others := session.others
  storage := session.storage

/-- The state of the synchronization runtime after a call. -/
def setRuntime (runtime : SharedSyncRuntime Messages MessageAddedEvent) : ChatSession :=
  { session with
    syncRuntime := some runtime
    world := { session.world with live := { session.world.live with
      rooms := setRooms session.world.live.rooms runtime.nodes } } }

end ChatSession

section Handlers

variable (platform : ChatPlatform)

/-- One stage of a command. -/
def runChatStage (clockUs : UInt64) (stage : ChatStage) : Program ChatSession Unit :=
  .change fun session =>
    ((session.world.runStage platform.roomIds clockUs stage).toOption).map fun world =>
      { session with world := world }

/-- The stages of a command. -/
def runChatStages (clockUs : UInt64) : List ChatStage → Program ChatSession Unit
  | [] => pure ()
  | stage :: rest => do
      runChatStage platform clockUs stage
      runChatStages clockUs rest

/-- A command, and what it answers. -/
def runPlanned {ρ : Type} (clockUs : UInt64) (planned : ChatState → Planned ρ) :
    Program ChatSession ρ := do
  let session ← .read
  let command := planned session.world.live
  runChatStages platform clockUs command.stages
  pure command.result

/-- `runtime->Commit`. -/
def commitJoin (clockUs : UInt64) (eventId : ObjId) (event : ChatDemoRuntimeEvent) :
    Program ChatSession Unit :=
  .change fun session =>
    ((commit chatDemoRuntime.nodeClass session.runtime ⟨eventId, some event⟩
      clockUs).toOption).map fun runtime => { session with runtime := runtime }

/-- `if (runtime->CanApply(event)) runtime->Commit(event)`. -/
def commitJoinIfPossible (clockUs : UInt64) (eventId : ObjId) (event : ChatDemoRuntimeEvent) :
    Program ChatSession Unit := do
  let session ← .read
  if chatDemoRuntime.canApply session.join event then
    commitJoin clockUs eventId event
  else
    pure ()

/-- `persist_workspace()`. -/
def persistWorkspace : Program ChatSession Unit :=
  .modify fun session => { session with world := session.world.persist }

/-- `arm_join_scheduler`. -/
def armJoinScheduler (now : Nat) (session : ChatSession) : ChatSession :=
  if session.demoRole ≠ .client then
    session.clearJoinScheduler
  else if session.join.joinPhase ≠ .joining ∧ session.join.joinPhase ≠ .accepted then
    session.clearJoinScheduler
  else if !session.join.joinAttemptId.isValid || session.join.expectedHostUid.isEmpty then
    session.clearJoinScheduler
  else if session.joinScheduler.attemptId = session.join.joinAttemptId ∧
      session.joinScheduler.frozen.isSome then
    session
  else
    let req : ChatBootstrapMessage :=
      { kind := .joinRequest
        attemptId := session.join.joinAttemptId
        roomId := if session.hasEntry session.join.joinEntryId then
          session.roomOf session.join.joinEntryId else ObjId.empty }
    if !canEncode platform req then
      session.clearJoinScheduler
    else
      { session with joinScheduler := ⟨session.join.joinAttemptId, some req, now, none⟩ }

/-- `drive_join_send`. -/
def driveJoinSend (env : SessionEnv) : Program ChatSession Unit := do
  let session ← .read
  if session.demoRole ≠ .client then
    pure ()
  else if session.join.joinPhase ≠ .joining ∧ session.join.joinPhase ≠ .accepted then
    .modify ChatSession.clearJoinScheduler
  else
    match session.joinScheduler.frozen with
    | none => pure ()
    | some req =>
        if !session.joinScheduler.attemptId.isValid ||
            decide (session.joinScheduler.attemptId ≠ session.join.joinAttemptId) then
          pure ()
        else if !session.aetherReady || session.myUid.isEmpty then
          pure ()
        else if joinAttemptDeadline ≤ env.now - session.joinScheduler.attemptStart then do
          let reason := if session.join.joinPhase = .accepted then
            asciiBytes "Room sync timed out" else asciiBytes "Host response timed out"
          commitJoinIfPossible env.command.clockUs (env.eventIds 0)
            (.joinHostFailed session.join.joinAttemptId reason)
          .modify fun session => session.forgetEndpoint session.join.expectedHostUid
          .modify fun session => session.eraseWaiting session.join.expectedHostUid
          .modify ChatSession.clearJoinScheduler
        else if session.joinScheduler.lastSend.any fun sentAt =>
            decide (env.now - sentAt < joinRetryInterval) then
          pure ()
        else
          .modify fun session =>
            { session.sendControl session.join.expectedHostUid req with
              joinScheduler := { session.joinScheduler with lastSend := some env.now } }

/-- The error that a JoinRejected message leaves behind. -/
def rejectionError (msg : ChatBootstrapMessage) : Bytes :=
  if msg.rejectionReason.isEmpty then asciiBytes "Join rejected" else msg.rejectionReason

/-- `handle_control` of a JoinRejected message. -/
def handleJoinRejected (env : SessionEnv) (source : Bytes) (msg : ChatBootstrapMessage) :
    Program ChatSession Unit := do
  let session ← .read
  if canonicalSource platform source ≠ session.join.expectedHostUid ∨
      msg.attemptId ≠ session.join.joinAttemptId then
    pure ()
  else
    let event : ChatDemoRuntimeEvent := .joinHostFailed msg.attemptId (rejectionError msg)
    if !chatDemoRuntime.canApply session.join event then
      pure ()
    else do
      commitJoin env.command.clockUs (env.eventIds 0) event
      .modify fun session => session.forgetEndpoint source
      .modify fun session => session.eraseWaiting source
      .modify ChatSession.clearJoinScheduler

/-- `handle_control` of a JoinAccepted message. -/
def handleJoinAccepted (env : SessionEnv) (source : Bytes) (msg : ChatBootstrapMessage) :
    Program ChatSession Unit := do
  .modify fun session => session.noteOffer ⟨source, msg.attemptId, msg.roomId⟩
  let session ← .read
  let join := session.join
  if canonicalSource platform source ≠ join.expectedHostUid ∨
      msg.attemptId ≠ join.joinAttemptId ∨ !msg.roomId.isValid then
    pure ()
  else if join.joinPhase = .joined ∧ join.boundRoomId = msg.roomId ∧
      join.joinAttemptId = msg.attemptId then
    pure ()
  else if join.joinPhase = .accepted ∧ join.acceptedRoomId = msg.roomId ∧
      join.joinAttemptId = msg.attemptId then do
    .modify fun session => session.expectRoom source msg.roomId
    .modify fun session => session.setWaiting source session.join.joinEntryId
  else if join.joinPhase = .accepted ∧ join.acceptedRoomId.isValid ∧
      join.acceptedRoomId ≠ msg.roomId then
    let event : ChatDemoRuntimeEvent := .joinHostFailed msg.attemptId
      (asciiBytes "Join conflict: host offered a different room")
    if chatDemoRuntime.canApply join event then do
      commitJoin env.command.clockUs (env.eventIds 0) event
      .modify ChatSession.clearJoinScheduler
    else
      pure ()
  else if join.joinPhase ≠ .joining then
    pure ()
  else
    let event : ChatDemoRuntimeEvent :=
      .joinHostAccepted msg.attemptId (canonicalSource platform source) msg.roomId
    if !chatDemoRuntime.canApply join event then
      pure ()
    else do
      commitJoin env.command.clockUs (env.eventIds 0) event
      let session ← .read
      let entryId := session.join.joinEntryId
      if session.hasEntry entryId ∧ (session.roomOf entryId).isValid ∧
          session.roomOf entryId = msg.roomId then
        let done : ChatDemoRuntimeEvent := .joinHostCompleted msg.attemptId msg.roomId
        if chatDemoRuntime.canApply session.join done then do
          commitJoin env.command.clockUs (env.eventIds 1) done
          .modify ChatSession.clearJoinScheduler
        else
          pure ()
      else do
        .modify fun session => session.setWaiting source session.join.joinEntryId
        .modify fun session => session.expectRoom source msg.roomId

/-- `begin_join` refuses the host uid that was typed in. -/
def failBeginJoin (env : SessionEnv) : Program ChatSession Unit := do
  let session ← .read
  commitJoinIfPossible env.command.clockUs (env.eventIds 0)
    (.joinHostFailed session.join.joinAttemptId (asciiBytes "Invalid Host UID"))
  .modify ChatSession.clearJoinScheduler

/-- A join that is under way with another host is superseded. -/
def switchHost (canonical : Bytes) (session : ChatSession) : ChatSession :=
  if (session.join.joinPhase = .joining ∨ session.join.joinPhase = .accepted) ∧
      session.join.expectedHostUid ≠ [] ∧ session.join.expectedHostUid ≠ canonical then
    ((session.forgetEndpoint session.join.expectedHostUid).eraseWaiting
      session.join.expectedHostUid).clearJoinScheduler
  else
    session

/-- `begin_join` with the host uid in canonical form. -/
def beginJoinWith (env : SessionEnv) (canonical : Bytes) : Program ChatSession Unit := do
  let entryId ← runPlanned platform env.command.clockUs fun state =>
    openOrSelectChat (env.command.drop 1) state canonical
  if !entryId.isValid then
    pure ()
  else do
    let session ← .read
    let join := session.join
    if (join.joinPhase = .joining ∨ join.joinPhase = .accepted) ∧
        join.expectedHostUid = canonical then
      .modify (armJoinScheduler platform env.now)
    else do
      .modify (switchHost canonical)
      let event : ChatDemoRuntimeEvent :=
        .joinHostRequested (env.eventIds 0) entryId canonical
      if !chatDemoRuntime.canApply join event then
        pure ()
      else do
        commitJoin env.command.clockUs (env.eventIds 0) event
        .modify ChatSession.clearOffers
        .modify (armJoinScheduler platform env.now)

/-- `begin_join`. -/
def beginJoin (env : SessionEnv) : Program ChatSession Unit := do
  let session ← .read
  if session.demoRole ≠ .client then
    pure ()
  else do
    let _ ← runPlanned platform env.command.clockUs fun state =>
      setHostUidInput env.command state state.workspace.fields.hostUidInput
    let session ← .read
    match tryCanonicalizeAetherUid platform session.world.live.workspace.fields.hostUidInput with
    | none => failBeginJoin env
    | some canonical =>
        if !session.myUid.isEmpty ∧ canonical = session.myUid then
          failBeginJoin env
        else
          beginJoinWith platform env canonical

/-- The Link of the Share that leads to an endpoint. -/
def linkTo (shares : List Share) (endpoint : Bytes) : Option (Ref Link) :=
  (shares.find? fun share =>
    share.link.isValid && decide (linkEndpointUid share.link = endpoint)).map Share.link

/-- The last part of the import callback: the join is complete. -/
def finishImport (env : SessionEnv) (sourceEndpoint : Bytes) (roomId : ObjId) :
    Program ChatSession Unit := do
  .modify fun session => session.eraseWaiting sourceEndpoint
  let session ← .read
  commitJoinIfPossible env.command.clockUs (env.eventIds 0)
    (.joinHostCompleted session.join.joinAttemptId roomId)
  .modify fun session =>
    { session with joinScheduler := { session.joinScheduler with
        attemptId := ObjId.empty
        frozen := none
        lastSend := none } }

/-- The checks of the import callback on the join state. -/
def importWanted (session : ChatSession) (sourceEndpoint : Bytes) (node : ChatRoom) : Bool :=
  decide (session.join.joinPhase = .accepted) &&
    decide (sourceEndpoint = session.join.expectedHostUid) &&
    platform.aether.derives chatRoomClassId node.classId &&
    session.join.acceptedRoomId.isValid && decide (node.objId = session.join.acceptedRoomId)

/-- The initial node imported callback. -/
def importedCallback (env : SessionEnv) (sourceEndpoint : Bytes) (node : ChatRoom) :
    Program ChatSession Bool := do
  let session ← .read
  if !importWanted platform session sourceEndpoint node then
    pure false
  else do
    .modify fun session => session.blockCompaction node.objId
    let session ← .read
    if session.waitingEntryByEndpoint.lookup sourceEndpoint ≠ some session.join.joinEntryId ∨
        !session.hasEntry session.join.joinEntryId then
      pure false
    else
      let entryId := session.join.joinEntryId
      let roomId := session.roomOf entryId
      if roomId.isValid ∧ roomId ≠ node.objId then
        pure false
      else
        match linkTo node.fields.shares sourceEndpoint with
        | none => pure false
        | some remoteLink =>
            if roomId.isValid ∧ roomId = node.objId then do
              finishImport env sourceEndpoint node.objId
              pure true
            else do
              let bound ← runPlanned platform env.command.clockUs fun state =>
                bindChat env.command state entryId remoteLink node.objId
              if !bound then
                pure false
              else do
                persistWorkspace
                finishImport env sourceEndpoint node.objId
                pure true

/-- One effect of the synchronization runtime; the answer of the callback is the one that
the runtime was given. -/
def performEffect (env : SessionEnv) :
    Effect Messages MessageAddedEvent → Program ChatSession Unit
  | .bindNode sourceEndpoint node bound => do
      let answer ← importedCallback platform env sourceEndpoint node
      .change fun session => if answer = bound then some session else none
  | effect => .modify fun session => session.setStorage (session.storage.perform effect)

/-- Several effects. -/
def performEffects (env : SessionEnv) :
    List (Effect Messages MessageAddedEvent) → Program ChatSession Unit
  | [] => pure ()
  | effect :: rest => do
      performEffect platform env effect
      performEffects env rest

/-- A call of the synchronization runtime. -/
def callSync (env : SessionEnv)
    (call : Replica Messages MessageAddedEvent → RuntimeM Messages MessageAddedEvent
      (SharedSyncRuntime Messages MessageAddedEvent)) : Program ChatSession Unit := do
  let session ← .read
  match session.syncRuntime with
  | none => pure ()
  | some runtime =>
      let outcome := call (session.replicaOf runtime)
      match outcome.result with
      | .error _ => .change fun _ => none
      | .ok after => do
          .modify fun session => session.setRuntime after
          performEffects platform env outcome.effects

/-- `FindNode` and `RegisterNode` of a room. -/
def registerRoom (session : ChatSession) (roomId : ObjId) : ChatSession :=
  match session.world.live.rooms.lookup roomId with
  | none => session
  | some room => session.mapSync fun runtime =>
      if (findNode runtime.nodes roomId).isSome then runtime
      else { runtime with nodes := runtime.nodes ++ [room] }

/-- The Share that leads to an endpoint. -/
def shareTo (shares : List Share) (endpoint : Bytes) : Option ObjId :=
  ((shares.find? fun share =>
    share.link.isValid && decide (linkEndpointUid share.link = endpoint)).map
      Share.shareId).filter ObjId.isValid

/-- `SyncInitialState` of the Share that leads to a client.  The runtime does nothing when
the state is already Complete. -/
def syncRoom (env : SessionEnv) (roomId : ObjId) (clientUid : Bytes) :
    Program ChatSession Unit := do
  let session ← .read
  match session.world.live.rooms.lookup roomId with
  | none => pure ()
  | some room =>
      match shareTo room.fields.shares clientUid with
      | none => pure ()
      | some shareId =>
          callSync platform env fun replica =>
            syncInitialState platform.aether chatRoom env.step replica.runtime roomId shareId

/-- The Share that leads to a client has a local sync state. -/
def hasSyncState (session : ChatSession) (roomId : ObjId) (clientUid : Bytes) :
    Except Fault Bool :=
  match session.world.live.rooms.lookup roomId with
  | none => .ok false
  | some room =>
      match shareTo room.fields.shares clientUid with
      | none => .ok false
      | some shareId => do
          let index ← findLinkSyncIndexForShare room.fields.linkSyncStates shareId
          pure ((room.fields.linkSyncStates[index]?).any Ref.isValid)

/-- `send_join_rejected`. -/
def sendJoinRejected (clientUid : Bytes) (attemptId : ObjId) (reason : Bytes) :
    Program ChatSession Unit :=
  let rejected : ChatBootstrapMessage :=
    { kind := .joinRejected, attemptId := attemptId, rejectionReason := reason }
  .modify fun session =>
    if clientUid.isEmpty || !canEncode platform rejected then session
    else session.sendControl clientUid rejected

/-- The JoinAccepted message, and then the room is registered. -/
def sendJoinAccepted (clientUid : Bytes) (attemptId roomId : ObjId) :
    Program ChatSession Unit := do
  let accepted : ChatBootstrapMessage :=
    { kind := .joinAccepted, attemptId := attemptId, roomId := roomId }
  .modify fun session =>
    if canEncode platform accepted then session.sendControl clientUid accepted else session
  .modify fun session => registerRoom session roomId

/-- `Create` and `InitializeRuntimeNode` of a room. -/
def createRoom (roomId baseId : ObjId) : Program ChatSession Unit :=
  .modify fun session => { session with world := { session.world with
    live := session.world.live.setRoom roomId (newChatRoom platform.roomIds roomId baseId) } }

/-- `AetherLink::kClassId`. -/
def aetherLinkClassId : ClassId := 0x30a83d97

/-- An `AetherLink` that was just created. -/
def newAetherLink (linkId : ObjId) (endpointUid : Bytes) : Ref Link :=
  ⟨linkId, some ⟨aetherLinkClassId, endpointUid, 0⟩⟩

/-- `room->AddShare`. -/
def addRoomShare (clockUs : UInt64) (roomId eventId : ObjId) (link : Ref Link) :
    Program ChatSession Unit :=
  .change fun session =>
    (session.world.live.rooms.lookup roomId).bind fun room =>
      ((addShare chatRoom platform.roomIds room link ShareAccess.readWrite eventId
        clockUs).toOption).map fun room =>
          { session with world := { session.world with
            live := session.world.live.setRoom roomId room } }

/-- `host_accept_client` for a client without a room. -/
def acceptNewClient (env : SessionEnv) (clientUid : Bytes) (req : ChatBootstrapMessage) :
    Program ChatSession Unit := do
  let entryId ← runPlanned platform env.command.clockUs fun state =>
    openOrSelectChat env.command state clientUid
  if !entryId.isValid then
    pure ()
  else do
    let fresh := (env.command.drop 4).ids
    let roomId := fresh 0
    createRoom platform roomId (fresh 1)
    .modify fun session => session.blockCompaction roomId
    let session ← .read
    let localLink := newAetherLink (fresh 2) session.myUid
    let remoteLink := newAetherLink (fresh 3) clientUid
    addRoomShare platform env.command.clockUs roomId (fresh 4) localLink
    addRoomShare platform env.command.clockUs roomId (fresh 5) remoteLink
    let bound ← runPlanned platform env.command.clockUs fun state =>
      bindChat (env.command.drop 10) state entryId remoteLink roomId
    if !bound then
      pure ()
    else do
      persistWorkspace
      sendJoinAccepted platform clientUid req.attemptId roomId
      syncRoom platform env roomId clientUid

/-- `host_accept_client`. -/
def hostAcceptClient (env : SessionEnv) (clientUid : Bytes) (req : ChatBootstrapMessage) :
    Program ChatSession Unit := do
  let session ← .read
  if session.demoRole ≠ .host then
    pure ()
  else if !session.aetherReady || session.myUid.isEmpty || session.syncRuntime.isNone then
    pure ()
  else if clientUid.isEmpty || decide (clientUid = session.myUid) then
    pure ()
  else
    let roomId := match findEntryByPeer session.world.live clientUid with
      | none => ObjId.empty
      | some entryId => session.roomOf entryId
    if !roomId.isValid then
      acceptNewClient platform env clientUid req
    else if req.roomId.isValid ∧ req.roomId ≠ roomId then
      sendJoinRejected platform clientUid req.attemptId
        (asciiBytes "Join conflict: saved room does not match host room")
    else do
      persistWorkspace
      sendJoinAccepted platform clientUid req.attemptId roomId
      let session ← .read
      match hasSyncState session roomId clientUid with
      | .error _ => .change fun _ => none
      | .ok false => pure ()
      | .ok true => syncRoom platform env roomId clientUid

/-- `handle_control`. -/
def handleControl (env : SessionEnv) (source bytes : Bytes) : Program ChatSession Unit := do
  let session ← .read
  if session.identityConflict then
    pure ()
  else
    match decodeChatBootstrap platform bytes with
    | none => pure ()
    | some msg =>
        if session.demoRole = .host ∧ msg.kind = .joinRequest then
          hostAcceptClient platform env source msg
        else if session.demoRole ≠ .client then
          pure ()
        else
          match msg.kind with
          | .joinRejected => handleJoinRejected platform env source msg
          | .joinAccepted => handleJoinAccepted platform env source msg
          | .joinRequest => pure ()

end Handlers

end AppTraverse
