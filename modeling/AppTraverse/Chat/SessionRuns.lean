import AppTraverse.Chat.ChatSession

/-!
# Runs of a chat session

The events of the model thread, in any order, and crashes in the middle of any of them.
After a crash a new process starts from what was persisted, without a synchronization
runtime and with a join state that is Idle.

The loop of the model thread decides when rooms are synchronized and when a retry is due.
Here the two synchronization calls, the persisting and the ticks are events of their own.
-/

namespace AppTraverse

open Foundations

/-- An event of the model thread.  `uid`, `ready` and `retryConnection` come from the
network thread, and `frame` from the transport. -/
inductive SessionEvent where
  | command (env : SessionEnv) (chosen : ChatCommand)
  | copyHostUid (env : SessionEnv)
  | joinHost (env : SessionEnv)
  | control (env : SessionEnv) (source bytes : Bytes)
  | frame (env : SessionEnv) (source bytes : Bytes)
  | syncInitialState (env : SessionEnv) (roomId shareId : ObjId)
  | syncNextEvent (env : SessionEnv) (roomId shareId : ObjId)
  | tick (env : SessionEnv)
  | uid (env : SessionEnv) (endpointUid : Bytes)
  | ready (env : SessionEnv)
  | retryConnection
  | persist

section Programs

variable (platform : ChatPlatform)

/-- `on_copy_host_uid_`. -/
def copyHostUid (env : SessionEnv) : Program ChatSession Unit := do
  let session ← .read
  let uid := session.world.live.workspace.fields.localEndpointUid
  if session.demoRole ≠ .host ∨ uid = [] then
    pure ()
  else
    commitJoin env.command.clockUs (env.eventIds 0) (.copyHostUidRequested (env.eventIds 0) uid)

/-- `on_uid`. -/
def onUid (env : SessionEnv) (uid : Bytes) : Program ChatSession Unit := do
  .modify fun session => { session with myUid := uid }
  let session ← .read
  let persisted := session.world.live.workspace.fields.localEndpointUid
  if persisted ≠ [] ∧ persisted ≠ uid then
    .modify fun session => { session with identityConflict := true }
  else do
    let bound ← runPlanned platform env.command.clockUs fun state =>
      bindLocalEndpoint env.command state uid
    if !bound then
      .modify fun session => { session with identityConflict := true }

/-- A new `SharedSyncRuntime`. -/
def newSyncRuntime (localEndpoint : Bytes) : SharedSyncRuntime Messages MessageAddedEvent :=
  allowStandaloneEventClass platform.aether
    { localEndpoint := localEndpoint, callbackInstalled := true } messageAddedEventClassId

/-- The rooms of all entries are registered. -/
def registerEntryRooms (session : ChatSession) : ChatSession :=
  session.world.live.workspace.fields.chats.foldl (fun session entryId =>
    if entryId.isValid ∧ (session.roomOf entryId).isValid then
      registerRoom session (session.roomOf entryId)
    else
      session) session

/-- A join that is Accepted expects its room again. -/
def expectAgain (session : ChatSession) : ChatSession :=
  if session.join.joinPhase = .accepted ∧ session.join.acceptedRoomId.isValid ∧
      session.join.expectedHostUid ≠ [] then
    (session.setWaiting session.join.expectedHostUid session.join.joinEntryId).expectRoom
      session.join.expectedHostUid session.join.acceptedRoomId
  else
    session

/-- A join that is under way is sent again.  The attempt keeps its clock. -/
def resendJoin (now : Nat) (session : ChatSession) : ChatSession :=
  if session.demoRole ≠ .client ∨
      (session.join.joinPhase ≠ .joining ∧ session.join.joinPhase ≠ .accepted) then
    session
  else
    let req : ChatBootstrapMessage :=
      { kind := .joinRequest
        attemptId := session.join.joinAttemptId
        roomId := if session.hasEntry session.join.joinEntryId then
          session.roomOf session.join.joinEntryId else ObjId.empty }
    let scheduler :=
      if (session.joinScheduler.attemptId ≠ session.join.joinAttemptId ∨
          session.joinScheduler.frozen = none) ∧ canEncode platform req then
        { attemptId := session.join.joinAttemptId
          frozen := some req
          attemptStart := if session.joinScheduler.attemptStart = 0 then now
            else session.joinScheduler.attemptStart
          lastSend := none }
      else
        session.joinScheduler
    match scheduler.frozen with
    | none => { session with joinScheduler := scheduler }
    | some req =>
        { session.sendControl session.join.expectedHostUid req with
          joinScheduler := { scheduler with lastSend := some now } }

/-- `on_ready`. -/
def onReady (env : SessionEnv) : Program ChatSession Unit := do
  let session ← .read
  if session.identityConflict then
    pure ()
  else do
    .modify fun session =>
      { session with
        aetherReady := true
        syncRuntime := some (newSyncRuntime platform session.myUid) }
    .modify registerEntryRooms
    .modify expectAgain
    .modify (resendJoin platform env.now)

/-- `on_retry_connection_`: the network starts again. -/
def retryConnection : Program ChatSession Unit :=
  .modify fun session =>
    if session.identityConflict then session
    else { session with syncRuntime := none, aetherReady := false }

/-- What an event runs. -/
def SessionEvent.program : SessionEvent → Program ChatSession Unit
  | .command env chosen => do
      let session ← .read
      runChatStages platform env.command.clockUs (chosen.stages env.command session.world.live)
  | .copyHostUid env => AppTraverse.copyHostUid env
  | .joinHost env => beginJoin platform env
  | .control env source bytes => handleControl platform env source bytes
  | .frame env source bytes =>
      callSync platform env fun replica =>
        onBytes platform.aether chatRoom env.step replica source bytes
  | .syncInitialState env roomId shareId =>
      callSync platform env fun replica =>
        AppTraverse.syncInitialState platform.aether chatRoom env.step replica.runtime roomId
          shareId
  | .syncNextEvent env roomId shareId =>
      callSync platform env fun replica =>
        AppTraverse.syncNextEvent platform.aether chatRoom env.step replica.runtime roomId
          shareId
  | .tick env => driveJoinSend env
  | .uid env endpointUid => onUid platform env endpointUid
  | .ready env => onReady platform env
  | .retryConnection => AppTraverse.retryConnection
  | .persist => persistWorkspace

/-- A session on a replica that was just loaded. -/
def newSession (world : ChatWorld) (runtimeId runtimeBaseId : ObjId) : ChatSession where
  world := world
  runtime := initializeRuntimeNode chatDemoRuntime.nodeClass runtimeId chatDemoRuntimeClassId
    runtimeBaseId {}

/-- The rooms of all entries block the compaction of their journals. -/
def blockEntryRooms (session : ChatSession) : ChatSession :=
  session.world.live.workspace.fields.chats.foldl (fun session entryId =>
    if entryId.isValid ∧ (session.roomOf entryId).isValid then
      session.blockCompaction (session.roomOf entryId)
    else
      session) session

/-- The process ends, and a new one starts from what was persisted. -/
def ChatSession.relaunched (session : ChatSession) (runtimeId runtimeBaseId : ObjId) :
    ChatSession :=
  { blockEntryRooms (newSession session.world.restart runtimeId runtimeBaseId) with
    objects := session.objects
    sent := session.sent }

/-- An event runs to its end, or the process ends in the middle of it. -/
inductive SessionAction where
  | handle (event : SessionEvent)
  | crash (event : SessionEvent) (steps : Nat) (runtimeId runtimeBaseId : ObjId)

/-- One action.  A failed assertion has no next state. -/
def sessionStep (session : ChatSession) : SessionAction → Option ChatSession
  | .handle event => ((event.program platform).run session).map Prod.snd
  | .crash event steps runtimeId runtimeBaseId =>
      ((event.program platform).cutOff steps session).map fun reached =>
        reached.relaunched runtimeId runtimeBaseId

end Programs

/-- No handler draws more ids than these. -/
def maxDrawnIds : Nat := 32

/-- The ids that are drawn are valid, differ from each other, and name no entry and no room
yet. -/
structure SessionIdsFresh (session : ChatSession) (env : SessionEnv) : Prop where
  valid : ∀ n, (env.command.ids n).isValid = true
  distinct : ∀ m < maxDrawnIds, ∀ n < maxDrawnIds,
    env.command.ids m = env.command.ids n → m = n
  entries : ∀ n, session.world.live.entries.lookup (env.command.ids n) = none
  rooms : ∀ n, session.world.live.rooms.lookup (env.command.ids n) = none
  eventIds : ∀ n, (env.eventIds n).isValid = true

/-- What the surroundings of an event promise.  A session binds entries in its own handlers
only. -/
def SessionEventAllowed (session : ChatSession) : SessionEvent → Prop
  | .command env chosen => SessionIdsFresh session env ∧
      ∀ entryId link roomId, chosen ≠ .bindChat entryId link roomId
  | .copyHostUid env | .joinHost env | .control env _ _ | .frame env _ _
  | .syncInitialState env _ _ | .syncNextEvent env _ _ | .tick env | .uid env _
  | .ready env => SessionIdsFresh session env
  | .retryConnection | .persist => True

/-- What the surroundings of an action promise. -/
def SessionActionAllowed (session : ChatSession) : SessionAction → Prop
  | .handle event => SessionEventAllowed session event
  | .crash event _ _ runtimeBaseId =>
      SessionEventAllowed session event ∧ runtimeBaseId.isValid = true

/-- The first start of a replica. -/
def firstSession (workspaceId baseId runtimeId runtimeBaseId : ObjId) : ChatSession :=
  newSession (newChatWorld workspaceId baseId) runtimeId runtimeBaseId

end AppTraverse
