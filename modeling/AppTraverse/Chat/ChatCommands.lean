import Mathlib.Data.List.AList
import AppTraverse.Chat.ChatModel

/-!
# The commands of the chat example

A command looks at the state it starts in, and then commits and persists in a fixed order.
The order is kept as a list of stages, so that a crash can come between any two of them.
`persist` is `workspace.Save()`, which writes the whole reachable graph.

The history is not part of the program: it records which sequence numbers were reserved,
which reservations were persisted, and which messages a replica placed in its rooms.
-/

namespace AppTraverse

/-- The Nodes of a replica. -/
structure ChatState where
  workspace : ChatWorkspace
  entries : AList fun _ : ObjId => ChatEntry
  rooms : AList fun _ : ObjId => ChatRoom
  deriving DecidableEq

/-- What an observer writes down. -/
structure ChatHistory where
  reserved : List UInt64 := []
  unsaved : List UInt64 := []
  durable : List UInt64 := []
  authored : List MessageValue := []
  deriving DecidableEq, Repr

/-- A replica, and what it last persisted. -/
structure ChatWorld where
  live : ChatState
  saved : ChatState
  history : ChatHistory := {}
  deriving DecidableEq

/-- What a command does between two points at which the program may stop. -/
inductive ChatStage where
  | createEntry (entryId baseId : ObjId) (fields : ChatEntryFields)
  | commitWorkspace (eventId : ObjId) (event : ChatWorkspaceEvent)
  | commitEntry (entryId eventId : ObjId) (event : ChatEntryEvent)
  | commitMessage (roomId eventId : ObjId) (message : MessageValue)
  | persist
  deriving DecidableEq, Repr

/-- `SystemUtcMicros` during a command, and the ids that its objects get. -/
structure CommandEnv where
  clockUs : UInt64
  ids : Nat → ObjId

section Stages

variable (roomIds : Nat → ObjId)

/-- `ChatRoom::CommitShared` of a message, with its own identity and timestamp. -/
def commitMessage (clockUs : UInt64) (room : ChatRoom) (eventId : ObjId)
    (message : MessageValue) : Except Fault ChatRoom :=
  commitShared (chatRoom.nodeClass roomIds) room ⟨eventId, some (.app ⟨message⟩)⟩ message.id
    ⟨message.timestampUs⟩ clockUs

/-- The sequence number that an Event reserves. -/
def reservedBy : ChatWorkspaceEvent → List UInt64
  | .messageSequenceReserved reservedSequence => [reservedSequence]
  | _ => []

namespace ChatWorld

/-- `persist()`: everything reachable from the workspace is saved. -/
def persist (world : ChatWorld) : ChatWorld :=
  { world with
    saved := world.live
    history := { world.history with
      durable := world.history.durable ++ world.history.unsaved
      unsaved := [] } }

def createEntry (world : ChatWorld) (entryId baseId : ObjId) (fields : ChatEntryFields) :
    ChatWorld :=
  { world with live := { world.live with
      entries := world.live.entries.insert entryId
        (initializeRuntimeNode chatEntry.nodeClass entryId chatEntryClassId baseId fields) } }

def commitWorkspace (world : ChatWorld) (clockUs : UInt64) (eventId : ObjId)
    (event : ChatWorkspaceEvent) : Except Fault ChatWorld := do
  let workspace ←
    commit chatWorkspace.nodeClass world.live.workspace ⟨eventId, some event⟩ clockUs
  pure { world with
    live := { world.live with workspace := workspace }
    history := { world.history with
      reserved := world.history.reserved ++ reservedBy event
      unsaved := world.history.unsaved ++ reservedBy event } }

def commitEntry (world : ChatWorld) (clockUs : UInt64) (entryId eventId : ObjId)
    (event : ChatEntryEvent) : Except Fault ChatWorld :=
  match world.live.entries.lookup entryId with
  | none => .error .nullDeref
  | some entry => do
      let entry ← commit chatEntry.nodeClass entry ⟨eventId, some event⟩ clockUs
      pure { world with live := { world.live with
        entries := world.live.entries.insert entryId entry } }

def commitMessage (world : ChatWorld) (clockUs : UInt64) (roomId eventId : ObjId)
    (message : MessageValue) : Except Fault ChatWorld :=
  match world.live.rooms.lookup roomId with
  | none => .error .nullDeref
  | some room => do
      let room ← AppTraverse.commitMessage roomIds clockUs room eventId message
      pure { world with
        live := { world.live with rooms := world.live.rooms.insert roomId room }
        history := { world.history with authored := world.history.authored ++ [message] } }

def runStage (clockUs : UInt64) (world : ChatWorld) : ChatStage → Except Fault ChatWorld
  | .createEntry entryId baseId fields => .ok (world.createEntry entryId baseId fields)
  | .commitWorkspace eventId event => world.commitWorkspace clockUs eventId event
  | .commitEntry entryId eventId event => world.commitEntry clockUs entryId eventId event
  | .commitMessage roomId eventId message =>
      world.commitMessage roomIds clockUs roomId eventId message
  | .persist => .ok world.persist

def runStages (clockUs : UInt64) (world : ChatWorld) (stages : List ChatStage) :
    Except Fault ChatWorld :=
  stages.foldlM (runStage roomIds clockUs) world

end ChatWorld

end Stages

/-- What a command answers, and what it does. -/
structure Planned (ρ : Type) where
  result : ρ
  stages : List ChatStage

/-- `std::isspace` in the "C" locale. -/
def isSpace (byte : UInt8) : Bool :=
  decide (byte = 32) || (decide (9 ≤ byte) && decide (byte ≤ 13))

/-- `TrimAsciiWhitespace`. -/
def trimAsciiWhitespace (text : Bytes) : Bytes :=
  ((text.dropWhile isSpace).reverse.dropWhile isSpace).reverse

/-- The bytes of an ASCII literal. -/
def asciiBytes (text : String) : Bytes := text.toList.map fun c => UInt8.ofNat c.toNat

section Commands

variable (env : CommandEnv) (state : ChatState)

/-- `ConfigureDemoRole`. -/
def configureDemoRole (role : DemoRole) : Planned Bool :=
  if role ≠ .host ∧ role ≠ .client then
    ⟨false, []⟩
  else if state.workspace.fields.demoRole = role then
    ⟨true, []⟩
  else if state.workspace.fields.demoRole ≠ .unconfigured then
    ⟨false, []⟩
  else
    ⟨true, [.commitWorkspace (env.ids 0) (.demoRoleConfigured role), .persist]⟩

/-- `SetHostUidInput`. -/
def setHostUidInput (text : Bytes) : Planned Bool :=
  if state.workspace.fields.demoRole ≠ .client then
    ⟨false, []⟩
  else if state.workspace.fields.hostUidInput = text then
    ⟨true, []⟩
  else
    ⟨true, [.commitWorkspace (env.ids 0) (.hostUidInputChanged text), .persist]⟩

/-- `ConversationDisplayName`. -/
def conversationDisplayName (localRole : DemoRole) (peerUid : Bytes) : Bytes :=
  let suffix := peerUid.take 8
  let word := if localRole = .host then asciiBytes "Client" else asciiBytes "Host"
  if suffix.isEmpty then word else word ++ asciiBytes " " ++ suffix

/-- The first entry of a peer. -/
def findEntryByPeer (peerUid : Bytes) : Option ObjId :=
  state.workspace.fields.chats.find? fun entryId => entryId.isValid &&
    match state.entries.lookup entryId with
    | none => false
    | some entry => decide (entry.fields.peerUid = peerUid)

/-- `OpenOrSelectChat`.  The empty id stands for the empty pointer. -/
def openOrSelectChat (peerUid : Bytes) : Planned ObjId :=
  let canonicalUid := trimAsciiWhitespace peerUid
  if canonicalUid.isEmpty then
    ⟨ObjId.empty, []⟩
  else
    match findEntryByPeer state canonicalUid with
    | some entryId =>
        if state.workspace.fields.selectedChatId ≠ entryId then
          ⟨entryId, [.commitWorkspace (env.ids 0) (.chatSelected entryId), .persist]⟩
        else
          ⟨entryId, []⟩
    | none =>
        ⟨env.ids 0,
          [.createEntry (env.ids 0) (env.ids 1)
            { peerUid := canonicalUid
              displayName :=
                conversationDisplayName state.workspace.fields.demoRole canonicalUid },
            .commitWorkspace (env.ids 2) (.chatEntryAdded (env.ids 0)),
            .commitWorkspace (env.ids 3) (.chatSelected (env.ids 0)), .persist]⟩

/-- `BindChat`.  A pointer to a room is one to a room of the replica. -/
def bindChat (entryId : ObjId) (link : Ref Link) (roomId : ObjId) : Planned Bool :=
  match state.entries.lookup entryId with
  | none => ⟨false, []⟩
  | some entry =>
      if !link.isValid || !roomId.isValid || (state.rooms.lookup roomId).isNone then
        ⟨false, []⟩
      else if linkEndpointUid link ≠ entry.fields.peerUid then
        ⟨false, []⟩
      else if entry.fields.peerLink.isValid ∧ entry.fields.room.isValid ∧
          entry.fields.peerLink.id = link.id ∧ entry.fields.room = roomId then
        ⟨true, []⟩
      else if entry.fields.peerLink.isValid ∧ entry.fields.peerLink.id ≠ link.id then
        ⟨false, []⟩
      else if entry.fields.room.isValid ∧ entry.fields.room ≠ roomId then
        ⟨false, []⟩
      else
        ⟨true, [.commitEntry entryId (env.ids 0) (.chatBindingChanged link roomId), .persist]⟩

/-- `BindLocalEndpoint`. -/
def bindLocalEndpoint (uid : Bytes) : Planned Bool :=
  if uid.isEmpty then
    ⟨false, []⟩
  else if state.workspace.fields.localEndpointUid = uid then
    ⟨true, []⟩
  else if !state.workspace.fields.localEndpointUid.isEmpty then
    ⟨false, []⟩
  else
    ⟨true, [.commitWorkspace (env.ids 0) (.localEndpointBound uid), .persist]⟩

/-- The commands that change one field of an entry, unless it already has the value. -/
def setEntryField (entryId : ObjId) (unchanged : ChatEntryFields → Bool)
    (event : ChatEntryEvent) : Planned Bool :=
  match state.entries.lookup entryId with
  | none => ⟨false, []⟩
  | some entry =>
      if unchanged entry.fields then
        ⟨true, []⟩
      else
        ⟨true, [.commitEntry entryId (env.ids 0) event, .persist]⟩

/-- `SetDraft`. -/
def setDraft (entryId : ObjId) (text : Bytes) : Planned Bool :=
  setEntryField env state entryId (fun fields => decide (fields.draft = text))
    (.draftChanged text)

/-- `SetScroll`. -/
def setScroll (entryId : ObjId) (anchor : ScrollAnchor) : Planned Bool :=
  setEntryField env state entryId (fun fields => decide (fields.scroll = anchor))
    (.scrollChanged anchor)

/-- `SetDesktopBounds`. -/
def setDesktopBounds (bounds : DesktopBounds) : Planned Bool :=
  if state.workspace.fields.desktopBounds = bounds then
    ⟨true, []⟩
  else
    ⟨true, [.commitWorkspace (env.ids 0) (.desktopBoundsChanged bounds), .persist]⟩

/-- `SelectChat`. -/
def selectChat (entryId : ObjId) : Planned Bool :=
  if !entryId.isValid then
    ⟨false, []⟩
  else if !state.workspace.fields.chats.any fun entry => entry.isValid && decide (entry = entryId) then
    ⟨false, []⟩
  else if state.workspace.fields.selectedChatId = entryId then
    ⟨true, []⟩
  else
    ⟨true, [.commitWorkspace (env.ids 0) (.chatSelected entryId), .persist]⟩

/-- The timestamp of the last message that the replica authored in a room. -/
def lastLocalTimestamp (messages : Messages) (localEndpointUid : Bytes) : Option UInt64 :=
  (messages.reverse.find? fun message =>
    decide (message.id.originUid = localEndpointUid)).map MessageValue.timestampUs

/-- `effective_time_us`: the supplied time, moved past the last local message. -/
def effectiveTimeUs (last : Option UInt64) (nowUs : UInt64) : UInt64 :=
  match last with
  | none => nowUs
  | some last => if nowUs ≤ last then last + 1 else nowUs

/-- `SubmitDraft` returns an empty identity at once. -/
def submitIsRefused (workspace : ChatWorkspaceFields) (entry : ChatEntryFields)
    (nowUs : UInt64) : Bool :=
  workspace.localEndpointUid.isEmpty || !entry.room.isValid || entry.draft.isEmpty ||
    decide (nowUs = 0) || decide (workspace.nextMessageSequence = 0) ||
    decide (workspace.nextMessageSequence = maxMessageSequence)

/-- The identity that the next message of a replica gets. -/
def nextMessageId (workspace : ChatWorkspaceFields) : SharedEventId :=
  ⟨workspace.localEndpointUid, workspace.nextMessageSequence⟩

/-- The message that `SubmitDraft` makes of a draft. -/
def messageOfDraft (workspace : ChatWorkspaceFields) (entry : ChatEntryFields)
    (messages : Messages) (nowUs : UInt64) : MessageValue where
  id := nextMessageId workspace
  timestampUs := effectiveTimeUs (lastLocalTimestamp messages workspace.localEndpointUid) nowUs
  text := entry.draft

/-- The stages of `SubmitDraft`: the sequence is reserved and the reservation persisted
before there is a message that could be sent. -/
def submitStages (entryId roomId : ObjId) (message : MessageValue) : List ChatStage :=
  [.commitWorkspace (env.ids 0) (.messageSequenceReserved message.id.originSequence), .persist,
    .commitMessage roomId (env.ids 1) message, .persist,
    .commitEntry entryId (env.ids 2) (.draftChanged []), .persist]

/-- `SubmitDraft`.  The entry is one of the replica, and its room is loaded. -/
def submitDraft (entryId : ObjId) (nowUs : UInt64) : Planned SharedEventId :=
  match state.entries.lookup entryId with
  | none => ⟨{}, []⟩
  | some entry =>
      if submitIsRefused state.workspace.fields entry.fields nowUs then
        ⟨{}, []⟩
      else
        match state.rooms.lookup entry.fields.room with
        | none => ⟨{}, []⟩
        | some room =>
            let message :=
              messageOfDraft state.workspace.fields entry.fields room.fields.app nowUs
            ⟨message.id, submitStages env entryId entry.fields.room message⟩

end Commands

/-- The commands. -/
inductive ChatCommand where
  | configureDemoRole (role : DemoRole)
  | setHostUidInput (text : Bytes)
  | openOrSelectChat (peerUid : Bytes)
  | bindChat (entryId : ObjId) (link : Ref Link) (roomId : ObjId)
  | bindLocalEndpoint (uid : Bytes)
  | setDraft (entryId : ObjId) (text : Bytes)
  | setScroll (entryId : ObjId) (anchor : ScrollAnchor)
  | setDesktopBounds (bounds : DesktopBounds)
  | selectChat (entryId : ObjId)
  | submitDraft (entryId : ObjId) (nowUs : UInt64)
  deriving DecidableEq, Repr

/-- What a command does in a state. -/
def ChatCommand.stages (env : CommandEnv) (state : ChatState) : ChatCommand → List ChatStage
  | .configureDemoRole role => (AppTraverse.configureDemoRole env state role).stages
  | .setHostUidInput text => (AppTraverse.setHostUidInput env state text).stages
  | .openOrSelectChat peerUid => (AppTraverse.openOrSelectChat env state peerUid).stages
  | .bindChat entryId link roomId => (AppTraverse.bindChat env state entryId link roomId).stages
  | .bindLocalEndpoint uid => (AppTraverse.bindLocalEndpoint env state uid).stages
  | .setDraft entryId text => (AppTraverse.setDraft env state entryId text).stages
  | .setScroll entryId anchor => (AppTraverse.setScroll env state entryId anchor).stages
  | .setDesktopBounds bounds => (AppTraverse.setDesktopBounds env state bounds).stages
  | .selectChat entryId => (AppTraverse.selectChat env state entryId).stages
  | .submitDraft entryId nowUs => (AppTraverse.submitDraft env state entryId nowUs).stages

end AppTraverse
