import AppTraverse.Reference.ChatReplicas

/-!
# A room that two replicas share

The ChatRoom of the chat example as a live object: one relationship for the host,
one for the client, both opened by its journal over an empty base.
-/

namespace AppTraverse

section Room

/-- A loaded reference to the Link of an endpoint. -/
def roomLink (id : UInt32) (endpointUid : Bytes) : Ref Link :=
  ⟨⟨id⟩, some ⟨memoryLinkClassId, endpointUid, 0⟩⟩

/-- The record that opened a relationship. -/
def openedBy (eventId linkId : UInt32) (endpointUid : Bytes) (timestampUs : UInt64) :
    EventRecord (SharedNodeEvent MessageAddedEvent) :=
  ⟨⟨⟨eventId⟩, some (.addShare (roomLink linkId endpointUid) ShareAccess.readWrite)⟩, {},
    ⟨timestampUs⟩, 1⟩

/-- A shared record of a message. -/
def messageRecord (eventId : UInt32) (value : MessageValue) (retainedSinceUs : UInt64) :
    EventRecord (SharedNodeEvent MessageAddedEvent) :=
  ⟨⟨⟨eventId⟩, some (.app ⟨value⟩)⟩, value.id, ⟨value.timestampUs⟩, retainedSinceUs⟩

/-- The live room: the journal that opened the relationships, more records, the
messages they add up to, and the sync states of the two relationships. -/
def syncedRoom (hostState clientState : LinkSyncState)
    (records : List (EventRecord (SharedNodeEvent MessageAddedEvent)))
    (messages : Messages) : SharedNode Messages MessageAddedEvent where
  objId := ⟨10⟩
  classId := chatRoomClassId
  base := ⟨⟨11⟩, some { shares := [], app := [] }⟩
  journal := openedBy 14 12 hostEndpoint 1 :: openedBy 15 13 clientEndpoint 2 :: records
  fields :=
    { shares := [⟨⟨14⟩, roomLink 12 hostEndpoint, ShareAccess.readWrite⟩,
        ⟨⟨15⟩, roomLink 13 clientEndpoint, ShareAccess.readWrite⟩]
      app := messages
      linkSyncStates := [⟨⟨20⟩, some hostState⟩, ⟨⟨22⟩, some clientState⟩] }

/-- The state of a relationship that nothing has happened to. -/
def hostLinkState : LinkSyncState := .fresh ⟨14⟩ ⟨12⟩

@[inherit_doc hostLinkState]
def clientLinkState : LinkSyncState := .fresh ⟨15⟩ ⟨13⟩

/-- A replica that has the room, registered and saved, and takes messages. -/
def roomReplica (localEndpoint : Bytes) (room : SharedNode Messages MessageAddedEvent) :
    Replica Messages MessageAddedEvent where
  runtime :=
    { localEndpoint := localEndpoint
      nodes := [room]
      standaloneEventClasses := [messageAddedEventClassId] }
  storage := { nodes := [room] }

end Room

end AppTraverse
