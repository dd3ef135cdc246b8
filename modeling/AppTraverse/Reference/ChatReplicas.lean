import AppTraverse.Reference.ByteAether
import AppTraverse.Runtime.Reception

/-!
# Chat replicas over byte strings

The class tree of the chat example, the Aether over it, and the pieces that
concrete payloads and receivers are put together from.
-/

namespace AppTraverse

open Foundations

def objClassId : ClassId := 0x7e2b928c
def nodeClassId : ClassId := 0x302e84de
def sharedNodeClassId : ClassId := 0xd53ceb85
def linkClassId : ClassId := 0x83fdf56a
def memoryLinkClassId : ClassId := 0x79c2456c
def linkSyncStateClassId : ClassId := 0x0c1b8f73
def eventClassId : ClassId := 0x5cc61107
def addShareEventClassId : ClassId := 0xa133cdc1
def removeShareEventClassId : ClassId := 0x9868b1fe
def changeShareAccessEventClassId : ClassId := 0x4636f6ff

/-- The classes that synchronization of a ChatRoom meets. -/
def chatTree : ClassTree :=
  .ofTable objClassId
    [(objClassId, []),
      (nodeClassId, [objClassId]),
      (sharedNodeClassId, [nodeClassId, objClassId]),
      (chatRoomClassId, [sharedNodeClassId, nodeClassId, objClassId]),
      (linkClassId, [nodeClassId, objClassId]),
      (memoryLinkClassId, [linkClassId, nodeClassId, objClassId]),
      (linkSyncStateClassId, [nodeClassId, objClassId]),
      (eventClassId, [objClassId]),
      (addShareEventClassId, [eventClassId, objClassId]),
      (removeShareEventClassId, [eventClassId, objClassId]),
      (changeShareAccessEventClassId, [eventClassId, objClassId]),
      (messageAddedEventClassId, [eventClassId, objClassId])]
    (by decide)

def chatClassIds : SharedClassIds where
  node := nodeClassId
  event := eventClassId
  sharedNode := sharedNodeClassId
  link := linkClassId
  linkSyncState := linkSyncStateClassId
  addShareEvent := addShareEventClassId
  removeShareEvent := removeShareEventClassId
  changeShareAccessEvent := changeShareAccessEventClassId

def messageCodec : Codec MessageValue :=
  (sharedEventIdCodec.pair (Codec.uint64.pair bytesCodec)).map
    (fun message => (message.id, message.timestampUs, message.text))
    (fun spelled => ⟨spelled.1, spelled.2.1, spelled.2.2⟩) fun _ => rfl

def messageAddedEventCodec : Codec MessageAddedEvent :=
  messageCodec.map MessageAddedEvent.message MessageAddedEvent.mk fun _ => rfl

/-- The Aether of the chat example. -/
def chatAether : Aether Messages MessageAddedEvent :=
  byteAether chatTree chatClassIds
    [nodeClassId, sharedNodeClassId, chatRoomClassId, linkClassId, memoryLinkClassId,
      linkSyncStateClassId, addShareEventClassId, removeShareEventClassId,
      changeShareAccessEventClassId, messageAddedEventClassId]
    messageCodec.list messageAddedEventCodec

theorem chatAether_lawful : chatAether.Lawful := byteAether_lawful _ _ _ _ _

section Payloads

/-- An object of a chat payload. -/
abbrev ChatObject := ObjId × StoredObject Messages MessageAddedEvent

def linkObject (id : UInt32) (endpointUid : Bytes) : ChatObject :=
  (⟨id⟩, { classId := memoryLinkClassId, body := .link endpointUid 0 })

def eventObject (id : UInt32) (event : SharedNodeEvent MessageAddedEvent) : ChatObject :=
  (⟨id⟩, { classId := chatAether.classIdOfEvent chatRoom event, body := .event event })

def roomObject (id base : UInt32) (shares : List Share) (messages : Messages)
    (journal : List (EventRecord (SharedNodeEvent MessageAddedEvent)))
    (linkSyncStates : List ObjId) : ChatObject :=
  (⟨id⟩, { classId := chatRoomClassId
           base := ⟨base⟩
           journal := journal
           body := .sharedNode ⟨shares, messages⟩ linkSyncStates })

/-- A journal record as it is stored. -/
def record (eventId : UInt32) (timestampUs : UInt64) (identity : SharedEventId) :
    EventRecord (SharedNodeEvent MessageAddedEvent) :=
  ⟨⟨⟨eventId⟩, none⟩, identity, ⟨timestampUs⟩, 0⟩

/-- A relationship over a link, as it is stored. -/
def share (shareId link : UInt32) : Share :=
  ⟨⟨shareId⟩, ⟨⟨link⟩, none⟩, ShareAccess.readWrite⟩

def addShareOf (link : UInt32) : SharedNodeEvent MessageAddedEvent :=
  .addShare ⟨⟨link⟩, none⟩ ShareAccess.readWrite

def message (originUid : Bytes) (originSequence timestampUs : UInt64) (text : Bytes) :
    MessageValue :=
  ⟨⟨originUid, originSequence⟩, timestampUs, text⟩

/-- The storage that holds these objects. -/
def storageOf (objects : List ChatObject) : RamDomainStorage :=
  storeObjects chatAether ∅ objects

/-- The payload that holds these objects. -/
def payloadOf (objects : List ChatObject) : Bytes :=
  serializeObjectGraph chatAether (storageOf objects)

/-- A payload is parsed to the storage it was written from. -/
theorem deserialize_payloadOf_eq (objects : List ChatObject) :
    deserializeObjectGraph chatAether (payloadOf objects) = some (storageOf objects) := by
  have hload := chatAether_lawful.loadState_saveState (storageOf objects) []
  rw [List.append_nil] at hload
  rw [deserializeObjectGraph, payloadOf, serializeObjectGraph, hload]
  rfl

theorem deserialize_payloadOf {objects : List ChatObject} {parsed : RamDomainStorage}
    (h : deserializeObjectGraph chatAether (payloadOf objects) = some parsed) :
    parsed = storageOf objects :=
  (Option.some.inj ((deserialize_payloadOf_eq objects).symm.trans h)).symm

/-- A test on the loaded room of a payload that passes. -/
theorem exists_loadedRoom (objects : List ChatObject) (nodeId : ObjId)
    (test : SharedNode Messages MessageAddedEvent → Bool)
    (h : (match loadSharedNode chatAether ((storageOf objects).find chatAether) nodeId with
      | .ok (some candidate) => test candidate
      | _ => false) = true) :
    ∃ candidate, loadSharedNode chatAether ((storageOf objects).find chatAether) nodeId =
      .ok (some candidate) ∧ test candidate = true := by
  split at h
  case h_1 candidate hload => exact ⟨candidate, hload, h⟩
  case h_2 => cases h

end Payloads

section Receivers

/-- The endpoints of the two replicas. -/
def hostEndpoint : Bytes := [104]

@[inherit_doc hostEndpoint]
def clientEndpoint : Bytes := [99]

/-- A ChatRoom as its host shares it with one client: the room has one relationship
for each endpoint, opened by its journal over an empty base. -/
def sharedRoom (journal : List (EventRecord (SharedNodeEvent MessageAddedEvent))) :
    List ChatObject :=
  [linkObject 12 hostEndpoint, linkObject 13 clientEndpoint,
    eventObject 14 (addShareOf 12), eventObject 15 (addShareOf 13),
    roomObject 11 0 [] [] [] [],
    roomObject 10 11 [share 14 12, share 15 13] []
      (record 14 1 {} :: record 15 2 {} :: journal) []]

/-- Sixty-four ids from one on, over and over. -/
def idsFrom (first : Nat) (n : Nat) : ObjId := ⟨UInt32.ofNat (first + n % 64)⟩

/-- The surroundings of a call at the receiver. -/
def receiverEnv (bound : Bool) : StepEnv where
  nowUs := 100
  ids := idsFrom 1000
  eventId := ⟨2000⟩
  generated := [⟨3000⟩]
  scratch := { ids := idsFrom 4000, generated := [⟨5000⟩] }
  bound := bound

/-- A client that waits for a ChatRoom from the host. -/
def waitingClient : Replica Messages MessageAddedEvent where
  runtime :=
    { localEndpoint := clientEndpoint
      expectedEndpointNodes := [⟨hostEndpoint, chatRoomClassId, .empty⟩]
      callbackInstalled := true }

/-- The frame of a payload for the relationship of the client. -/
def frameOf (packetId nodeId destinationShareId : UInt32) (objects : List ChatObject) :
    NodeStateFrame :=
  ⟨⟨packetId⟩, ⟨nodeId⟩, ⟨destinationShareId⟩, payloadOf objects⟩

/-- A property of all generated ids is one of the first sixty-four. -/
theorem forall_idsFrom (p : ObjId → Prop) (first : Nat)
    (h : ∀ k < 64, p ⟨UInt32.ofNat (first + k)⟩) (n : Nat) : p (idsFrom first n) :=
  h _ (Nat.mod_lt n (by decide))

/-- The reception of a frame by a replica that waits for the host. -/
def receiveFromHost (bound : Bool) (replica : Replica Messages MessageAddedEvent)
    (frame : NodeStateFrame) :
    RuntimeM Messages MessageAddedEvent (SharedSyncRuntime Messages MessageAddedEvent) :=
  onNodeState chatAether chatRoom (receiverEnv bound) replica hostEndpoint frame

/-- The import of a frame by the waiting client. -/
def importByClient (bound : Bool) (frame : NodeStateFrame) :
    RuntimeM Messages MessageAddedEvent (Option (ImportedNode Messages MessageAddedEvent)) :=
  importValidatedNode chatAether chatRoom (receiverEnv bound) waitingClient hostEndpoint
    frame

/-- A test on the imported Node that passes. -/
theorem exists_imported (bound : Bool) (frame : NodeStateFrame)
    (test : ImportedNode Messages MessageAddedEvent → Bool)
    (h : (match (importByClient bound frame).result with
      | .ok (some imported) => test imported
      | _ => false) = true) :
    ∃ imported, (importByClient bound frame).result = .ok (some imported) ∧
      test imported = true := by
  split at h
  case h_1 imported himport => exact ⟨imported, himport, h⟩
  case h_2 => cases h

end Receivers

end AppTraverse
