import AppTraverse.Delivery.RecordedEvents
import AppTraverse.Delivery.RejectedFrames
import AppTraverse.Reference.SyncedRoom

/-!
# Redelivered Events

An Event that was acknowledged can arrive again, and is recognised by its identity in
the journal.  `SameEventPayload` then saves the recorded Event once more and compares
the class layers with those of the payload as raw bytes, while the first delivery only
needs the payload to load.  So a payload is acknowledged again exactly when it is what
the Event it loads to is saved as.

The record also has to be there still, which takes a saved journal: the duplicate path
acknowledges without saving.
-/

namespace AppTraverse

open Foundations

variable {α ε : Type} {aether : Aether α ε} {app : AppClass α ε}

section Definitions

variable (aether : Aether α ε) (app : AppClass α ε)

/-- The layers that an Event is saved to. -/
def eventLayers (event : SharedNodeEvent ε) : Layers :=
  aether.saveObject { classId := aether.classIdOfEvent app event
                      body := .event (storedEvent event) }

/-- The root object of a payload. -/
def payloadObject (payload : Bytes) : Option (StoredObject α ε) :=
  (parseEventPayload aether payload).bind fun graph => graph.1.find aether graph.2

/-- The layers of the root are the ones that the Event they load to is saved to. -/
def PayloadIsCanonical (payload : Bytes) : Prop :=
  ∀ parsed wireRootId layers object event,
    parseEventPayload aether payload = some (parsed, wireRootId) →
    parsed.layers? wireRootId = some layers → aether.loadObject layers = some object →
    object.body = .event event → layers = eventLayers aether app event

/-- The replica can acknowledge the frame again: a new Event has a canonical payload,
and an Event that the journal has is in the saved journal too. -/
structure AckIsRepeatable (replica : Replica α ε) (frame : EventFrame) : Prop where
  canonical : ∀ node, findNode replica.runtime.nodes frame.targetNodeId = some node →
    findSharedEvent node frame.identity = none → PayloadIsCanonical aether app frame.payload
  saved : ∀ node record, findNode replica.runtime.nodes frame.targetNodeId = some node →
    findSharedEvent node frame.identity = some record →
    NodeHasRecord replica.storage.nodes frame.targetNodeId node.classId frame.identity record

/-- The Node of this id has the same relationships at both replicas. -/
def SameTopology (nodeId : ObjId) (replica replica' : Replica α ε) : Prop :=
  ∀ node node', findNode replica.runtime.nodes nodeId = some node →
    findNode replica'.runtime.nodes nodeId = some node' →
    node'.fields.shares = node.fields.shares

/-- The received bytes are acknowledged as this Event frame. -/
def Acknowledges (env : StepEnv) (replica : Replica α ε) (sourceEndpoint bytes : Bytes)
    (frame : EventFrame) : Prop :=
  decodeEventFrame (aether.derives aether.eventClassId) bytes = some frame ∧
    ackEffect sourceEndpoint frame.packetId frame.targetNodeId frame.destinationShareId ∈
      (onBytes aether app env replica sourceEndpoint bytes).effects

/-- At a later replica, the bytes that `replica` acknowledged as `frame` are acknowledged
again, which is all that happens, and no other Event of that identity is. -/
structure EventIsIdempotent (replica : Replica α ε) (sourceEndpoint bytes : Bytes)
    (frame : EventFrame) (final : Replica α ε) : Prop where
  repeated : SameTopology frame.targetNodeId replica final → ∀ env,
    (onBytes aether app env final sourceEndpoint bytes).effects =
      [ackEffect sourceEndpoint frame.packetId frame.targetNodeId frame.destinationShareId] ∧
    replicaStep aether app final (.receive env sourceEndpoint bytes) = some final
  exclusive : ∀ env otherEndpoint otherBytes other,
    Acknowledges aether app env final otherEndpoint otherBytes other →
    other.targetNodeId = frame.targetNodeId → other.identity = frame.identity →
    other.timestampUs = frame.timestampUs ∧ other.eventClassId = frame.eventClassId ∧
      payloadObject aether other.payload = payloadObject aether frame.payload

end Definitions

section Payload

/-- The layers that an Event is saved to under any id. -/
theorem layers?_eventObjects (aether : Aether α ε) (app : AppClass α ε) (id : ObjId)
    (event : SharedNodeEvent ε) :
    (savedObjects aether (eventObjects aether app ⟨id, some event⟩)).layers? id =
      some (eventLayers aether app event) :=
  layers?_savedObjects_head aether id _ _

/-- `SameEventPayload` compares the root layers with the saved ones. -/
theorem sameEventPayload_eq_true_iff {eventId : ObjId} {event : SharedNodeEvent ε}
    {payload : Bytes} :
    sameEventPayload aether app eventId event payload = true ↔
      ∃ parsed wireRootId, parseEventPayload aether payload = some (parsed, wireRootId) ∧
        parsed.layers? wireRootId = some (eventLayers aether app event) := by
  unfold sameEventPayload
  cases hparse : parseEventPayload aether payload with
  | none => simp
  | some graph =>
      obtain ⟨parsed, wireRootId⟩ := graph
      simp only [layers?_eventObjects]
      cases hlayers : parsed.layers? wireRootId with
      | none => simp [hlayers]
      | some theirs => simp [hlayers, eq_comm]

/-- Saving the Event that was loaded from its own layers gives these layers. -/
theorem eventLayers_storedEvent (aether : Aether α ε) (app : AppClass α ε)
    (event : SharedNodeEvent ε) :
    eventLayers aether app (storedEvent event) = eventLayers aether app event := by
  cases event <;> rfl

theorem classIdOfEvent_storedEvent (aether : Aether α ε) (app : AppClass α ε)
    (event : SharedNodeEvent ε) :
    aether.classIdOfEvent app (storedEvent event) = aether.classIdOfEvent app event := by
  cases event <;> rfl

/-- Loading an Event resolves a reference, which is saved as its id. -/
theorem eventLayers_of_loadEvent (aether : Aether α ε) (app : AppClass α ε)
    {find : ObjectFinder α ε} {event loaded : SharedNodeEvent ε}
    (h : loadEvent find event = .ok loaded) :
    eventLayers aether app loaded = eventLayers aether app event ∧
      aether.classIdOfEvent app loaded = aether.classIdOfEvent app event := by
  have hstored := storedEvent_loadEvent h
  constructor
  · rw [← eventLayers_storedEvent, hstored, eventLayers_storedEvent]
  · rw [← classIdOfEvent_storedEvent, hstored, classIdOfEvent_storedEvent]

/-- What an import of a standalone Event read. -/
theorem imported_eq_some {parsed : RamDomainStorage} {rootId : ObjId}
    {expectedEventClassId : ClassId} {generated : List ObjId} {occupied : ObjId → Bool}
    {find : ObjectFinder α ε} {localEvent : ImportedEvent ε}
    (h : importStandaloneEventGraph aether parsed rootId expectedEventClassId generated
      occupied find = .ok (some localEvent)) :
    ∃ (object : StoredObject α ε) (event : SharedNodeEvent ε) (find' : ObjectFinder α ε),
      parsed.layers? rootId = some localEvent.layers ∧
      aether.loadObject localEvent.layers = some object ∧
      object.classId = expectedEventClassId ∧ object.body = .event event ∧
      loadEvent find' event = .ok localEvent.event := by
  unfold importStandaloneEventGraph at h
  split at h
  case isTrue => cases h
  case isFalse =>
    obtain ⟨id, -, h⟩ := except_bind_eq_ok_iff.mp h
    split at h
    case h_1 => cases h
    case h_2 layers hlayers =>
      split at h
      case h_1 => cases h
      case h_2 object hobject =>
        split at h
        case isTrue => cases h
        case isFalse hclass =>
          split at h
          case h_1 event hbody =>
            obtain ⟨loaded, hloaded, h⟩ := except_bind_eq_ok_iff.mp h
            cases h
            exact ⟨object, event, _, hlayers, hobject, not_not.mp hclass, hbody, hloaded⟩
          case h_2 => cases h

end Payload

section KnownRecord

variable {env : StepEnv} {replica : Replica α ε} {sourceEndpoint : Bytes}
  {frame : EventFrame} {node : SharedNode α ε} {record : EventRecord (SharedNodeEvent ε)}

/-- What the checks of a payload found out. -/
theorem eventIsWellFormed_some {parsed : RamDomainStorage} {wireRootId : ObjId}
    (h : eventIsWellFormed aether app node frame = .ok (some (parsed, wireRootId))) :
    parseEventPayload aether frame.payload = some (parsed, wireRootId) ∧
      validateStandaloneEventGraph aether parsed wireRootId frame.eventClassId = true ∧
      ∃ object event, parsed.find aether wireRootId = some object ∧ object.body = .event event ∧
        aether.derives (aether.targetClassId app event) node.classId = true := by
  unfold eventIsWellFormed at h
  split at h
  case h_1 => cases h
  case h_2 graph root hparse =>
    split at h
    case isTrue => cases h
    case isFalse hvalid =>
      split at h
      case h_1 => cases h
      case h_2 object hobject =>
        split at h
        case h_1 event hbody =>
          split at h
          case isTrue => cases h
          case isFalse htarget =>
            cases h
            rw [not_or, Bool.not_eq_true', Bool.not_eq_false] at htarget
            exact ⟨hparse, by simpa using hvalid, object, event, hobject, hbody, htarget.2⟩
        case h_2 => cases h

theorem parse_of_eventIsWellFormed {parsed : RamDomainStorage} {wireRootId : ObjId}
    (h : eventIsWellFormed aether app node frame = .ok (some (parsed, wireRootId))) :
    parseEventPayload aether frame.payload = some (parsed, wireRootId) :=
  (eventIsWellFormed_some h).1

/-- The checks of a payload ask the Node for its class only. -/
theorem eventIsWellFormed_of_classId {node' : SharedNode α ε}
    (hclass : node'.classId = node.classId) :
    eventIsWellFormed aether app node' frame = eventIsWellFormed aether app node frame := by
  unfold eventIsWellFormed
  rw [hclass]

/-- `OnEvent` acknowledges the recorded Event and does nothing else. -/
theorem onEvent_of_sameRecord {parsed : RamDomainStorage} {wireRootId : ObjId}
    (hadmissible : EventIsAdmissible aether app replica sourceEndpoint frame node parsed
      wireRootId)
    (hfound : findSharedEvent node frame.identity = some record)
    (hsame : isSameRecord aether app record frame = true) (env : StepEnv) :
    onEvent aether app env replica sourceEndpoint frame =
      ⟨[ackEffect sourceEndpoint frame.packetId frame.targetNodeId frame.destinationShareId],
        .ok replica.runtime⟩ := by
  unfold onEvent
  have hallowed : ¬ frame.eventClassId ∉ replica.runtime.standaloneEventClasses :=
    not_not_intro hadmissible.allowed
  simp only [hadmissible.found, hadmissible.addressed, Bool.not_true, Bool.false_eq_true,
    if_false, if_neg hallowed, hadmissible.wellFormed, pureStep_ok_bind, hfound, hsame,
    if_true, sendAck, perform_bind]
  rfl

/-- An identity that the journal has is only ever acknowledged for its record. -/
theorem sameRecord_of_effect {effect : Effect α ε}
    (hnode : findNode replica.runtime.nodes frame.targetNodeId = some node)
    (hfound : findSharedEvent node frame.identity = some record)
    (hmem : effect ∈ (onEvent aether app env replica sourceEndpoint frame).effects) :
    isSameRecord aether app record frame = true := by
  unfold onEvent at hmem
  simp only [hnode] at hmem
  split at hmem
  case isTrue => cases hmem
  case isFalse =>
    split at hmem
    case isTrue => cases hmem
    case isFalse =>
      cases hwell : eventIsWellFormed aether app node frame with
      | error reason => simp [hwell] at hmem
      | ok checked =>
          simp only [hwell, pureStep_ok_bind] at hmem
          cases checked with
          | none => cases hmem
          | some graph =>
              simp only [hfound] at hmem
              split at hmem
              case isTrue hsame => exact hsame
              case isFalse => cases hmem

/-- What makes a record the Event of a frame. -/
theorem isSameRecord_eq_true_iff :
    isSameRecord aether app record frame = true ↔
      record.order.timestampUs = frame.timestampUs ∧ record.event.isValid = true ∧
      ∃ event, record.event.obj = some event ∧
        aether.classIdOfEvent app event = frame.eventClassId ∧
        ∃ parsed wireRootId,
          parseEventPayload aether frame.payload = some (parsed, wireRootId) ∧
          parsed.layers? wireRootId = some (eventLayers aether app event) := by
  unfold isSameRecord
  cases hobj : record.event.obj with
  | none => simp
  | some event => simp [sameEventPayload_eq_true_iff, and_assoc]

/-- Two frames that one record is the Event of carry the same Event. -/
theorem sameEvent_of_sameRecord {other : EventFrame}
    (h : isSameRecord aether app record frame = true)
    (hother : isSameRecord aether app record other = true) :
    other.timestampUs = frame.timestampUs ∧ other.eventClassId = frame.eventClassId ∧
      payloadObject aether other.payload = payloadObject aether frame.payload := by
  obtain ⟨htime, -, event, hobj, hclass, parsed, wireRootId, hparse, hlayers⟩ :=
    isSameRecord_eq_true_iff.mp h
  obtain ⟨htime', -, event', hobj', hclass', parsed', wireRootId', hparse', hlayers'⟩ :=
    isSameRecord_eq_true_iff.mp hother
  cases hobj.symm.trans hobj'
  refine ⟨htime'.symm.trans htime, hclass'.symm.trans hclass, ?_⟩
  simp only [payloadObject, hparse, hparse', Option.bind_some, RamDomainStorage.find,
    hlayers, hlayers']

/-- A record that was inserted from a canonical payload is the Event of its frame. -/
theorem sameRecord_of_inserted (hlawful : aether.Lawful) {parsed : RamDomainStorage}
    {wireRootId : ObjId} {localEvent : ImportedEvent ε} {inserted : SharedNode α ε}
    (hcanonical : PayloadIsCanonical aether app frame.payload)
    (hadmissible : EventIsAdmissible aether app replica sourceEndpoint frame node parsed
      wireRootId)
    (hinserted : EventIsInserted aether app env replica frame node parsed wireRootId
      localEvent inserted) :
    isSameRecord aether app ((sharedRecord ⟨localEvent.id, some localEvent.event⟩
      frame.identity ⟨frame.timestampUs⟩ env.nowUs).stamped env.nowUs) frame = true := by
  obtain ⟨object, event, find', hlayers, hobject, hclass, hbody, hloaded⟩ :=
    imported_eq_some hinserted.imported
  obtain ⟨heventLayers, heventClass⟩ :=
    eventLayers_of_loadEvent aether app hloaded
  obtain ⟨-, -, hrecord⟩ := recordInserted_of_commitShared hinserted.commit
  have hparse := parse_of_eventIsWellFormed hadmissible.wellFormed
  have hsaved := hcanonical parsed wireRootId _ object event hparse hlayers hobject hbody
  -- The object that the payload loads to is the one that its Event is saved as.
  have hread : object.classId = aether.classIdOfEvent app event := by
    have hload := hlawful.loadObject_saveObject
      { classId := aether.classIdOfEvent app event, body := .event (storedEvent event) }
    rw [hsaved, eventLayers, hload] at hobject
    cases hobject
    rfl
  rw [isSameRecord_eq_true_iff]
  refine ⟨by rw [stamped_order]; rfl, ?_, localEvent.event, ?_, ?_,
    parsed, wireRootId, hparse, ?_⟩
  · rw [stamped_event]
    exact hrecord.eventValid
  · rw [stamped_event]
    rfl
  · rw [heventClass, ← hread, hclass]
  · rw [hlayers, hsaved, heventLayers]

end KnownRecord

section FrozenPayload

/-- What a sender freezes is canonical. -/
theorem payloadIsCanonical_of_freeze (hlawful : aether.Lawful) {eventId : ObjId}
    {event : SharedNodeEvent ε} {payload : Bytes}
    (h : freezeEventPayload aether app eventId event = some payload) :
    PayloadIsCanonical aether app payload := by
  intro parsed wireRootId layers object loaded hparse hlayers hobject hbody
  unfold freezeEventPayload at h
  simp only at h
  split at h
  case isTrue => cases h
  case isFalse hvalid =>
    split at h
    case isTrue => cases h
    case isFalse =>
      split at h
      case isTrue => cases h
      case isFalse =>
        cases h
        have hstate := hlawful.loadState_saveState
          (savedObjects aether (eventObjects aether app ⟨eventId, some event⟩)) []
        rw [List.append_nil] at hstate
        simp only [parseEventPayload, hlawful.loadObjId_saveObjId, Option.bind_eq_bind,
          Option.bind_some, hstate, if_neg hvalid, List.isEmpty_nil, Bool.not_true,
          Bool.false_eq_true, if_false, layers?_eventObjects, Option.isNone_some,
          Option.some.injEq, Prod.mk.injEq] at hparse
        obtain ⟨rfl, rfl⟩ := hparse
        rw [layers?_eventObjects] at hlayers
        cases hlayers
        rw [eventLayers, hlawful.loadObject_saveObject] at hobject
        cases hobject
        cases hbody
        rw [eventLayers_storedEvent]

end FrozenPayload

section Redelivery

variable {env : StepEnv} {replica next final : Replica α ε} {sourceEndpoint bytes : Bytes}
  {frame : EventFrame}

theorem onBytes_event (app : AppClass α ε) (env : StepEnv) (replica : Replica α ε) (sourceEndpoint : Bytes)
    (hdecode : decodeEventFrame (aether.derives aether.eventClassId) bytes = some frame) :
    onBytes aether app env replica sourceEndpoint bytes =
      onEvent aether app env replica sourceEndpoint frame := by
  have hpeek : peekSyncFrameType bytes = some .event := by
    rw [← (encode_of_decodeEventFrame hdecode).2]
    exact peekSyncFrameType_encodeEventFrame frame
  unfold onBytes
  simp only [hpeek, hdecode]

/-- Whatever an Event frame is answered by, it is acknowledged. -/
theorem acknowledges_of_effects
    (hdecode : decodeEventFrame (aether.derives aether.eventClassId) bytes = some frame)
    (hstep : replicaStep aether app replica (.receive env sourceEndpoint bytes) = some next)
    (heffects : (onBytes aether app env replica sourceEndpoint bytes).effects ≠ []) :
    Acknowledges aether app env replica sourceEndpoint bytes frame := by
  obtain ⟨runtime', hresult, -⟩ := replicaStep_eq_some_iff.mp hstep
  refine ⟨hdecode, ?_⟩
  simp only [ReplicaAction.outcome] at hresult
  rw [onBytes_event app env replica sourceEndpoint hdecode] at heffects hresult ⊢
  rcases onEvent_cases hresult with ⟨hnothing, -⟩ | ⟨_, _, _, _, -, -, -, hacks, -⟩ |
    ⟨_, _, _, _, _, -, -, hacks, -⟩
  · exact absurd hnothing heffects
  · rw [hacks]
    exact List.mem_singleton_self _
  · rw [hacks]
    simp

/-- An acknowledged Event is a record of the replica after it, live and saved, that a
repetition of the frame is recognised by. -/
theorem recordIsKept_of_acknowledged (hlawful : aether.Lawful)
    (hacked : Acknowledges aether app env replica sourceEndpoint bytes frame)
    (hstep : replicaStep aether app replica (.receive env sourceEndpoint bytes) = some next)
    (hrepeatable : AckIsRepeatable aether app replica frame) :
    ∃ node parsed wireRootId record,
      EventIsAdmissible aether app replica sourceEndpoint frame node parsed wireRootId ∧
      RecordIsKept next frame.targetNodeId node.classId frame.identity record ∧
      SameSettings replica.runtime next.runtime ∧
      isSameRecord aether app record frame = true := by
  obtain ⟨hdecode, hmem⟩ := hacked
  obtain ⟨runtime', hresult, rfl⟩ := replicaStep_eq_some_iff.mp hstep
  simp only [ReplicaAction.outcome] at hresult ⊢
  rw [onBytes_event app env replica sourceEndpoint hdecode] at hmem hresult ⊢
  rcases onEvent_cases hresult with ⟨heffects, -⟩ |
    ⟨node, parsed, wireRootId, record, hadmissible, hfound, hsame, heffects, rfl⟩ |
    ⟨node, parsed, wireRootId, localEvent, inserted, hadmissible, hinserted, heffects, rfl⟩
  · rw [heffects] at hmem
    cases hmem
  · have hlive : NodeHasRecord replica.runtime.nodes frame.targetNodeId node.classId
        frame.identity record := ⟨node, hadmissible.found, rfl, hfound⟩
    refine ⟨node, parsed, wireRootId, record, hadmissible, ?_, ⟨rfl, rfl⟩, hsame⟩
    rw [heffects]
    exact ⟨hlive, hrepeatable.saved node record hadmissible.found hfound⟩
  · obtain ⟨horigin, -, hrecord⟩ := recordInserted_of_commitShared hinserted.commit
    have hid : inserted.objId = frame.targetNodeId :=
      hrecord.objId.trans (objId_of_findNode hadmissible.found)
    have hhas := hasRecord_of_commitShared hinserted.unknown horigin hrecord
    refine ⟨node, parsed, wireRootId, _, hadmissible, ?_, ⟨rfl, rfl⟩,
      sameRecord_of_inserted hlawful
        (hrepeatable.canonical node hadmissible.found hinserted.unknown) hadmissible
        hinserted⟩
    rw [heffects]
    refine ⟨⟨inserted, ?_, hhas⟩, ⟨inserted, ?_, hhas⟩⟩
    · show findNode (replaceNode replica.runtime.nodes inserted) frame.targetNodeId = _
      rw [findNode_replaceNode, hadmissible.found, Option.map_some, if_pos hrecord.objId.symm]
    · show findNode (saveNodeValue replica.storage.nodes inserted) frame.targetNodeId = _
      rw [← hid]
      exact findNode_saveNodeValue _ _

/-- An acknowledged Event is idempotent for its sender in every later state, if its
payload is canonical or its record was saved before. -/
theorem acknowledgedEvent_isIdempotent (hlawful : aether.Lawful)
    {actions : List (ReplicaAction ε)}
    (hacked : Acknowledges aether app env replica sourceEndpoint bytes frame)
    (hstep : replicaStep aether app replica (.receive env sourceEndpoint bytes) = some next)
    (hleaves : ∀ action ∈ actions, action.LeavesJournal frame.targetNodeId)
    (hrun : runActions (replicaStep aether app) next actions = some final)
    (hrepeatable : AckIsRepeatable aether app replica frame) :
    EventIsIdempotent aether app replica sourceEndpoint bytes frame final := by
  obtain ⟨node, parsed, wireRootId, record, hadmissible, hkept, hsettings, hsame⟩ :=
    recordIsKept_of_acknowledged hlawful hacked hstep hrepeatable
  obtain ⟨hfinal, hlater⟩ := recordIsKept_run hkept hleaves hrun
  obtain ⟨node', hfound, hclass, hrecord⟩ := hfinal.live
  constructor
  · intro htopology env'
    have hshares := htopology node node' hadmissible.found hfound
    have hadmissible' : EventIsAdmissible aether app final sourceEndpoint frame node' parsed
        wireRootId := by
      refine ⟨hfound, ?_, ?_, ?_⟩
      · rw [hshares, hlater.1, hsettings.1]
        exact hadmissible.addressed
      · rw [hlater.2, hsettings.2]
        exact hadmissible.allowed
      · rw [eventIsWellFormed_of_classId hclass]
        exact hadmissible.wellFormed
    have hcall := onEvent_of_sameRecord hadmissible' hrecord hsame env'
    have hbytes := onBytes_event app env' final sourceEndpoint hacked.1
    refine ⟨by rw [hbytes, hcall], replicaStep_eq_some_iff.mpr ⟨final.runtime, ?_, ?_⟩⟩
    · rw [ReplicaAction.outcome, hbytes, hcall]
    · rw [ReplicaAction.outcome, hbytes, hcall]
      rfl
  · intro env' otherEndpoint otherBytes other hother htarget hidentity
    have hmem := hother.2
    rw [onBytes_event app env' final otherEndpoint hother.1] at hmem
    rw [← htarget] at hfound
    rw [← hidentity] at hrecord
    exact sameEvent_of_sameRecord hsame (sameRecord_of_effect hfound hrecord hmem)

end Redelivery

section PaddedEvent

/-- A message of the host. -/
def hostMessage : MessageValue := message hostEndpoint 1 50 [104, 105]

/-- The Event of that message as the host saves it. -/
def messageLayers : Layers := eventLayers chatAether chatRoom (.app ⟨hostMessage⟩)

/-- The same layers, each with a second version that has no bytes. -/
def paddedLayers : Layers := messageLayers.map fun layer => (layer.1, layer.2 ++ [(1, [])])

/-- The storage map that holds an Event with these layers. -/
def messageStorage (layers : Layers) : RamDomainStorage :=
  (∅ : RamDomainStorage).insert ⟨40⟩ (some layers)

/-- The frame that carries it. -/
def messageFrame (layers : Layers) : EventFrame where
  packetId := ⟨70⟩
  targetNodeId := ⟨10⟩
  destinationShareId := ⟨15⟩
  eventClassId := messageAddedEventClassId
  identity := hostMessage.id
  timestampUs := hostMessage.timestampUs
  payload := chatAether.saveObjId ⟨40⟩ ++ chatAether.saveState (messageStorage layers)

/-- A client that has the room, registered and saved. -/
def roomClient : Replica Messages MessageAddedEvent :=
  roomReplica clientEndpoint (syncedRoom hostLinkState clientLinkState [] [])

/-- The reception of that frame from the host. -/
def receiveMessage (layers : Layers) : ReplicaAction MessageAddedEvent :=
  .receive (receiverEnv true) hostEndpoint (encodeEventFrame (messageFrame layers))

/-- The replica took the frame, and `test` holds after it. -/
def holdsAfterMessage (layers : Layers)
    (test : Replica Messages MessageAddedEvent → Bool) : Bool :=
  match replicaStep chatAether chatRoom roomClient (receiveMessage layers) with
  | some next => test next
  | none => false

theorem exists_afterMessage (layers : Layers)
    (test : Replica Messages MessageAddedEvent → Bool)
    (h : holdsAfterMessage layers test = true) :
    ∃ next, replicaStep chatAether chatRoom roomClient (receiveMessage layers) = some next ∧
      test next = true := by
  unfold holdsAfterMessage at h
  split at h
  case h_1 next hnext => exact ⟨next, hnext, h⟩
  case h_2 => cases h

theorem decode_messageFrame (layers : Layers)
    (hreadable : (messageFrame layers).isReadable (chatAether.derives chatAether.eventClassId) =
      true) :
    decodeEventFrame (chatAether.derives chatAether.eventClassId)
      (encodeEventFrame (messageFrame layers)) = some (messageFrame layers) := by
  have hshort : (messageFrame layers).identity.originUid.length < 2 ^ 32 := by
    show hostEndpoint.length < 2 ^ 32
    decide
  rw [decodeEventFrame_encode _ hshort, if_pos hreadable]

/-- How often the frame is answered by anything. -/
def answers (layers : Layers) (replica : Replica Messages MessageAddedEvent) : Bool :=
  !((receiveMessage layers).outcome chatAether chatRoom replica).effects.isEmpty

theorem effects_of_answers {layers : Layers} {replica : Replica Messages MessageAddedEvent}
    (h : answers layers replica = true) :
    (onBytes chatAether chatRoom (receiverEnv true) replica hostEndpoint
      (encodeEventFrame (messageFrame layers))).effects ≠ [] := by
  intro hnil
  rw [answers, receiveMessage, ReplicaAction.outcome, hnil] at h
  cases h

/-- The relationships of the room. -/
def roomShares (replica : Replica Messages MessageAddedEvent) : Option (List Share) :=
  (findNode replica.runtime.nodes ⟨10⟩).map fun node => node.fields.shares

theorem sameTopology_of_roomShares {replica replica' : Replica Messages MessageAddedEvent}
    (h : roomShares replica' = roomShares replica) : SameTopology ⟨10⟩ replica replica' := by
  intro node node' hfound hfound'
  rw [roomShares, roomShares, hfound, hfound'] at h
  exact Option.some.inj h

/-- The client acknowledges the padded Event once, and never again. -/
theorem paddedEvent_notIdempotent :
    Acknowledges chatAether chatRoom (receiverEnv true) roomClient hostEndpoint
      (encodeEventFrame (messageFrame paddedLayers)) (messageFrame paddedLayers) ∧
    ∃ next, replicaStep chatAether chatRoom roomClient (receiveMessage paddedLayers) =
        some next ∧
      ¬ EventIsIdempotent chatAether chatRoom roomClient hostEndpoint
        (encodeEventFrame (messageFrame paddedLayers)) (messageFrame paddedLayers) next := by
  have hdecode := decode_messageFrame paddedLayers (by decide +kernel)
  obtain ⟨next, hstep, htest⟩ := exists_afterMessage paddedLayers
    (fun next => answers paddedLayers roomClient && !answers paddedLayers next &&
      decide (roomShares next = roomShares roomClient)) (by decide +kernel)
  simp only [Bool.and_eq_true, Bool.not_eq_true', decide_eq_true_eq] at htest
  obtain ⟨⟨hanswers, hsilent⟩, hshares⟩ := htest
  refine ⟨acknowledges_of_effects hdecode hstep (effects_of_answers hanswers), next,
    hstep, fun hidempotent => ?_⟩
  obtain ⟨heffects, -⟩ := hidempotent.repeated (sameTopology_of_roomShares hshares)
    (receiverEnv true)
  rw [answers, receiveMessage, ReplicaAction.outcome, heffects] at hsilent
  cases hsilent

/-- A client that acknowledged the Event as the host froze it, and restarted. -/
theorem messageEvent_isIdempotent :
    ∃ next final, replicaStep chatAether chatRoom roomClient (receiveMessage messageLayers) =
        some next ∧
      runActions (replicaStep chatAether chatRoom) next [.saveNode ⟨10⟩, .restart] =
        some final ∧
      EventIsIdempotent chatAether chatRoom roomClient hostEndpoint
        (encodeEventFrame (messageFrame messageLayers)) (messageFrame messageLayers)
        final := by
  have hdecode := decode_messageFrame messageLayers (by decide +kernel)
  obtain ⟨next, hstep, htest⟩ := exists_afterMessage messageLayers
    (fun next => answers messageLayers roomClient &&
      (runActions (replicaStep chatAether chatRoom) next [.saveNode ⟨10⟩, .restart]).isSome)
    (by decide +kernel)
  rw [Bool.and_eq_true, Option.isSome_iff_exists] at htest
  obtain ⟨hanswers, final, hrun⟩ := htest
  have hfreeze : freezeEventPayload chatAether chatRoom ⟨40⟩ (.app ⟨hostMessage⟩) =
      some (messageFrame messageLayers).payload := by decide
  have hroom : findNode roomClient.runtime.nodes ⟨10⟩ =
      some (syncedRoom hostLinkState clientLinkState [] []) := by decide
  refine ⟨next, final, hstep, hrun, acknowledgedEvent_isIdempotent chatAether_lawful
    (acknowledges_of_effects hdecode hstep (effects_of_answers hanswers)) hstep ?_ hrun
    ⟨fun _ _ _ => payloadIsCanonical_of_freeze chatAether_lawful hfreeze, ?_⟩⟩
  · intro action hmem
    rcases List.mem_cons.mp hmem with rfl | hmem
    · trivial
    · rw [List.mem_singleton.mp hmem]
      trivial
  · intro node record hfound hrecord
    cases hroom.symm.trans hfound
    rw [show findSharedEvent (syncedRoom hostLinkState clientLinkState [] [])
      (messageFrame messageLayers).identity = none by decide] at hrecord
    cases hrecord

end PaddedEvent

end AppTraverse
