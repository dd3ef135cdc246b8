import AppTraverse.Admission.ProductionLoad
import AppTraverse.Cluster.CarriedEvents
import AppTraverse.Storage.SavedNode

/-!
# The contents of shared Events

An identity names an Event.  What the Event is, is its content: the order that it was
committed with and what it stores, whatever id its object has at a replica and whenever
the replica got it.  A journal has contents, and so has a packet; a freeze writes the
contents of the journal it was given, and an import leaves the Node with exactly the
contents of the payload, in that order.
-/

namespace AppTraverse

open Foundations

variable {α ε : Type}

/-- A shared Event, as far as replicas can agree on it. -/
structure SharedContent (ε : Type) where
  identity : SharedEventId
  order : SharedEventOrder
  event : Option (SharedNodeEvent ε)

/-- What a record says, without the id of its Event and the time it is here. -/
def EventRecord.sharedContent (record : EventRecord (SharedNodeEvent ε)) : SharedContent ε :=
  ⟨record.identity, record.order, record.event.obj.map storedEvent⟩

/-- The contents of the shared records of a journal, in journal order. -/
def sharedContents (journal : List (EventRecord (SharedNodeEvent ε))) :
    List (SharedContent ε) :=
  (journal.filter EventRecord.hasSharedIdentity).map EventRecord.sharedContent

@[simp] theorem sharedContent_identity (record : EventRecord (SharedNodeEvent ε)) :
    record.sharedContent.identity = record.identity := rfl

@[simp] theorem sharedContent_stamped (record : EventRecord (SharedNodeEvent ε)) (nowUs : UInt64) :
    (record.stamped nowUs).sharedContent = record.sharedContent := by
  unfold EventRecord.stamped
  split <;> rfl

theorem map_identity_sharedContents (journal : List (EventRecord (SharedNodeEvent ε))) :
    (sharedContents journal).map SharedContent.identity = sharedIdentities journal := by
  rw [sharedContents, List.map_map]
  rfl

theorem mem_sharedContents {journal : List (EventRecord (SharedNodeEvent ε))}
    {content : SharedContent ε} :
    content ∈ sharedContents journal ↔
      ∃ record ∈ journal, record.hasSharedIdentity = true ∧ record.sharedContent = content := by
  simp [sharedContents, and_assoc]

theorem identity_mem_of_mem_sharedContents {journal : List (EventRecord (SharedNodeEvent ε))}
    {content : SharedContent ε} (h : content ∈ sharedContents journal) :
    content.identity ∈ sharedIdentities journal := by
  rw [← map_identity_sharedContents]
  exact List.mem_map_of_mem h

/-- Storing what is stored changes nothing. -/
theorem storedEvent_storedEvent (event : SharedNodeEvent ε) :
    storedEvent (storedEvent event) = storedEvent event := by
  cases event <;> rfl

/-- Records that are loaded with their contents give the same contents. -/
theorem sharedContents_eq_of_forall₂
    {R : EventRecord (SharedNodeEvent ε) → EventRecord (SharedNodeEvent ε) → Prop}
    {records loaded : List (EventRecord (SharedNodeEvent ε))} (h : List.Forall₂ R records loaded)
    (hidentity : ∀ record loaded, R record loaded → loaded.identity = record.identity)
    (hcontent : ∀ record ∈ records, record.hasSharedIdentity = true → ∀ loaded,
      R record loaded → loaded.sharedContent = record.sharedContent) :
    sharedContents loaded = sharedContents records := by
  induction h with
  | nil => rfl
  | @cons record loadedRecord rest restLoaded hrecord _ ih =>
      rw [List.forall_mem_cons] at hcontent
      have hshared : loadedRecord.hasSharedIdentity = record.hasSharedIdentity := by
        rw [EventRecord.hasSharedIdentity, hidentity _ _ hrecord]
        rfl
      have hrest := ih hcontent.2
      simp only [sharedContents, List.filter_cons, hshared] at hrest ⊢
      split
      case isTrue htrue =>
        rw [List.map_cons, List.map_cons, hrest, hcontent.1 htrue _ hrecord]
      case isFalse => exact hrest

/-- Journals of one shape have the same contents. -/
theorem sharedContents_eq_of_shapes {journal journal' : List (EventRecord (SharedNodeEvent ε))}
    (h : journal.map recordShape = journal'.map recordShape) :
    sharedContents journal = sharedContents journal' := by
  have hshape : ∀ records : List (EventRecord (SharedNodeEvent ε)),
      sharedContents (records.map recordShape) = sharedContents records := by
    intro records
    rw [sharedContents, sharedContents, List.filter_map, List.map_map]
    refine List.map_congr_left fun record _ => ?_
    cases hevent : record.event.obj with
    | none => simp [EventRecord.sharedContent, recordShape, hevent]
    | some event =>
        simp [EventRecord.sharedContent, recordShape, hevent, storedEvent_storedEvent]
  rw [← hshape journal, h, hshape]

section Carried

variable (aether : Aether α ε)

/-- The contents of the root that a payload loads. -/
def payloadContents (payload : Bytes) (nodeId : ObjId) : List (SharedContent ε) :=
  match (deserializeObjectGraph aether payload).map fun parsed =>
      loadSharedNode aether (parsed.find aether) nodeId with
  | some (.ok (some candidate)) => sharedContents candidate.journal
  | _ => []

/-- What the root of an Event payload stores. -/
def payloadEvent (payload : Bytes) : Option (SharedNodeEvent ε) := do
  let (parsed, rootId) ← parseEventPayload aether payload
  let object ← parsed.find aether rootId
  match object.body with
  | .event event => some (storedEvent event)
  | _ => none

/-- The content that an Event frame brings. -/
def EventFrame.content (frame : EventFrame) : SharedContent ε :=
  ⟨frame.identity, ⟨frame.timestampUs⟩, payloadEvent aether frame.payload⟩

/-- The contents that a packet carries; other bytes carry none. -/
def carriedContents (bytes : Bytes) : List (SharedContent ε) :=
  match peekSyncFrameType bytes with
  | some .nodeState =>
      match decodeNodeStateFrame bytes with
      | none => []
      | some frame => payloadContents aether frame.payload frame.targetNodeId
  | some .event =>
      match decodeEventFrame (aether.derives aether.eventClassId) bytes with
      | none => []
      | some frame => [frame.content aether]
  | _ => []

end Carried

variable {aether : Aether α ε} {app : AppClass α ε}

section Frames

variable {bytes : Bytes}

theorem carriedContents_of_nodeState {frame : NodeStateFrame}
    (h : decodeNodeStateFrame bytes = some frame) :
    carriedContents aether bytes = payloadContents aether frame.payload frame.targetNodeId := by
  have hpeek := peekSyncFrameType_encodeNodeStateFrame frame
  rw [(encode_of_decodeNodeStateFrame h).2] at hpeek
  simp [carriedContents, hpeek, h]

theorem carriedContents_of_event {frame : EventFrame}
    (h : decodeEventFrame (aether.derives aether.eventClassId) bytes = some frame) :
    carriedContents aether bytes = [frame.content aether] := by
  have hpeek := peekSyncFrameType_encodeEventFrame frame
  rw [(encode_of_decodeEventFrame h).2] at hpeek
  simp [carriedContents, hpeek, h]

theorem map_identity_eq_of_loads {find : ObjectFinder α ε}
    {stored records : List (EventRecord (SharedNodeEvent ε))}
    (h : List.Forall₂ (fun stored record => loadRecord find stored = .ok record) stored records) :
    records.map EventRecord.identity = stored.map EventRecord.identity := by
  rw [← List.forall₂_eq_eq_eq, List.forall₂_map_left_iff, List.forall₂_map_right_iff]
  exact h.flip.imp fun record stored hload => identity_of_loadRecord hload

/-- The contents of a payload are those of its identities. -/
theorem identity_mem_payloadIdentities {payload : Bytes} {nodeId : ObjId}
    {content : SharedContent ε} (h : content ∈ payloadContents aether payload nodeId) :
    content.identity ∈ payloadIdentities aether payload nodeId := by
  unfold payloadContents at h
  split at h
  case h_2 => cases h
  case h_1 candidate hload =>
    obtain ⟨parsed, hparsed, hload⟩ := Option.map_eq_some_iff.mp hload
    obtain ⟨object, shared, states, -, hfrom, -⟩ := exists_loadedFrom aether hload
    have hmem := identity_mem_of_mem_sharedContents h
    rw [sharedIdentities_eq, map_identity_eq_of_loads hfrom.journal, ← sharedIdentities_eq] at hmem
    rw [payloadIdentities, hparsed, Option.bind_some, hfrom.found]
    exact hmem

/-- A packet that carries a content carries its identity. -/
theorem identity_mem_carriedIdentities {content : SharedContent ε}
    (h : content ∈ carriedContents aether bytes) :
    ∃ carried, carriedIdentities aether bytes = some carried ∧ content.identity ∈ carried := by
  unfold carriedContents at h
  split at h
  case h_1 =>
    split at h
    case h_1 => cases h
    case h_2 frame hdecode =>
      exact ⟨_, carriedIdentities_of_nodeState hdecode, identity_mem_payloadIdentities h⟩
  case h_2 =>
    split at h
    case h_1 => cases h
    case h_2 frame hdecode =>
      rw [List.mem_singleton] at h
      exact ⟨_, carriedIdentities_of_event hdecode, by rw [h]; exact List.mem_singleton.mpr rfl⟩
  case h_3 => cases h

end Frames

section Frozen

variable {node : SharedNode α ε} {frozen : FrozenNodeState}

/-- A record whose Event is found where it was saved is loaded with its content. -/
theorem content_of_loadRecord {find : ObjectFinder α ε}
    {record loaded : EventRecord (SharedNodeEvent ε)} (hevent : record.event.IsResolved)
    (hfind : ∀ value, record.event.obj = some value →
      find record.event.id = some { classId := aether.classIdOfEvent app value
                                    body := .event (storedEvent value) })
    (hload : loadRecord find (storedRecord record) = .ok loaded) :
    loaded.sharedContent = record.sharedContent := by
  obtain ⟨value, hvalue⟩ := Ref.isLoaded_iff.mp hevent.loaded
  have hvalid : (storedRecord record).event.isValid = true := hevent.valid
  have hfound : find (storedRecord record).event.id = _ := hfind value hvalue
  simp only [loadRecord, hvalid, hfound, Bool.not_true, Bool.false_eq_true, if_false] at hload
  obtain ⟨event, hloaded, hload⟩ := except_bind_eq_ok_iff.mp hload
  cases hload
  have hstored : storedEvent event = storedEvent value := by
    rw [storedEvent_loadEvent hloaded]
    cases value <;> rfl
  simp [EventRecord.sharedContent, storedRecord, hvalue, hstored]

/-- A frozen payload carries the contents of the journal. -/
theorem payloadContents_of_freeze (hlawful : aether.Lawful)
    (hagree : ObjectsAgree (reachableObjects aether app .networkShared node))
    (hresolved : ∀ record ∈ node.journal, record.hasSharedIdentity = true →
      record.event.IsResolved)
    (h : freezeNetworkSharedNodeState aether app node = .ok frozen) :
    payloadContents aether frozen.payload node.objId = sharedContents node.journal := by
  obtain ⟨loaded, hload, hpayload, -⟩ := frozen_eq h
  have hstate := hlawful.loadState_saveState (buildNetworkSharedScratch aether app node) []
  rw [List.append_nil] at hstate
  have hparsed : deserializeObjectGraph aether frozen.payload =
      some (buildNetworkSharedScratch aether app node) := by
    simp [deserializeObjectGraph, hpayload, hstate]
  rw [payloadContents, hparsed, Option.map_some, hload]
  obtain ⟨object, shared, states, -, hfrom, -⟩ := exists_loadedFrom aether hload
  cases (find_root app hlawful node).symm.trans hfrom.found
  -- The root stores its journal, and every Event of it is found under its id.
  have hfind : ∀ record ∈ node.journal, ∀ value, record.event.obj = some value →
      (buildNetworkSharedScratch aether app node).find aether record.event.id =
        some { classId := aether.classIdOfEvent app value
               body := .event (storedEvent value) } := by
    intro record hrecord value hvalue
    refine findsAll_savedObjects hlawful hagree (record.event.id, _) ?_
    have hown : (record.event.id, ({ classId := aether.classIdOfEvent app value
                                     body := .event (storedEvent value) } : StoredObject α ε)) ∈
        eventObjects aether app record.event := by
      rw [eventObjects, hvalue]
      exact List.mem_cons_self
    simp only [reachableObjects, List.append_nil, List.mem_cons, List.mem_append]
    exact Or.inr (Or.inl (Or.inr (List.mem_flatMap.mpr ⟨record, hrecord, hown⟩)))
  have hjournal := List.forall₂_map_left_iff.mp hfrom.journal
  refine sharedContents_eq_of_forall₂ hjournal
    (fun record loaded hload => identity_of_loadRecord hload)
    fun record hrecord hshared loaded hload => ?_
  exact content_of_loadRecord (hresolved record hrecord hshared) (hfind record hrecord) hload

/-- The packet of an initial synchronization carries the contents of the journal. -/
theorem mem_carriedContents_initialPacket (hlawful : aether.Lawful)
    (hagree : ObjectsAgree (reachableObjects aether app .networkShared node))
    (hresolved : ∀ record ∈ node.journal, record.hasSharedIdentity = true →
      record.event.IsResolved)
    (h : freezeNetworkSharedNodeState aether app node = .ok frozen) {eventId shareId : ObjId}
    {content : SharedContent ε}
    (hmem : content ∈ carriedContents aether (initialPacket eventId node.objId shareId frozen)) :
    content ∈ sharedContents node.journal := by
  simp only [carriedContents, initialPacket, peekSyncFrameType_encodeNodeStateFrame,
    decodeNodeStateFrame_encode] at hmem
  split at hmem
  case h_1 => cases hmem
  case h_2 frame hdecode =>
    split at hdecode
    case isTrue =>
      cases hdecode
      rwa [payloadContents_of_freeze hlawful hagree hresolved h] at hmem
    case isFalse => cases hdecode

/-- A frozen Event stores the Event. -/
theorem payloadEvent_of_freeze (hlawful : aether.Lawful) {eventId : ObjId}
    {event : SharedNodeEvent ε} {payload : Bytes}
    (h : freezeEventPayload aether app eventId event = some payload) :
    payloadEvent aether payload = some (storedEvent event) := by
  have hobjects : eventObjects aether app (⟨eventId, some event⟩ : Ref (SharedNodeEvent ε)) =
      (eventId, { classId := aether.classIdOfEvent app event
                  body := .event (storedEvent event) }) ::
        (eventObjects aether app (⟨eventId, some event⟩ : Ref (SharedNodeEvent ε))).tail := rfl
  have hlayers := layers?_savedObjects_head aether eventId
    ({ classId := aether.classIdOfEvent app event
       body := .event (storedEvent event) } : StoredObject α ε)
    (eventObjects aether app (⟨eventId, some event⟩ : Ref (SharedNodeEvent ε))).tail
  rw [← hobjects] at hlayers
  unfold freezeEventPayload at h
  split at h
  case isTrue => cases h
  case isFalse hvalid =>
    rw [Bool.not_eq_true, Bool.not_eq_false'] at hvalid
    simp only at h
    split at h
    case isTrue => cases h
    case isFalse =>
      split at h
      case isTrue => cases h
      case isFalse =>
        cases h
        have hstate := hlawful.loadState_saveState (savedObjects aether
          (eventObjects aether app (⟨eventId, some event⟩ : Ref (SharedNodeEvent ε)))) []
        rw [List.append_nil] at hstate
        simp [payloadEvent, parseEventPayload, hlawful.loadObjId_saveObjId, hstate, hlayers,
          hvalid, RamDomainStorage.find, hlawful.loadObject_saveObject, storedEvent_storedEvent]

/-- The packet of an Event carries the content of its record. -/
theorem mem_carriedContents_eventPacket (hlawful : aether.Lawful)
    {eventId nodeId shareId : ObjId} {record : EventRecord (SharedNodeEvent ε)}
    {event : SharedNodeEvent ε} {payload : Bytes}
    (hfits : record.identity.originUid.length < 2 ^ 32) (hloaded : record.event.obj = some event)
    (hfrozen : freezeEventPayload aether app record.event.id event = some payload)
    {content : SharedContent ε}
    (hmem : content ∈ carriedContents aether
      (eventPacket aether app eventId nodeId shareId record event payload)) :
    content = record.sharedContent := by
  simp only [carriedContents, eventPacket, peekSyncFrameType_encodeEventFrame] at hmem
  rw [decodeEventFrame_encode _ hfits] at hmem
  split at hmem
  case h_1 => cases hmem
  case h_2 frame hdecode =>
    split at hdecode
    case isTrue =>
      cases hdecode
      rw [List.mem_singleton.mp hmem]
      simp [EventFrame.content, EventRecord.sharedContent, payloadEvent_of_freeze hlawful hfrozen,
        hloaded]
    case isFalse => cases hdecode

end Frozen

section Imported

variable {env : StepEnv} {replica : Replica α ε} {sourceEndpoint : Bytes}

/-- The shared records of a Node have their Events. -/
def EventsAreResolved (node : SharedNode α ε) : Prop :=
  ∀ record ∈ node.journal, record.hasSharedIdentity = true → record.event.IsResolved

theorem isValid_of_loadRecord {find : ObjectFinder α ε}
    {stored record : EventRecord (SharedNodeEvent ε)} (h : loadRecord find stored = .ok record)
    (hloaded : record.event.isLoaded = true) : record.event.isValid = true := by
  unfold loadRecord at h
  split at h
  case isTrue =>
    cases h
    cases hloaded
  case isFalse hvalid =>
    have hvalid : stored.event.isValid = true := by simpa using hvalid
    split at h
    case h_1 =>
      cases h
      cases hloaded
    case h_2 object hfound =>
      split at h
      case h_1 event hbody =>
        obtain ⟨loaded, -, h⟩ := except_bind_eq_ok_iff.mp h
        cases h
        exact hvalid
      case h_2 => cases h

/-- An imported Node has the contents of the payload, with their Events. -/
theorem sharedContents_of_import {frame : NodeStateFrame} {imported : ImportedNode α ε}
    (hfresh : ScratchIdsFresh aether env frame.payload)
    (himport : (importValidatedNode aether app env replica sourceEndpoint frame).result =
      .ok (some imported)) :
    sharedContents imported.node.journal =
        payloadContents aether frame.payload frame.targetNodeId ∧
      EventsAreResolved imported.node := by
  obtain ⟨parsed, candidate, hparsed, hload, hbefore, hshapes⟩ :=
    journal_eq_of_admission aether app hfresh himport
  refine ⟨?_, fun record hrecord _ => ?_⟩
  · rw [sharedContents_eq_of_shapes hshapes, payloadContents, hparsed, Option.map_some, hload]
  · -- The record of the payload is loaded, and what is loaded has an id.
    obtain ⟨original, horiginal, hshape⟩ :=
      List.mem_map.mp (hshapes ▸ List.mem_map_of_mem (f := recordShape) hrecord)
    obtain ⟨object, shared, states, -, hfrom, -⟩ := exists_loadedFrom aether hload
    have hloaded := (recordIsAdmissible_of_mem aether app hbefore horiginal).1
    have hvalid : original.event.isValid = true := by
      obtain ⟨stored, -, hstored⟩ := forall₂_exists_of_mem_right hfrom.journal horiginal
      exact isValid_of_loadRecord hstored hloaded
    obtain ⟨value, hvalue⟩ := Ref.isLoaded_iff.mp hloaded
    have hid := congrArg (fun shape => shape.event.id) hshape
    have hobj := congrArg (fun shape => shape.event.obj) hshape
    simp only [recordShape, hvalue, Option.map_some] at hid hobj
    obtain ⟨found, hfound, -⟩ := Option.map_eq_some_iff.mp hobj.symm
    refine ⟨?_, Ref.isLoaded_iff.mpr ⟨found, hfound⟩⟩
    rw [Ref.isValid, ← hid]
    exact hvalid

/-- An Event is inserted with the content of its frame. -/
theorem content_of_importedEvent {frame : EventFrame} {node inserted : SharedNode α ε}
    {parsed : RamDomainStorage} {wireRootId : ObjId} {localEvent : ImportedEvent ε}
    (hadmissible : EventIsAdmissible aether app replica sourceEndpoint frame node parsed
      wireRootId)
    (hinserted : EventIsInserted aether app env replica frame node parsed wireRootId localEvent
      inserted) (nowUs : UInt64) :
    (sharedRecord ⟨localEvent.id, some localEvent.event⟩ frame.identity ⟨frame.timestampUs⟩
      nowUs).sharedContent = frame.content aether := by
  have hparse : parseEventPayload aether frame.payload = some (parsed, wireRootId) := by
    have hwell := hadmissible.wellFormed
    unfold eventIsWellFormed at hwell
    split at hwell
    case h_1 => cases hwell
    case h_2 graph rootId hparse =>
      rw [hparse]
      split at hwell
      case isTrue => cases hwell
      case isFalse =>
        split at hwell
        case h_1 => cases hwell
        case h_2 object hfound =>
          split at hwell
          case h_1 event hbody =>
            split at hwell
            case isTrue => cases hwell
            case isFalse =>
              cases hwell
              rfl
          case h_2 => cases hwell
  have himported := hinserted.imported
  unfold importStandaloneEventGraph at himported
  split at himported
  case isTrue => cases himported
  case isFalse =>
    obtain ⟨id, -, himported⟩ := except_bind_eq_ok_iff.mp himported
    split at himported
    case h_1 => cases himported
    case h_2 layers hlayers =>
      split at himported
      case h_1 => cases himported
      case h_2 object hobject =>
        split at himported
        case isTrue => cases himported
        case isFalse =>
          split at himported
          case h_1 event hbody =>
            obtain ⟨loaded, hloaded, himported⟩ := except_bind_eq_ok_iff.mp himported
            cases himported
            simp [sharedRecord, EventRecord.sharedContent, EventFrame.content, payloadEvent, hparse,
              RamDomainStorage.find, hlayers, hobject, hbody, storedEvent_loadEvent hloaded]
          case h_2 => cases himported

end Imported

end AppTraverse
