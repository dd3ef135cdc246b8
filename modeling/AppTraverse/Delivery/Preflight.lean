import AppTraverse.Delivery.Redelivery
import AppTraverse.Runtime.SenderRuns
import AppTraverse.Storage.ScratchCopy

/-!
# The preflight of an Event decides its insertion

`OnEvent` inserts an Event into a scratch copy of its target before it touches the target
itself.  The scratch copy and the target are twins, so the insertion into the target does what
the preflight saw, at every historical position, and the assertion of `InsertShared` holds.

Two things the copy does not reproduce.  It has no pending records, while the target applies
its own before a new record at the end.  And an `AddShareEvent` names the relationship after
the id of its own object, which every Domain draws for itself.
-/

namespace AppTraverse

open Foundations

variable {α ε : Type} (aether : Aether α ε) (app : AppClass α ε)

/-- `PreflightHistoricalEventInsertion` with the scratch Node after it. -/
def scratchInsertion (env : ScratchEnv) (nowUs : UInt64) (target : SharedNode α ε)
    (parsed : RamDomainStorage) (wireRootId : ObjId) (expectedEventClassId : ClassId)
    (identity : SharedEventId) (timestampUs : UInt64) :
    Except Fault (Option (SharedNode α ε × Bool)) := do
  let scratch := buildNetworkSharedScratch aether app target
  match ← importStandaloneEventGraph aether parsed wireRootId expectedEventClassId
      env.generated (fun id => (scratch.layers? id).isSome) (scratch.find aether) with
  | none => pure none
  | some candidate =>
      let filled : RamDomainStorage := scratch.insert candidate.id (some candidate.layers)
      match ← loadSharedNode aether (filled.find aether) target.objId with
      | none => pure none
      | some copy => do
          let inserted ← tryCommitShared (app.nodeClass env.ids) copy
            ⟨candidate.id, some candidate.event⟩ identity ⟨timestampUs⟩ nowUs
          pure (some inserted)

/-- The import of the Event of a frame by the receiving Domain. -/
def importFromFrame (env : StepEnv) (replica : Replica α ε) (parsed : RamDomainStorage)
    (wireRootId : ObjId) (frame : EventFrame) : Except Fault (Option (ImportedEvent ε)) :=
  importStandaloneEventGraph aether parsed wireRootId frame.eventClassId env.generated
    (occupiedAtReceiver aether app replica.others replica.runtime.nodes replica.storage)
    (productionFind aether app replica.others replica.runtime.nodes replica.storage)

/-- `InsertShared` of the Event of a frame, as it was imported. -/
def insertFromFrame (env : StepEnv) (node : SharedNode α ε) (localEvent : ImportedEvent ε)
    (frame : EventFrame) : Except Fault (SharedNode α ε) :=
  commitShared (app.nodeClass env.ids) node ⟨localEvent.id, some localEvent.event⟩
    frame.identity ⟨frame.timestampUs⟩ env.nowUs

/-- The preflight of a frame. -/
def preflightFrame (env : StepEnv) (node : SharedNode α ε) (parsed : RamDomainStorage)
    (wireRootId : ObjId) (frame : EventFrame) : Except Fault Bool :=
  preflightHistoricalEventInsertion aether app env.scratch env.nowUs node parsed wireRootId
    frame.eventClassId frame.identity frame.timestampUs

/-- The scratch run of a frame. -/
def scratchOfFrame (env : StepEnv) (node : SharedNode α ε) (parsed : RamDomainStorage)
    (wireRootId : ObjId) (frame : EventFrame) : Except Fault (Option (SharedNode α ε × Bool)) :=
  scratchInsertion aether app env.scratch env.nowUs node parsed wireRootId frame.eventClassId
    frame.identity frame.timestampUs

section Import

variable {aether app}

/-- The preflight answers what its scratch run comes to. -/
theorem preflight_eq_scratchInsertion (env : ScratchEnv) (nowUs : UInt64)
    (target : SharedNode α ε) (parsed : RamDomainStorage) (wireRootId : ObjId)
    (expectedEventClassId : ClassId) (identity : SharedEventId) (timestampUs : UInt64) :
    preflightHistoricalEventInsertion aether app env nowUs target parsed wireRootId
        expectedEventClassId identity timestampUs =
      (fun run => run.any Prod.snd) <$> scratchInsertion aether app env nowUs target parsed
        wireRootId expectedEventClassId identity timestampUs := by
  unfold preflightHistoricalEventInsertion scratchInsertion
  rw [map_bind]
  apply bind_congr
  rintro (_ | candidate)
  · rfl
  show (loadSharedNode _ _ _ >>= _) = _ <$> (loadSharedNode _ _ _ >>= _)
  rw [map_bind]
  apply bind_congr
  rintro (_ | copy)
  · rfl
  show (tryCommitShared _ _ _ _ _ _ >>= _) = _ <$> (tryCommitShared _ _ _ _ _ _ >>= _)
  rw [map_bind]
  rfl

/-- The import of an Event that refers to nothing draws an id and does nothing else. -/
theorem importStandaloneEventGraph_of_event {parsed : RamDomainStorage} {rootId : ObjId}
    {expectedEventClassId : ClassId}
    (hvalid : validateStandaloneEventGraph aether parsed rootId expectedEventClassId = true)
    {object : StoredObject α ε} {event : SharedNodeEvent ε}
    (hobject : parsed.find aether rootId = some object) (hbody : object.body = .event event)
    (hopens : event.opensShare = false) : ∃ layers, ∀ generated occupied find,
      importStandaloneEventGraph aether parsed rootId expectedEventClassId generated occupied
          find =
        (fun id => some ⟨id, layers, event⟩) <$>
          allocateUniqueReceiverObjId generated occupied := by
  obtain ⟨layers, root, hlayers, hroot, hclass⟩ :=
    exists_root_of_validateStandaloneEventGraph aether hvalid
  rw [RamDomainStorage.find, hlayers, Option.bind_some, hroot] at hobject
  cases hobject
  refine ⟨layers, fun generated occupied find => ?_⟩
  unfold importStandaloneEventGraph
  cases allocateUniqueReceiverObjId generated occupied with
  | error reason => simp [hvalid, bind, Except.bind, Functor.map, Except.map]
  | ok id => simp [hvalid, hlayers, hroot, hclass, hbody, loadEvent_of_opensNoShare hopens, bind,
      Except.bind, Functor.map, Except.map, pure, Except.pure]

theorem valid_of_allocated {generated : List ObjId} {occupied : ObjId → Bool} {id : ObjId}
    (h : allocateUniqueReceiverObjId generated occupied = .ok id) :
    id.isValid = true ∧ occupied id = false := by
  unfold allocateUniqueReceiverObjId at h
  split at h
  case h_1 => cases h
  case h_2 found hfound =>
    cases h
    simpa using List.find?_some hfound

theorem exists_allocated {generated : List ObjId} {occupied : ObjId → Bool}
    (h : ∃ id ∈ generated, id.isValid = true ∧ occupied id = false) :
    ∃ id, allocateUniqueReceiverObjId generated occupied = .ok id := by
  obtain ⟨id, hid, hvalid, hfree⟩ := h
  have hsome : (generated.find? fun id => id.isValid && !occupied id).isSome = true := by
    rw [List.find?_isSome]
    exact ⟨id, hid, by rw [hvalid, hfree]; rfl⟩
  obtain ⟨found, hfound⟩ := Option.isSome_iff_exists.mp hsome
  exact ⟨found, by rw [allocateUniqueReceiverObjId, hfound]⟩

end Import

section Prediction

variable {aether app} {env : StepEnv} {replica : Replica α ε} {sourceEndpoint : Bytes}
  {frame : EventFrame} {node : SharedNode α ε} {parsed : RamDomainStorage} {wireRootId : ObjId}

/-- The root of the payload is an Event that opens no relationship. -/
def OpensNoShare (aether : Aether α ε) (parsed : RamDomainStorage) (wireRootId : ObjId) : Prop :=
  ∀ object event, parsed.find aether wireRootId = some object →
    object.body = .event event → event.opensShare = false

/-- What the scratch run of a Node and its twin in production come to. -/
structure ScratchAgrees (inserted scratch : SharedNode α ε) : Prop where
  journal : inserted.journal.map EventRecord.content = scratch.journal.map EventRecord.content
  shared : inserted.fields.shared = scratch.fields.shared

/-- An insertion into the copy succeeds exactly when it does into the Node, with the same
journal and the same shared state. -/
theorem tryCommitShared_networkView (hcopy : NodeIsCopyable aether app node)
    {event : SharedNodeEvent ε} (hopens : event.opensShare = false) {ids ids' : Nat → ObjId}
    {id id' : ObjId} (hid : id.isValid = true) (hid' : id'.isValid = true)
    {identity : SharedEventId} {order : SharedEventOrder} {nowUs : UInt64} :
    (∀ inserted, tryCommitShared (app.nodeClass ids) node ⟨id, some event⟩ identity order nowUs =
        .ok (inserted, true) →
      ∃ scratch, tryCommitShared (app.nodeClass ids') (networkView node) ⟨id', some event⟩
        identity order nowUs = .ok (scratch, true)) ∧
    ∀ scratch, tryCommitShared (app.nodeClass ids') (networkView node) ⟨id', some event⟩
        identity order nowUs = .ok (scratch, true) →
      ∃ inserted, tryCommitShared (app.nodeClass ids) node ⟨id, some event⟩ identity order
        nowUs = .ok (inserted, true) ∧ ScratchAgrees inserted scratch := by
  have htwins := hcopy.twinInsertions hopens ids ids' hid hid' identity order nowUs
  constructor
  · intro inserted hinserted
    obtain ⟨⟨-, horigin, hmatches⟩, hinsert⟩ := tryCommitShared_iff.mp hinserted
    obtain ⟨scratch, hscratch, -, -⟩ := htwins.exists_inserted hinsert
    exact ⟨scratch, tryCommitShared_iff.mpr ⟨⟨hid', horigin, hmatches⟩, hscratch⟩⟩
  · intro scratch hscratch
    obtain ⟨⟨-, horigin, hmatches⟩, hinsert⟩ := tryCommitShared_iff.mp hscratch
    obtain ⟨inserted, hinserted, hjournal, hshared⟩ := htwins.symm.exists_inserted hinsert
    exact ⟨inserted, tryCommitShared_iff.mpr ⟨⟨hid, horigin, hmatches⟩, hinserted⟩, hjournal,
      hshared⟩

/-- The scratch run of an Event that opens no relationship: the insertion into the copy. -/
theorem scratchInsertion_eq (hlawful : aether.Lawful) (hcopy : NodeIsCopyable aether app node)
    {event : SharedNodeEvent ε} {layers : Layers} {scratchEnv : ScratchEnv} {nowUs : UInt64}
    {expectedEventClassId : ClassId} {identity : SharedEventId} {timestampUs : UInt64}
    (himport : ∀ generated occupied find,
      importStandaloneEventGraph aether parsed wireRootId expectedEventClassId generated occupied
          find =
        (fun id => some ⟨id, layers, event⟩) <$>
          allocateUniqueReceiverObjId generated occupied)
    {run : Option (SharedNode α ε × Bool)}
    (h : scratchInsertion aether app scratchEnv nowUs node parsed wireRootId
      expectedEventClassId identity timestampUs = .ok run) :
    ∃ id result, id.isValid = true ∧ run = some result ∧
      tryCommitShared (app.nodeClass scratchEnv.ids) (networkView node) ⟨id, some event⟩
        identity ⟨timestampUs⟩ nowUs = .ok result := by
  unfold scratchInsertion at h
  simp only [himport] at h
  obtain ⟨candidate, hcandidate, h⟩ := except_bind_eq_ok_iff.mp h
  obtain ⟨id, hallocated, rfl⟩ := except_map_eq_ok_iff.mp hcandidate
  obtain ⟨hvalid, hfree⟩ := valid_of_allocated hallocated
  simp only [hcopy.loadSharedNode_filled hlawful hfree] at h
  obtain ⟨copy, hloaded, h⟩ := except_bind_eq_ok_iff.mp h
  cases hloaded
  obtain ⟨result, hresult, h⟩ := except_bind_eq_ok_iff.mp h
  cases h
  exact ⟨id, result, hvalid, rfl, hresult⟩

/-- Where `OnEvent` can assert with an Event that is well formed: in the preflight, or after
it passed. -/
theorem onEvent_faults
    (hfound : findNode replica.runtime.nodes frame.targetNodeId = some node)
    (hwell : eventIsWellFormed aether app node frame = .ok (some (parsed, wireRootId)))
    {reason : Fault}
    (h : (onEvent aether app env replica sourceEndpoint frame).result = .error reason) :
    preflightFrame aether app env node parsed wireRootId frame = .error reason ∨
      preflightFrame aether app env node parsed wireRootId frame = .ok true ∧
        (importFromFrame aether app env replica parsed wireRootId frame = .error reason ∨
          ∃ localEvent,
            importFromFrame aether app env replica parsed wireRootId frame =
              .ok (some localEvent) ∧
            insertFromFrame app env node localEvent frame = .error reason) := by
  unfold onEvent at h
  simp only [hfound] at h
  split at h
  case isTrue => cases h
  case isFalse =>
  split at h
  case isTrue => cases h
  case isFalse =>
  rw [hwell, pureStep_ok_bind] at h
  simp only at h
  split at h
  case h_1 existing hexisting =>
    split at h <;> simp [sendAck] at h
  case h_2 =>
  unfold preflightFrame
  cases hpreflight : preflightHistoricalEventInsertion aether app env.scratch env.nowUs node
      parsed wireRootId frame.eventClassId frame.identity frame.timestampUs with
  | error other =>
      simp [hpreflight] at h
      exact Or.inl (congrArg Except.error h)
  | ok passed =>
      rw [hpreflight, pureStep_ok_bind] at h
      cases passed with
      | false => simp at h
      | true =>
          refine Or.inr ⟨rfl, ?_⟩
          unfold importFromFrame insertFromFrame
          simp only [if_true] at h
          cases himport : importStandaloneEventGraph aether parsed wireRootId
              frame.eventClassId env.generated
              (occupiedAtReceiver aether app replica.others replica.runtime.nodes
                replica.storage)
              (productionFind aether app replica.others replica.runtime.nodes
                replica.storage) with
          | error other =>
              simp [himport] at h
              exact Or.inl (congrArg Except.error h)
          | ok outcome =>
              rw [himport, pureStep_ok_bind] at h
              cases outcome with
              | none => simp at h
              | some localEvent =>
                  refine Or.inr ⟨localEvent, rfl, ?_⟩
                  simp only [perform_bind] at h
                  cases hinsert : commitShared (app.nodeClass env.ids) node
                      ⟨localEvent.id, some localEvent.event⟩ frame.identity
                      ⟨frame.timestampUs⟩ env.nowUs with
                  | error other =>
                      simp [hinsert] at h
                      exact congrArg Except.error h
                  | ok inserted => simp [hinsert, sendAck] at h

/-- The preflight decides the insertion.  For a live Node without pending records and an Event
that opens no relationship: if it passes, the import and `InsertShared` succeed, with the
journal and the shared state of the scratch Node; if it does not, `InsertShared` of the imported
Event would have failed; and `OnEvent` asserts only where the preflight itself does. -/
theorem preflight_predictsInsertion (hlawful : aether.Lawful)
    (hfound : findNode replica.runtime.nodes frame.targetNodeId = some node)
    (hwell : eventIsWellFormed aether app node frame = .ok (some (parsed, wireRootId)))
    (hcopy : NodeIsCopyable aether app node)
    (hopens : OpensNoShare aether parsed wireRootId)
    (hfresh : ∃ id ∈ env.generated, id.isValid = true ∧
      occupiedAtReceiver aether app replica.others replica.runtime.nodes replica.storage id =
        false) :
    (∃ localEvent,
      importFromFrame aether app env replica parsed wireRootId frame = .ok (some localEvent) ∧
      (preflightFrame aether app env node parsed wireRootId frame = .ok true →
        ∃ inserted scratch,
          insertFromFrame app env node localEvent frame = .ok inserted ∧
          scratchOfFrame aether app env node parsed wireRootId frame =
            .ok (some (scratch, true)) ∧
          ScratchAgrees inserted scratch) ∧
      (preflightFrame aether app env node parsed wireRootId frame = .ok false →
        ∀ inserted, insertFromFrame app env node localEvent frame ≠ .ok inserted)) ∧
    ∀ reason, (onEvent aether app env replica sourceEndpoint frame).result = .error reason →
      preflightFrame aether app env node parsed wireRootId frame = .error reason := by
  obtain ⟨hparse, hvalid, object, event, hobject, hbody, -⟩ := eventIsWellFormed_some hwell
  have hkind := hopens object event hobject hbody
  obtain ⟨layers, himport⟩ := importStandaloneEventGraph_of_event hvalid hobject hbody hkind
  obtain ⟨id, hid⟩ := exists_allocated hfresh
  obtain ⟨hidValid, -⟩ := valid_of_allocated hid
  have hlocal : importFromFrame aether app env replica parsed wireRootId frame =
      .ok (some ⟨id, layers, event⟩) := by
    rw [importFromFrame, himport, hid]
    rfl
  have hpasses : preflightFrame aether app env node parsed wireRootId frame = .ok true →
      ∃ inserted scratch,
        insertFromFrame app env node ⟨id, layers, event⟩ frame = .ok inserted ∧
        scratchOfFrame aether app env node parsed wireRootId frame =
          .ok (some (scratch, true)) ∧
        ScratchAgrees inserted scratch := by
    intro hpreflight
    rw [preflightFrame, preflight_eq_scratchInsertion] at hpreflight
    obtain ⟨run, hrun, hany⟩ := except_map_eq_ok_iff.mp hpreflight
    obtain ⟨scratchId, ⟨scratch, ok⟩, hscratchId, rfl, hscratch⟩ :=
      scratchInsertion_eq hlawful hcopy himport hrun
    cases show ok = true from hany
    obtain ⟨inserted, hinserted, hagrees⟩ :=
      (tryCommitShared_networkView hcopy hkind hidValid hscratchId).2 scratch hscratch
    exact ⟨inserted, scratch, commitShared_eq_ok_iff.mpr hinserted, hrun, hagrees⟩
  refine ⟨⟨⟨id, layers, event⟩, hlocal, hpasses, ?_⟩, ?_⟩
  · intro hpreflight inserted hinserted
    rw [preflightFrame, preflight_eq_scratchInsertion] at hpreflight
    obtain ⟨run, hrun, hany⟩ := except_map_eq_ok_iff.mp hpreflight
    obtain ⟨scratchId, ⟨scratch, ok⟩, hscratchId, rfl, hscratch⟩ :=
      scratchInsertion_eq hlawful hcopy himport hrun
    cases show ok = false from hany
    obtain ⟨other, hother⟩ := (tryCommitShared_networkView hcopy hkind hidValid hscratchId).1
      inserted (commitShared_eq_ok_iff.mp hinserted)
    rw [hscratch] at hother
    cases hother
  · intro reason hreason
    rcases onEvent_faults hfound hwell hreason with hpreflight | ⟨hpreflight, hlater⟩
    · exact hpreflight
    · obtain ⟨inserted, scratch, hinserted, -, -⟩ := hpasses hpreflight
      rcases hlater with hno | ⟨localEvent, hlocal', hno⟩
      · rw [hlocal] at hno
        cases hno
      · rw [hlocal] at hlocal'
        cases hlocal'
        rw [hinserted] at hno
        cases hno

/-- A Node that only its own calls changed, in a Domain where one id names one object. -/
theorem NodeIsCopyable.of_namesObjects {links : ObjId → Option Link}
    {history : TopologyHistory α ε} (h : NamesObjects links history.node)
    (htopology : TopologyInvariant app history)
    (hclass : aether.derives aether.nodeClassId history.node.classId = true) :
    NodeIsCopyable aether app history.node where
  resolved := nodeIsResolved_of_namesObjects h htopology
  agree := objectsAgree_of_namesObjects h htopology
  class_derives := hclass
  searchable entry hentry _ := (htopology.states.usable entry hentry).2
  materialized := htopology.materialized

end Prediction

section Rooms

/-- The Event of a frame is well formed for its Node, and `test` holds of both. -/
def holdsOfFrame (replica : Replica Messages MessageAddedEvent) (frame : EventFrame)
    (test : SharedNode Messages MessageAddedEvent → RamDomainStorage → ObjId → Bool) : Bool :=
  match findNode replica.runtime.nodes frame.targetNodeId with
  | none => false
  | some node =>
      match eventIsWellFormed chatAether chatRoom node frame with
      | .ok (some (parsed, wireRootId)) => test node parsed wireRootId
      | _ => false

theorem exists_ofFrame {replica : Replica Messages MessageAddedEvent} {frame : EventFrame}
    {test : SharedNode Messages MessageAddedEvent → RamDomainStorage → ObjId → Bool}
    (h : holdsOfFrame replica frame test = true) :
    ∃ node parsed wireRootId, findNode replica.runtime.nodes frame.targetNodeId = some node ∧
      eventIsWellFormed chatAether chatRoom node frame = .ok (some (parsed, wireRootId)) ∧
      test node parsed wireRootId = true := by
  unfold holdsOfFrame at h
  split at h
  case h_1 => cases h
  case h_2 node hfound =>
    split at h
    case h_1 parsed wireRootId hwell => exact ⟨node, parsed, wireRootId, hfound, hwell, h⟩
    case h_2 => cases h

/-- The room of the client, with a message without text that was put into its journal and
not applied. -/
def pendingRoom : SharedNode Messages MessageAddedEvent :=
  { syncedRoom hostLinkState clientLinkState
      [messageRecord 30 (message clientEndpoint 1 40 []) 1] [] with
    appliedJournalSize := some 2 }

/-- The room after the relationship of the client was closed. -/
def leftRoom : SharedNode Messages MessageAddedEvent :=
  let room := syncedRoom hostLinkState clientLinkState
    [⟨⟨⟨16⟩, some (.removeShare ⟨15⟩)⟩, {}, ⟨3⟩, 1⟩] []
  { room with fields := { room.fields with
      shares := [⟨⟨14⟩, roomLink 12 hostEndpoint, ShareAccess.readWrite⟩]
      linkSyncStates := [⟨⟨20⟩, some hostLinkState⟩] } }

/-- An Event that shares the room with the client again. -/
def shareFrame : EventFrame where
  packetId := ⟨70⟩
  targetNodeId := ⟨10⟩
  destinationShareId := ⟨14⟩
  eventClassId := addShareEventClassId
  identity := ⟨hostEndpoint, 2⟩
  timestampUs := 60
  payload := chatAether.saveObjId ⟨40⟩ ++ chatAether.saveState
    (messageStorage (eventLayers chatAether chatRoom (addShareOf 13)))

/-- The Event was imported, and `test` holds of it. -/
def holdsOfImported (replica : Replica Messages MessageAddedEvent) (frame : EventFrame)
    (parsed : RamDomainStorage) (wireRootId : ObjId)
    (test : ImportedEvent MessageAddedEvent → Bool) : Bool :=
  match importFromFrame chatAether chatRoom (receiverEnv true) replica parsed wireRootId frame with
  | .ok (some localEvent) => test localEvent
  | _ => false

theorem exists_imported_ofFrame {replica : Replica Messages MessageAddedEvent}
    {frame : EventFrame} {parsed : RamDomainStorage} {wireRootId : ObjId}
    {test : ImportedEvent MessageAddedEvent → Bool}
    (h : holdsOfImported replica frame parsed wireRootId test = true) :
    ∃ localEvent, importFromFrame chatAether chatRoom (receiverEnv true) replica parsed
      wireRootId frame = .ok (some localEvent) ∧ test localEvent = true := by
  unfold holdsOfImported at h
  split at h
  case h_1 localEvent himport => exact ⟨localEvent, himport, h⟩
  case h_2 => cases h

/-- Both runs of the frame succeeded, with different relationships. -/
def sharesDiffer (node : SharedNode Messages MessageAddedEvent) (parsed : RamDomainStorage)
    (wireRootId : ObjId) (frame : EventFrame) (localEvent : ImportedEvent MessageAddedEvent) :
    Bool :=
  match scratchOfFrame chatAether chatRoom (receiverEnv true) node parsed wireRootId frame,
      insertFromFrame chatRoom (receiverEnv true) node localEvent frame with
  | .ok (some (scratch, true)), .ok inserted =>
      decide (inserted.fields.shares ≠ scratch.fields.shares)
  | _, _ => false

theorem exists_runs_of_sharesDiffer {node : SharedNode Messages MessageAddedEvent}
    {parsed : RamDomainStorage} {wireRootId : ObjId} {frame : EventFrame}
    {localEvent : ImportedEvent MessageAddedEvent}
    (h : sharesDiffer node parsed wireRootId frame localEvent = true) :
    ∃ inserted scratch,
      insertFromFrame chatRoom (receiverEnv true) node localEvent frame = .ok inserted ∧
      scratchOfFrame chatAether chatRoom (receiverEnv true) node parsed wireRootId frame =
        .ok (some (scratch, true)) ∧
      inserted.fields.shares ≠ scratch.fields.shares := by
  unfold sharesDiffer at h
  split at h
  case h_1 scratch inserted hscratch hinserted =>
    exact ⟨inserted, scratch, hinserted, hscratch, of_decide_eq_true h⟩
  case h_2 => cases h

/-- The root of the payload is a message. -/
def isMessage (parsed : RamDomainStorage) (wireRootId : ObjId) : Bool :=
  match (parsed.find chatAether wireRootId).map StoredObject.body with
  | some (.event (.app _)) => true
  | _ => false

theorem opensNoShare_of_isMessage {parsed : RamDomainStorage} {wireRootId : ObjId}
    (h : isMessage parsed wireRootId = true) : OpensNoShare chatAether parsed wireRootId := by
  intro object event hobject hbody
  rw [isMessage, hobject, Option.map_some, hbody] at h
  cases event with
  | app message => rfl
  | addShare link access => cases h
  | removeShare shareId => rfl
  | changeShareAccess shareId access => rfl

/-- The room of the client has no pending record and all of its objects. -/
theorem syncedRoom_isCopyable : NodeIsCopyable chatAether chatRoom
    (syncedRoom hostLinkState clientLinkState [] []) where
  resolved := {
    objId := rfl
    base := ⟨rfl, rfl⟩
    baseShares := by
      intro snapshot hsnapshot share hshare
      cases hsnapshot
      cases hshare
    events := by
      intro record hrecord
      simp only [syncedRoom, List.mem_cons, List.not_mem_nil, or_false] at hrecord
      rcases hrecord with rfl | rfl <;> exact ⟨rfl, rfl⟩
    eventLinks := by
      intro record hrecord event hevent link access hadd
      simp only [syncedRoom, List.mem_cons, List.not_mem_nil, or_false] at hrecord
      rcases hrecord with rfl | rfl <;> cases hevent <;> cases hadd <;> exact ⟨rfl, rfl⟩
    shares := by
      intro share hshare
      simp only [syncedRoom, List.mem_cons, List.not_mem_nil, or_false] at hshare
      rcases hshare with rfl | rfl <;> exact ⟨rfl, rfl⟩ }
  agree := by
    unfold ObjectsAgree
    decide +kernel
  class_derives := by decide +kernel
  searchable := by
    unfold StatesSearchable
    decide
  materialized := rfl

/-- A message of the host is inserted by the client as its preflight said. -/
theorem message_isPredicted : ∃ node parsed wireRootId localEvent inserted scratch,
    findNode roomClient.runtime.nodes ⟨10⟩ = some node ∧
    importFromFrame chatAether chatRoom (receiverEnv true) roomClient parsed wireRootId
      (messageFrame messageLayers) = .ok (some localEvent) ∧
    insertFromFrame chatRoom (receiverEnv true) node localEvent (messageFrame messageLayers) =
      .ok inserted ∧
    ScratchAgrees inserted scratch := by
  obtain ⟨node, parsed, wireRootId, hfound, hwell, htest⟩ := exists_ofFrame
    (show holdsOfFrame roomClient (messageFrame messageLayers) (fun node parsed wireRootId =>
      decide (node = syncedRoom hostLinkState clientLinkState [] []) &&
        decide (preflightFrame chatAether chatRoom (receiverEnv true) node parsed wireRootId
          (messageFrame messageLayers) = .ok true) &&
        isMessage parsed wireRootId) = true by decide +kernel)
  simp only [Bool.and_eq_true, decide_eq_true_eq] at htest
  obtain ⟨⟨rfl, hpreflight⟩, hmessage⟩ := htest
  obtain ⟨⟨localEvent, himport, hpasses, -⟩, -⟩ :=
    @preflight_predictsInsertion _ _ chatAether chatRoom (receiverEnv true) roomClient
      hostEndpoint _ _ parsed wireRootId chatAether_lawful hfound hwell syncedRoom_isCopyable
      (opensNoShare_of_isMessage hmessage) ⟨⟨3000⟩, by decide, by decide, by decide +kernel⟩
  obtain ⟨inserted, scratch, hinserted, -, hagrees⟩ := hpasses hpreflight
  exact ⟨_, parsed, wireRootId, localEvent, inserted, scratch, hfound, himport, hinserted,
    hagrees⟩

/-- With a pending record the preflight passes and `OnEvent` asserts in `InsertShared`; and an
Event that opens a relationship opens another one in the scratch Domain. -/
theorem preflight_missesPendingAndShare :
    (∃ node parsed wireRootId,
      findNode (roomReplica clientEndpoint pendingRoom).runtime.nodes ⟨10⟩ = some node ∧
      eventIsWellFormed chatAether chatRoom node (messageFrame messageLayers) =
        .ok (some (parsed, wireRootId)) ∧
      preflightFrame chatAether chatRoom (receiverEnv true) node parsed wireRootId
        (messageFrame messageLayers) = .ok true ∧
      ∃ localEvent, importFromFrame chatAether chatRoom (receiverEnv true)
          (roomReplica clientEndpoint pendingRoom) parsed wireRootId
          (messageFrame messageLayers) = .ok (some localEvent) ∧
        insertFromFrame chatRoom (receiverEnv true) node localEvent
          (messageFrame messageLayers) = .error .assertFailed) ∧
    ∃ node parsed wireRootId,
      findNode (roomReplica clientEndpoint leftRoom).runtime.nodes ⟨10⟩ = some node ∧
      eventIsWellFormed chatAether chatRoom node shareFrame = .ok (some (parsed, wireRootId)) ∧
      preflightFrame chatAether chatRoom (receiverEnv true) node parsed wireRootId shareFrame =
        .ok true ∧
      ∃ localEvent, importFromFrame chatAether chatRoom (receiverEnv true)
          (roomReplica clientEndpoint leftRoom) parsed wireRootId shareFrame =
            .ok (some localEvent) ∧
        ∃ inserted scratch,
          insertFromFrame chatRoom (receiverEnv true) node localEvent shareFrame =
            .ok inserted ∧
          scratchOfFrame chatAether chatRoom (receiverEnv true) node parsed wireRootId
            shareFrame = .ok (some (scratch, true)) ∧
          inserted.fields.shares ≠ scratch.fields.shares := by
  constructor
  · obtain ⟨node, parsed, wireRootId, hfound, hwell, htest⟩ := exists_ofFrame
      (show holdsOfFrame (roomReplica clientEndpoint pendingRoom) (messageFrame messageLayers)
        (fun node parsed wireRootId =>
          decide (preflightFrame chatAether chatRoom (receiverEnv true) node parsed wireRootId
            (messageFrame messageLayers) = .ok true) &&
          holdsOfImported (roomReplica clientEndpoint pendingRoom) (messageFrame messageLayers)
            parsed wireRootId fun localEvent =>
              decide (insertFromFrame chatRoom (receiverEnv true) node localEvent
                (messageFrame messageLayers) = .error .assertFailed)) = true by decide +kernel)
    obtain ⟨hpreflight, himported⟩ := Bool.and_eq_true_iff.mp htest
    obtain ⟨localEvent, himport, hasserts⟩ := exists_imported_ofFrame himported
    exact ⟨node, parsed, wireRootId, hfound, hwell, of_decide_eq_true hpreflight, localEvent,
      himport, of_decide_eq_true hasserts⟩
  · obtain ⟨node, parsed, wireRootId, hfound, hwell, htest⟩ := exists_ofFrame
      (show holdsOfFrame (roomReplica clientEndpoint leftRoom) shareFrame
        (fun node parsed wireRootId =>
          decide (preflightFrame chatAether chatRoom (receiverEnv true) node parsed wireRootId
            shareFrame = .ok true) &&
          holdsOfImported (roomReplica clientEndpoint leftRoom) shareFrame parsed wireRootId
            (sharesDiffer node parsed wireRootId shareFrame)) = true by decide +kernel)
    obtain ⟨hpreflight, himported⟩ := Bool.and_eq_true_iff.mp htest
    obtain ⟨localEvent, himport, hdiffer⟩ := exists_imported_ofFrame himported
    exact ⟨node, parsed, wireRootId, hfound, hwell, of_decide_eq_true hpreflight, localEvent,
      himport, exists_runs_of_sharesDiffer hdiffer⟩

end Rooms

end AppTraverse
