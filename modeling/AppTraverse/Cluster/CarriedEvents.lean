import AppTraverse.Admission.JournalInvariant
import AppTraverse.Delivery.PayloadPrivacy
import AppTraverse.Delivery.RecordedEvents
import AppTraverse.Delivery.Retries

/-!
# The shared Events that a packet carries

What a packet brings is read off its bytes: a NodeState frame carries the shared
records of its root object, an Event frame carries one.  Both ends agree on it.  A
freeze writes the identities of the journal it was given, and an import leaves the
Node with exactly the identities of the payload, in that order.
-/

namespace AppTraverse

open Foundations

variable {α ε : Type}

section Carried

variable (aether : Aether α ε)

/-- The shared records of a root object as a payload stores it. -/
def payloadIdentities (payload : Bytes) (nodeId : ObjId) : List SharedEventId :=
  match (deserializeObjectGraph aether payload).bind fun parsed =>
      parsed.find aether nodeId with
  | none => []
  | some object => sharedIdentities object.journal

/-- The shared Events that a packet carries; other bytes are no packet. -/
def carriedIdentities (bytes : Bytes) : Option (List SharedEventId) :=
  match peekSyncFrameType bytes with
  | some .nodeState =>
      (decodeNodeStateFrame bytes).map fun frame =>
        payloadIdentities aether frame.payload frame.targetNodeId
  | some .event =>
      (decodeEventFrame (aether.derives aether.eventClassId) bytes).map fun frame =>
        [frame.identity]
  | _ => none

end Carried

variable {aether : Aether α ε} {app : AppClass α ε}

section Frames

variable {bytes : Bytes}

theorem carriedIdentities_of_nodeState {frame : NodeStateFrame}
    (h : decodeNodeStateFrame bytes = some frame) :
    carriedIdentities aether bytes =
      some (payloadIdentities aether frame.payload frame.targetNodeId) := by
  have hpeek := peekSyncFrameType_encodeNodeStateFrame frame
  rw [(encode_of_decodeNodeStateFrame h).2] at hpeek
  simp [carriedIdentities, hpeek, h]

theorem carriedIdentities_of_event {frame : EventFrame}
    (h : decodeEventFrame (aether.derives aether.eventClassId) bytes = some frame) :
    carriedIdentities aether bytes = some [frame.identity] := by
  have hpeek := peekSyncFrameType_encodeEventFrame frame
  rw [(encode_of_decodeEventFrame h).2] at hpeek
  simp [carriedIdentities, hpeek, h]

theorem packetKeyOf_of_decodeNodeStateFrame {frame : NodeStateFrame}
    (h : decodeNodeStateFrame bytes = some frame) :
    packetKeyOf bytes = some ⟨frame.targetNodeId, frame.destinationShareId, frame.packetId⟩ := by
  rw [← (encode_of_decodeNodeStateFrame h).2]
  exact packetKeyOf_encodeNodeStateFrame frame

theorem packetKeyOf_of_decodeEventFrame {derivesEvent : ClassId → Bool} {frame : EventFrame}
    (h : decodeEventFrame derivesEvent bytes = some frame) :
    packetKeyOf bytes = some ⟨frame.targetNodeId, frame.destinationShareId, frame.packetId⟩ := by
  rw [← (encode_of_decodeEventFrame h).2]
  exact packetKeyOf_encodeEventFrame frame

/-- The bytes of an Event frame decode as no NodeState. -/
theorem decodeNodeStateFrame_encodeEventFrame {frame : EventFrame} {decoded : NodeStateFrame} :
    decodeNodeStateFrame (encodeEventFrame frame) ≠ some decoded := by
  intro hdecode
  have hpeek := peekSyncFrameType_encodeNodeStateFrame decoded
  rw [(encode_of_decodeNodeStateFrame hdecode).2, peekSyncFrameType_encodeEventFrame] at hpeek
  cases hpeek

end Frames

section Identities

variable {node : SharedNode α ε} {identity : SharedEventId}

/-- An identity of the journal finds a record. -/
theorem exists_record_of_mem_sharedIdentities
    (h : identity ∈ sharedIdentities node.journal) :
    ∃ record, findSharedEvent node identity = some record := by
  obtain ⟨record, hrecord, rfl⟩ := List.mem_map.mp h
  obtain ⟨hmem, hshared⟩ := List.mem_filter.mp hrecord
  have horigin : record.identity.originUid ≠ [] := by
    intro hnil
    simp [EventRecord.hasSharedIdentity, hnil] at hshared
  rw [← Option.isSome_iff_exists, findSharedEvent_eq node horigin, List.find?_isSome]
  exact ⟨record, hmem, by simp [isRecordOf, hshared]⟩

/-- A record that an identity finds is one of the shared records. -/
theorem mem_sharedIdentities_of_findSharedEvent {record : EventRecord (SharedNodeEvent ε)}
    (h : findSharedEvent node identity = some record) :
    identity ∈ sharedIdentities node.journal := by
  obtain ⟨hmem, hshared, rfl⟩ := identity_of_findSharedEvent h
  exact List.mem_map_of_mem (List.mem_filter.mpr ⟨hmem, hshared⟩)

/-- Inserting a record adds its identity, if it has one, and no other. -/
theorem sharedIdentities_of_recordInserted {cls : NodeClass (SharedNodeFields α)
    (BaseSnapshot α) (SharedNodeEvent ε)} {added : EventRecord (SharedNodeEvent ε)}
    {nowUs : UInt64} {inserted : SharedNode α ε}
    (h : RecordInserted cls node added nowUs inserted) :
    (sharedIdentities inserted.journal).Perm
      ((if added.hasSharedIdentity then [added.identity] else []) ++
        sharedIdentities node.journal) := by
  have hperm := lowerBoundInsert_perm eventRecordOrderLess (added.stamped nowUs) node.journal
  rw [h.journal, insertedJournal]
  refine ((hperm.filter _).map _).trans ?_
  cases hshared : added.hasSharedIdentity with
  | false => simp [sharedIdentities, stamped_hasSharedIdentity, hshared]
  | true => simp [sharedIdentities, stamped_hasSharedIdentity, hshared, stamped_identity]

/-- Insertions keep identities apart. -/
theorem nodup_of_recordInserted {cls : NodeClass (SharedNodeFields α)
    (BaseSnapshot α) (SharedNodeEvent ε)} {added : EventRecord (SharedNodeEvent ε)}
    {nowUs : UInt64} {inserted : SharedNode α ε}
    (h : RecordInserted cls node added nowUs inserted)
    (honce : (sharedIdentities node.journal).Nodup) :
    (sharedIdentities inserted.journal).Nodup := by
  rw [(sharedIdentities_of_recordInserted h).nodup_iff]
  cases hshared : added.hasSharedIdentity with
  | false => simpa [hshared] using honce
  | true =>
      rw [if_pos rfl, List.singleton_append, List.nodup_cons]
      refine ⟨fun hmem => ?_, honce⟩
      -- A shared record of that identity would have been found by the insertion.
      obtain ⟨record, hrecord, hidentity⟩ := List.mem_map.mp hmem
      obtain ⟨hjournal, hrecordShared⟩ := List.mem_filter.mp hrecord
      have hunknown := h.unknown hshared
      rw [hasRecordWithIdentity, List.any_eq_false] at hunknown
      exact hunknown record hjournal (by simp [hrecordShared, hidentity])

/-- What an operation but a compaction does to a journal: nothing, a record of this replica
only is inserted, or a shared one. -/
theorem journal_of_operation {ids : Nat → ObjId} {nowUs : UInt64}
    {operation : NodeOperation ε} {changed : SharedNode α ε}
    (hkeeps : operation ≠ .compactJournal)
    (h : operation.run app ids nowUs node = .ok changed) :
    changed.journal = node.journal ∨
      (∃ event, RecordInserted (app.nodeClass ids) node
        (localRecord node.journal event nowUs) nowUs changed) ∨
      ∃ event identity order, operation = .commitShared event identity order ∧
        RecordInserted (app.nodeClass ids) node (sharedRecord event identity order nowUs) nowUs
          changed := by
  have hcommit : ∀ {event : Ref (SharedNodeEvent ε)},
      commit (app.nodeClass ids) node event nowUs = .ok changed →
      ∃ event, RecordInserted (app.nodeClass ids) node
        (localRecord node.journal event nowUs) nowUs changed :=
    fun hcommit => ⟨_, (recordInserted_of_commit hcommit).2⟩
  have hsame : (.ok node : Except Fault _) = .ok changed → changed.journal = node.journal := by
    intro h
    cases h
    rfl
  cases operation with
  | addShare link access eventId =>
      simp only [NodeOperation.run, addShare, except_bind_eq_ok_iff] at h
      obtain ⟨-, -, h⟩ := h
      split at h
      case isTrue => exact Or.inl (hsame h)
      case isFalse => exact Or.inr (Or.inl (hcommit h))
  | removeShare linkId eventId =>
      simp only [NodeOperation.run, removeShare, except_bind_eq_ok_iff] at h
      obtain ⟨-, -, h⟩ := h
      split at h
      case h_1 => exact Or.inl (hsame h)
      case h_2 => exact Or.inr (Or.inl (hcommit h))
  | setShareAccess linkId access eventId =>
      simp only [NodeOperation.run, setShareAccess, except_bind_eq_ok_iff] at h
      obtain ⟨-, -, h⟩ := h
      split at h
      case h_1 => cases h
      case h_2 =>
        split at h
        case isTrue => exact Or.inl (hsame h)
        case isFalse => exact Or.inr (Or.inl (hcommit h))
  | commit event => exact Or.inr (Or.inl (hcommit h))
  | commitShared event identity order =>
      exact Or.inr (Or.inr ⟨event, identity, order, rfl, (recordInserted_of_commitShared h).2.2⟩)
  | replayFromBase =>
      obtain ⟨snapshot, applied, -, -, -, rfl⟩ := replayFromBase_keeps h
      exact Or.inl rfl
  | compactJournal => exact absurd rfl hkeeps
  | setJournalRetentionPolicy policy =>
      cases h
      exact Or.inl rfl
  | setJournalCompactionBlocked blocked =>
      cases h
      exact Or.inl rfl

/-- An operation but a compaction adds at most the identity that it commits. -/
theorem sharedIdentities_of_run {ids : Nat → ObjId} {nowUs : UInt64}
    {operation : NodeOperation ε} {changed : SharedNode α ε}
    (hkeeps : operation ≠ .compactJournal)
    (h : operation.run app ids nowUs node = .ok changed)
    (honce : (sharedIdentities node.journal).Nodup) :
    (sharedIdentities changed.journal).Nodup ∧
      ∀ identity ∈ sharedIdentities changed.journal,
        identity ∈ sharedIdentities node.journal ∨
          ∃ event order, operation = .commitShared event identity order := by
  rcases journal_of_operation hkeeps h with hsame | ⟨event, hinserted⟩ |
    ⟨event, committed, order, rfl, hinserted⟩
  · rw [hsame]
    exact ⟨honce, fun identity hidentity => Or.inl hidentity⟩
  · refine ⟨nodup_of_recordInserted hinserted honce, fun identity hidentity => ?_⟩
    rw [(sharedIdentities_of_recordInserted hinserted).mem_iff] at hidentity
    exact Or.inl hidentity
  · refine ⟨nodup_of_recordInserted hinserted honce, fun identity hidentity => ?_⟩
    rw [(sharedIdentities_of_recordInserted hinserted).mem_iff, List.mem_append] at hidentity
    rcases hidentity with hnew | hold
    · split at hnew
      case isTrue => exact Or.inr ⟨event, order, by rw [List.mem_singleton.mp hnew]; rfl⟩
      case isFalse => cases hnew
    · exact Or.inl hold

end Identities

section Frozen

variable {node : SharedNode α ε} {frozen : FrozenNodeState}

/-- What a frozen payload stores under the Node's id is the root that was saved. -/
theorem find_root_of_frozen (hlawful : aether.Lawful)
    (h : freezeNetworkSharedNodeState aether app node = .ok frozen) :
    (deserializeObjectGraph aether frozen.payload).bind
        (fun parsed => parsed.find aether node.objId) =
      some (rootObject .networkShared node) := by
  obtain ⟨-, -, hpayload, -⟩ := frozen_eq h
  have hstate := hlawful.loadState_saveState (buildNetworkSharedScratch aether app node) []
  rw [List.append_nil] at hstate
  simp only [deserializeObjectGraph, hpayload, hstate, Option.bind_eq_bind, Option.bind_some,
    List.isEmpty_nil, if_true]
  exact find_root app hlawful node

theorem sharedIdentities_map_storedRecord (journal : List (EventRecord (SharedNodeEvent ε))) :
    sharedIdentities (journal.map storedRecord) = sharedIdentities journal := by
  rw [sharedIdentities_eq, sharedIdentities_eq, List.map_map]
  rfl

/-- A frozen payload carries the identities of the journal. -/
theorem payloadIdentities_of_freeze (hlawful : aether.Lawful)
    (h : freezeNetworkSharedNodeState aether app node = .ok frozen) :
    payloadIdentities aether frozen.payload node.objId = sharedIdentities node.journal := by
  rw [payloadIdentities, find_root_of_frozen hlawful h]
  exact sharedIdentities_map_storedRecord node.journal

/-- The packet of an initial synchronization carries what it covers. -/
theorem carriedIdentities_initialPacket (hlawful : aether.Lawful)
    (h : freezeNetworkSharedNodeState aether app node = .ok frozen) {eventId shareId : ObjId}
    {carried : List SharedEventId}
    (hcarried : carriedIdentities aether (initialPacket eventId node.objId shareId frozen) =
      some carried) :
    carried = sharedIdentities node.journal := by
  simp only [carriedIdentities, initialPacket, peekSyncFrameType_encodeNodeStateFrame,
    decodeNodeStateFrame_encode] at hcarried
  split at hcarried
  case isTrue =>
    rw [Option.map_some, Option.some.injEq] at hcarried
    rw [← hcarried]
    exact payloadIdentities_of_freeze hlawful h
  case isFalse => cases hcarried

/-- It brings no sync states: the network-shared scope cuts every `LocalPtr`. -/
theorem cutsLocalStates_initialPacket (hlawful : aether.Lawful)
    (h : freezeNetworkSharedNodeState aether app node = .ok frozen) (eventId shareId : ObjId) :
    CutsLocalStates aether (initialPacket eventId node.objId shareId frozen) := by
  intro frame parsed object shared states hdecode hparsed hobject hbody id hid
  rw [initialPacket, decodeNodeStateFrame_encode] at hdecode
  split at hdecode
  case isTrue =>
    cases hdecode
    have hroot := find_root_of_frozen hlawful h
    simp only [hparsed, Option.bind_some] at hroot
    cases hobject.symm.trans hroot
    cases hbody
    obtain ⟨state, -, rfl⟩ := List.mem_map.mp hid
    rfl
  case isFalse => cases hdecode

/-- The packet of an Event carries that Event, as long as its origin fits the frame. -/
theorem carriedIdentities_eventPacket {eventId nodeId shareId : ObjId}
    {record : EventRecord (SharedNodeEvent ε)} {event : SharedNodeEvent ε} {payload : Bytes}
    (hfits : record.identity.originUid.length < 2 ^ 32) {carried : List SharedEventId}
    (hcarried : carriedIdentities aether
      (eventPacket aether app eventId nodeId shareId record event payload) = some carried) :
    carried = [record.identity] := by
  simp only [carriedIdentities, eventPacket, peekSyncFrameType_encodeEventFrame] at hcarried
  rw [decodeEventFrame_encode _ hfits] at hcarried
  split at hcarried
  case isTrue => exact (Option.some.inj hcarried).symm
  case isFalse => cases hcarried

theorem cutsLocalStates_eventPacket (eventId nodeId shareId : ObjId)
    (record : EventRecord (SharedNodeEvent ε)) (event : SharedNodeEvent ε) (payload : Bytes) :
    CutsLocalStates aether
      (eventPacket aether app eventId nodeId shareId record event payload) := by
  intro frame parsed object shared states hdecode
  exact absurd hdecode decodeNodeStateFrame_encodeEventFrame

end Frozen

section Imported

variable {env : StepEnv} {replica : Replica α ε} {sourceEndpoint : Bytes}
  {frame : NodeStateFrame} {imported : ImportedNode α ε}

/-- An imported Node has the identities of the payload. -/
theorem sharedIdentities_of_import (hfresh : ScratchIdsFresh aether env frame.payload)
    (himport : (importValidatedNode aether app env replica sourceEndpoint frame).result =
      .ok (some imported)) :
    sharedIdentities imported.node.journal =
      payloadIdentities aether frame.payload frame.targetNodeId := by
  obtain ⟨parsed, validated, root, hadmission, -⟩ := exists_admission aether app himport
  obtain ⟨candidate, replayed, share, hscratch⟩ :=
    exists_scratchValidation aether app hadmission.scratch
  obtain ⟨object, shared, states, -, hfrom, -⟩ := exists_loadedFrom aether hscratch.load
  obtain ⟨object', shared', states', -, hfrom', -⟩ := exists_loadedFrom aether hadmission.load
  -- Production loads the root from the object of the payload.
  cases (hadmission.find_extends aether app hfresh _ _ hfrom.found).symm.trans hfrom'.found
  obtain ⟨snapshot, applied, -, -, -, hnode⟩ := replayFromBase_keeps hadmission.replay
  have hidentities : root.journal.map EventRecord.identity =
      object.journal.map EventRecord.identity := by
    rw [← List.forall₂_eq_eq_eq, List.forall₂_map_left_iff, List.forall₂_map_right_iff]
    exact hfrom'.journal.flip.imp fun record stored hload => identity_of_loadRecord hload
  have hjournal : imported.node.journal = root.journal := by rw [hnode]
  rw [hjournal, sharedIdentities_eq, hidentities, ← sharedIdentities_eq, payloadIdentities,
    hadmission.parsed_eq, Option.bind_some, hfrom.found]

/-- Whatever the registration does to the sync states, the journal stays. -/
theorem Registration.sharedIdentities {completed registered : SharedNode α ε} {index : Nat}
    {state : LinkSyncState}
    (h : Registration env imported frame completed registered index state)
    (hfresh : ScratchIdsFresh aether env frame.payload)
    (himport : (importValidatedNode aether app env replica sourceEndpoint frame).result =
      .ok (some imported)) :
    AppTraverse.sharedIdentities registered.journal =
      payloadIdentities aether frame.payload frame.targetNodeId := by
  rw [h.sameShared.journal]
  exact sharedIdentities_of_import hfresh himport

end Imported

end AppTraverse
