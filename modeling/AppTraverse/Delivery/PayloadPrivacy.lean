import AppTraverse.Reference.SyncedRoom
import AppTraverse.Storage.GraphWrites
import AppTraverse.Storage.LoadedNode

/-!
# What a network payload reveals

`FreezeNetworkSharedNodeState` writes the objects reachable from a SharedNode in the
network-shared scope, in which every `LocalPtr` is written as the empty reference.
Two Nodes of equal shared state therefore reach the same objects, up to one field: a
journal record is written with all its reflected members, and `retained_since_us`,
which is bookkeeping of the replica, is one of them.
-/

namespace AppTraverse

open Foundations

variable {α ε : Type} {aether : Aether α ε} {app : AppClass α ε}

section Names

/-- The ids that an Event names. -/
def eventNames : SharedNodeEvent ε → List ObjId
  | .addShare link _ => [link.id]
  | .removeShare shareId => [shareId]
  | .changeShareAccess shareId _ => [shareId]
  | .app _ => []

/-- The ids that a list of relationships names. -/
def shareNames (shares : List Share) : List ObjId :=
  shares.flatMap fun share => [share.shareId, share.link.id]

/-- The ids that a journal names. -/
def journalNames (journal : List (EventRecord (SharedNodeEvent ε))) : List ObjId :=
  journal.flatMap fun record =>
    record.event.id :: (record.event.obj.map eventNames).getD []

/-- The ids that the shared state of a Node names. -/
def sharedNames (node : SharedNode α ε) : List ObjId :=
  node.objId :: node.base.id ::
    (journalNames node.journal ++ shareNames node.fields.shares ++
      (node.base.obj.map fun snapshot => shareNames snapshot.shares).getD [])

/-- Every id that a stored object holds. -/
def StoredObject.names (object : StoredObject α ε) : List ObjId :=
  object.base :: (journalNames object.journal ++
    (match object.body with
    | .sharedNode shared linkSyncStates => shareNames shared.shares ++ linkSyncStates
    | .link _ _ => []
    | .linkSyncState state =>
        [state.shareId, state.link, state.pendingInitialPacketId,
          state.receivedInitialPacketId, state.pendingEventPacketId]
    | .event event => eventNames event
    | .other => []) ++ object.otherRefs.map Prod.snd)

theorem eventNames_storedEvent (event : SharedNodeEvent ε) :
    eventNames (storedEvent event) = eventNames event := by
  cases event <;> rfl

theorem shareNames_storedShare (shares : List Share) :
    shareNames (shares.map storedShare) = shareNames shares := by
  simp only [shareNames, List.flatMap_map]
  rfl

/-- A stored journal names the Events only. -/
theorem journalNames_storedRecord (journal : List (EventRecord (SharedNodeEvent ε))) :
    journalNames (journal.map storedRecord) = journal.map fun record => record.event.id := by
  induction journal with
  | nil => rfl
  | cons record rest ih =>
      rw [List.map_cons, journalNames, List.flatMap_cons]
      show record.event.id :: ([] ++ journalNames (rest.map storedRecord)) = _
      rw [List.nil_append, ih]
      rfl

end Names

section Shared

/-- A record without the bookkeeping of its replica. -/
def EventRecord.unretained (record : EventRecord ε) : EventRecord ε :=
  { record with retainedSinceUs := 0 }

/-- Two Nodes that differ only in what is local to their replicas: which sync states
they have, the retention stamps of their records, and the members that are not
stored. -/
structure SameSharedState (node node' : SharedNode α ε) : Prop where
  objId : node'.objId = node.objId
  classId : node'.classId = node.classId
  baseId : node'.base.id = node.base.id
  base : node'.base.obj.map BaseSnapshot.toSharedState =
    node.base.obj.map BaseSnapshot.toSharedState
  baseStates : node'.base.obj.map (fun snapshot => snapshot.linkSyncStates.length) =
    node.base.obj.map fun snapshot => snapshot.linkSyncStates.length
  journal : node'.journal.map EventRecord.unretained =
    node.journal.map EventRecord.unretained
  shares : node'.fields.shares = node.fields.shares
  app : node'.fields.app = node.fields.app
  states : node'.fields.linkSyncStates.length = node.fields.linkSyncStates.length

/-- When the records of a journal began to be retained. -/
def retentionStamps (journal : List (EventRecord (SharedNodeEvent ε))) : List UInt64 :=
  journal.map EventRecord.retainedSinceUs

/-- The payload holds no local sync state, and names no id but those of the shared
state. -/
def NamesOnlyShared (aether : Aether α ε) (node : SharedNode α ε) (payload : Bytes) : Prop :=
  ∀ parsed id layers object, deserializeObjectGraph aether payload = some parsed →
    parsed.layers? id = some layers → aether.loadObject layers = some object →
    (∀ state, object.body ≠ .linkSyncState state) ∧
      ∀ name ∈ id :: object.names, name = .empty ∨ name ∈ sharedNames node

/-- The payloads of two Nodes tell nothing local about either. -/
structure RevealsNothingLocal (aether : Aether α ε) (node node' : SharedNode α ε)
    (frozen frozen' : FrozenNodeState) : Prop where
  payload_eq : frozen'.payload = frozen.payload
  covered_eq : frozen'.coveredEventIds = frozen.coveredEventIds
  names : NamesOnlyShared aether node frozen.payload
  names' : NamesOnlyShared aether node' frozen'.payload

end Shared

section Reached

/-- The object holds no local sync state and names nothing but these ids. -/
def IsSharedObject (names : List ObjId) (entry : ObjId × StoredObject α ε) : Prop :=
  (∀ state, entry.2.body ≠ .linkSyncState state) ∧
    ∀ name ∈ entry.1 :: entry.2.names, name = .empty ∨ name ∈ names

variable {names : List ObjId}

theorem isSharedObject_of_linkObjects {link : Ref Link}
    (hlink : link.id ∈ names) :
    ∀ entry ∈ (linkObjects link : List (ObjId × StoredObject α ε)),
      IsSharedObject names entry := by
  unfold linkObjects
  cases link.obj with
  | none => simp
  | some value =>
      intro entry hentry
      rw [List.mem_singleton.mp hentry]
      refine ⟨by simp, ?_⟩
      simp [StoredObject.names, journalNames, hlink]

theorem isSharedObject_of_eventObjects {event : Ref (SharedNodeEvent ε)}
    (hnames : ∀ name ∈ event.id :: (event.obj.map eventNames).getD [], name ∈ names) :
    ∀ entry ∈ eventObjects aether app event, IsSharedObject names entry := by
  unfold eventObjects
  cases hobj : event.obj with
  | none => simp
  | some value =>
      rw [hobj] at hnames
      simp only [Option.map_some, Option.getD_some, List.forall_mem_cons] at hnames
      intro entry hentry
      rcases List.mem_cons.mp hentry with rfl | hlink
      · refine ⟨by simp, ?_⟩
        simp only [StoredObject.names, journalNames, List.flatMap_nil, List.nil_append,
          eventNames_storedEvent, List.map_nil, List.append_nil, List.forall_mem_cons]
        exact ⟨Or.inr hnames.1, Or.inl trivial, fun name hname => Or.inr (hnames.2 name hname)⟩
      · cases value with
        | addShare link access =>
            exact isSharedObject_of_linkObjects
              (hnames.2 link.id (List.mem_singleton_self _)) entry hlink
        | removeShare shareId => cases hlink
        | changeShareAccess shareId access => cases hlink
        | app event => cases hlink

theorem isSharedObject_of_shareObjects {shares : List Share}
    (hnames : ∀ name ∈ shareNames shares, name ∈ names) :
    ∀ entry ∈ (shareObjects shares : List (ObjId × StoredObject α ε)),
      IsSharedObject names entry := by
  intro entry hentry
  obtain ⟨share, hshare, hlink⟩ := List.mem_flatMap.mp hentry
  apply isSharedObject_of_linkObjects _ entry hlink
  apply hnames
  exact List.mem_flatMap.mpr ⟨share, hshare, by simp⟩

/-- A SharedNode object in the network-shared scope names its base, its Events and its
relationships. -/
theorem isSharedObject_of_sharedNode {id base : ObjId} {classId : ClassId}
    {journal : List (EventRecord (SharedNodeEvent ε))} {shared : SharedState α}
    {states : List ObjId} (hid : id ∈ names) (hbase : base = .empty ∨ base ∈ names)
    (hjournal : ∀ record ∈ journal, record.event.id ∈ names)
    (hshares : ∀ name ∈ shareNames shared.shares, name ∈ names) :
    IsSharedObject names
      (id, ({ classId := classId
              base := base
              journal := journal.map storedRecord
              body := .sharedNode (storedSharedState shared)
                (storedLocalPtrs .networkShared states) } : StoredObject α ε)) := by
  refine ⟨by simp, ?_⟩
  intro name hname
  simp only [StoredObject.names, storedSharedState, shareNames_storedShare,
    journalNames_storedRecord, storedLocalPtrs, List.map_nil, List.append_nil, List.mem_cons,
    List.mem_append, List.mem_map] at hname
  rcases hname with rfl | rfl | ⟨record, hrecord, rfl⟩ | hshare | ⟨state, -, rfl⟩
  · exact Or.inr hid
  · exact hbase
  · exact Or.inr (hjournal record hrecord)
  · exact Or.inr (hshares name hshare)
  · exact Or.inl rfl

end Reached

section Frozen

variable {node node' : SharedNode α ε} {frozen frozen' : FrozenNodeState}

/-- Everything a payload reaches is shared. -/
theorem isSharedObject_of_reachable (node : SharedNode α ε) :
    ∀ entry ∈ reachableObjects aether app .networkShared node,
      IsSharedObject (sharedNames node) entry := by
  have hjournal : ∀ record ∈ node.journal,
      ∀ name ∈ record.event.id :: (record.event.obj.map eventNames).getD [],
        name ∈ sharedNames node := by
    intro record hrecord name hname
    have hmem : name ∈ journalNames node.journal := List.mem_flatMap.mpr ⟨record, hrecord, hname⟩
    simp [sharedNames, hmem]
  have hshares : ∀ name ∈ shareNames node.fields.shares, name ∈ sharedNames node := by
    intro name hname
    simp [sharedNames, hname]
  have hbase : node.base.id ∈ sharedNames node := by simp [sharedNames]
  intro entry hentry
  simp only [reachableObjects, List.append_nil, List.mem_cons, List.mem_append] at hentry
  rcases hentry with rfl | ((hentry | hentry) | hentry)
  · exact isSharedObject_of_sharedNode (by simp [sharedNames]) (Or.inr hbase)
      (fun record hrecord => hjournal record hrecord _ List.mem_cons_self) hshares
  · unfold baseObjects at hentry
    cases hobj : node.base.obj with
    | none =>
        rw [hobj] at hentry
        cases hentry
    | some snapshot =>
        have hsnapshot : ∀ name ∈ shareNames snapshot.shares, name ∈ sharedNames node := by
          intro name hname
          simp [sharedNames, hobj, hname]
        rw [hobj] at hentry
        rcases List.mem_cons.mp hentry with rfl | hshare
        · exact @isSharedObject_of_sharedNode _ _ _ _ _ _ [] _ _ hbase (Or.inl rfl) (by simp)
            hsnapshot
        · exact isSharedObject_of_shareObjects hsnapshot entry hshare
  · obtain ⟨record, hrecord, hevent⟩ := List.mem_flatMap.mp hentry
    exact isSharedObject_of_eventObjects (hjournal record hrecord) entry hevent
  · exact isSharedObject_of_shareObjects hshares entry hentry

/-- What a freeze that returned wrote and read back. -/
theorem frozen_eq (h : freezeNetworkSharedNodeState aether app node = .ok frozen) :
    ∃ loaded, loadSharedNode aether
        ((buildNetworkSharedScratch aether app node).find aether) node.objId =
          .ok (some loaded) ∧
      frozen.payload = aether.saveState (buildNetworkSharedScratch aether app node) ∧
      frozen.coveredEventIds = sharedIdentities loaded.journal := by
  unfold freezeNetworkSharedNodeState at h
  obtain ⟨outcome, hloaded, h⟩ := except_bind_eq_ok_iff.mp h
  cases outcome with
  | none => cases h
  | some loaded =>
      cases h
      exact ⟨loaded, hloaded, rfl, rfl⟩

/-- The payload of a Node names its shared state only. -/
theorem namesOnlyShared_of_freeze (hlawful : aether.Lawful)
    (h : freezeNetworkSharedNodeState aether app node = .ok frozen) :
    NamesOnlyShared aether node frozen.payload := by
  obtain ⟨loaded, -, hpayload, -⟩ := frozen_eq h
  intro parsed id layers object hparse hlayers hobject
  have hstate := hlawful.loadState_saveState (buildNetworkSharedScratch aether app node) []
  rw [List.append_nil] at hstate
  simp only [deserializeObjectGraph, hpayload, hstate, Option.bind_eq_bind, Option.bind_some,
    List.isEmpty_nil, if_true, Option.some.injEq] at hparse
  subst hparse
  obtain ⟨saved, hmem, rfl⟩ := exists_of_layers?_savedObjects aether hlayers
  rw [hlawful.loadObject_saveObject] at hobject
  cases hobject
  exact isSharedObject_of_reachable node _ hmem

/-- A SharedNode is the first object of its own scratch storage. -/
theorem find_root (app : AppClass α ε) (hlawful : aether.Lawful) (node : SharedNode α ε) :
    (buildNetworkSharedScratch aether app node).find aether node.objId =
      some (rootObject .networkShared node) := by
  rw [RamDomainStorage.find, buildNetworkSharedScratch, reachableObjects,
    layers?_savedObjects_head, Option.bind_some, hlawful.loadObject_saveObject]

theorem identity_of_loadRecord {find : ObjectFinder α ε}
    {stored record : EventRecord (SharedNodeEvent ε)}
    (h : loadRecord find stored = .ok record) : record.identity = stored.identity := by
  unfold loadRecord at h
  split at h
  case isTrue =>
    cases h
    rfl
  case isFalse =>
    split at h
    case h_1 =>
      cases h
      rfl
    case h_2 =>
      split at h
      case h_1 =>
        obtain ⟨loaded, -, h⟩ := except_bind_eq_ok_iff.mp h
        cases h
        rfl
      case h_2 => cases h

/-- The shared identities of a journal depend on its identities only. -/
theorem sharedIdentities_eq (journal : List (EventRecord (SharedNodeEvent ε))) :
    sharedIdentities journal = (journal.map EventRecord.identity).filter fun identity =>
      !identity.originUid.isEmpty := by
  rw [List.filter_map]
  rfl

/-- The covered identities are those of the journal. -/
theorem coveredEventIds_eq (hlawful : aether.Lawful)
    (h : freezeNetworkSharedNodeState aether app node = .ok frozen) :
    frozen.coveredEventIds = sharedIdentities node.journal := by
  obtain ⟨loaded, hloaded, -, hcovered⟩ := frozen_eq h
  obtain ⟨object, shared, states, -, hfrom, -⟩ := exists_loadedFrom aether hloaded
  cases (find_root app hlawful node).symm.trans hfrom.found
  have hjournal : loaded.journal.map EventRecord.identity =
      node.journal.map EventRecord.identity := by
    have hloads := hfrom.journal
    rw [show (rootObject .networkShared node).journal = node.journal.map storedRecord from rfl,
      List.forall₂_map_left_iff] at hloads
    rw [← List.forall₂_eq_eq_eq, List.forall₂_map_left_iff, List.forall₂_map_right_iff]
    exact hloads.flip.imp fun record stored hload => identity_of_loadRecord hload
  rw [hcovered, sharedIdentities_eq, sharedIdentities_eq, hjournal]

end Frozen

section TwoRuns

variable {node node' : SharedNode α ε} {frozen frozen' : FrozenNodeState}

/-- A record is its stamp and the rest. -/
theorem journal_eq_of_stamps {journal journal' : List (EventRecord (SharedNodeEvent ε))}
    (h : journal'.map EventRecord.unretained = journal.map EventRecord.unretained)
    (hstamps : retentionStamps journal' = retentionStamps journal) : journal' = journal := by
  induction journal generalizing journal' with
  | nil => exact List.map_eq_nil_iff.mp h
  | cons record rest ih =>
      obtain ⟨record', rest', rfl, hrecord, hrest⟩ := List.map_eq_cons_iff.mp h
      obtain ⟨hstamp, hothers⟩ := List.cons.inj hstamps
      have hsame : record' = record := by
        cases record
        cases record'
        simp only [EventRecord.unretained, EventRecord.mk.injEq] at hrecord hstamp ⊢
        exact ⟨hrecord.1, hrecord.2.1, hrecord.2.2.1, hstamp⟩
      rw [hsame, ih hrest hothers]

theorem storedLocalPtrs_eq {ids ids' : List ObjId} (h : ids'.length = ids.length) :
    storedLocalPtrs .networkShared ids' = storedLocalPtrs .networkShared ids := by
  simp only [storedLocalPtrs, List.map_const', h]

/-- The base snapshots of two such Nodes reach the same objects. -/
theorem baseObjects_eq (h : SameSharedState node node') :
    (baseObjects .networkShared node'.classId node'.base : List (ObjId × StoredObject α ε)) =
      baseObjects .networkShared node.classId node.base := by
  have hbase := h.base
  have hstates := h.baseStates
  unfold baseObjects
  cases hobj : node.base.obj with
  | none =>
      rw [hobj, Option.map_none, Option.map_eq_none_iff] at hbase
      rw [hbase]
  | some snapshot =>
      rw [hobj, Option.map_some] at hbase hstates
      obtain ⟨snapshot', hobj', hshared⟩ := Option.map_eq_some_iff.mp hbase
      rw [hobj', Option.map_some, Option.some.injEq] at hstates
      simp only [hobj', h.baseId, h.classId, hshared, storedLocalPtrs_eq hstates]

/-- Nothing but the retention stamps of the records tells the objects of two such Nodes
apart. -/
theorem reachableObjects_eq (aether : Aether α ε) (app : AppClass α ε)
    (h : SameSharedState node node')
    (hstamps : retentionStamps node'.journal = retentionStamps node.journal) :
    reachableObjects aether app .networkShared node' =
      reachableObjects aether app .networkShared node := by
  have hjournal := journal_eq_of_stamps h.journal hstamps
  have hlength : (node'.fields.linkSyncStates.map Ref.id).length =
      (node.fields.linkSyncStates.map Ref.id).length := by
    rw [List.length_map, List.length_map, h.states]
  have hroot : (rootObject .networkShared node' : StoredObject α ε) =
      rootObject .networkShared node := by
    simp only [rootObject, h.classId, h.baseId, hjournal, h.shares, h.app,
      storedLocalPtrs_eq hlength]
  simp only [reachableObjects, h.objId, hroot, baseObjects_eq h, hjournal, h.shares]

/-- Equal payloads have equal retention stamps. -/
theorem retentionStamps_eq_of_payload (hlawful : aether.Lawful)
    (hid : node'.objId = node.objId)
    (h : freezeNetworkSharedNodeState aether app node = .ok frozen)
    (h' : freezeNetworkSharedNodeState aether app node' = .ok frozen')
    (hpayload : frozen'.payload = frozen.payload) :
    retentionStamps node'.journal = retentionStamps node.journal := by
  obtain ⟨-, -, hsaved, -⟩ := frozen_eq h
  obtain ⟨-, -, hsaved', -⟩ := frozen_eq h'
  rw [hsaved, hsaved'] at hpayload
  have hscratch : buildNetworkSharedScratch aether app node' =
      buildNetworkSharedScratch aether app node := by
    have hload := hlawful.loadState_saveState (buildNetworkSharedScratch aether app node') []
    rw [List.append_nil, hpayload] at hload
    have hload' := hlawful.loadState_saveState (buildNetworkSharedScratch aether app node) []
    rw [List.append_nil] at hload'
    exact (Prod.mk.inj (Option.some.inj (hload.symm.trans hload'))).1
  have hroot := find_root app hlawful node'
  rw [hscratch, hid, find_root app hlawful node] at hroot
  have hjournal := congrArg StoredObject.journal (Option.some.inj hroot)
  have hstamps := congrArg retentionStamps hjournal
  simpa [rootObject, retentionStamps, storedRecord, Function.comp_def] using hstamps.symm

/-- Two Nodes of equal shared state have payloads that reveal nothing local exactly when
their records have been retained since the same times. -/
theorem frozenPayload_revealsNothingLocal_iff (hlawful : aether.Lawful)
    (hshared : SameSharedState node node')
    (h : freezeNetworkSharedNodeState aether app node = .ok frozen)
    (h' : freezeNetworkSharedNodeState aether app node' = .ok frozen') :
    RevealsNothingLocal aether node node' frozen frozen' ↔
      retentionStamps node'.journal = retentionStamps node.journal := by
  constructor
  · intro hreveals
    exact retentionStamps_eq_of_payload hlawful hshared.objId h h' hreveals.payload_eq
  · intro hstamps
    have hreached := reachableObjects_eq aether app hshared hstamps
    have hscratch : buildNetworkSharedScratch aether app node' =
        buildNetworkSharedScratch aether app node := by
      rw [buildNetworkSharedScratch, hreached]
      rfl
    obtain ⟨-, -, hsaved, -⟩ := frozen_eq h
    obtain ⟨-, -, hsaved', -⟩ := frozen_eq h'
    have hidentities : node'.journal.map EventRecord.identity =
        node.journal.map EventRecord.identity := by
      have hmap := congrArg (List.map EventRecord.identity) hshared.journal
      simpa [Function.comp_def, EventRecord.unretained] using hmap
    refine ⟨by rw [hsaved, hsaved', hscratch], ?_, namesOnlyShared_of_freeze hlawful h,
      namesOnlyShared_of_freeze hlawful h'⟩
    rw [coveredEventIds_eq hlawful h, coveredEventIds_eq hlawful h', sharedIdentities_eq,
      sharedIdentities_eq, hidentities]

end TwoRuns

section StampedRooms

/-- A room with one message, whose record is retained since this time. -/
def stampedRoom (hostState clientState : LinkSyncState) (retainedSinceUs : UInt64) :
    SharedNode Messages MessageAddedEvent :=
  syncedRoom hostState clientState
    [messageRecord 16 (message hostEndpoint 1 50 [104, 105]) retainedSinceUs]
    [message hostEndpoint 1 50 [104, 105]]

theorem sameSharedState_stampedRoom (hostState clientState hostState' clientState' : LinkSyncState)
    (stamp stamp' : UInt64) : SameSharedState (stampedRoom hostState clientState stamp)
      (stampedRoom hostState' clientState' stamp') where
  objId := rfl
  classId := rfl
  baseId := rfl
  base := rfl
  baseStates := rfl
  journal := rfl
  shares := rfl
  app := rfl
  states := rfl

theorem exists_frozen_of_isOk (node : SharedNode Messages MessageAddedEvent)
    (h : (freezeNetworkSharedNodeState chatAether chatRoom node).isOk = true) :
    ∃ frozen, freezeNetworkSharedNodeState chatAether chatRoom node = .ok frozen := by
  cases hfrozen : freezeNetworkSharedNodeState chatAether chatRoom node with
  | error reason =>
      rw [hfrozen] at h
      cases h
  | ok frozen => exact ⟨frozen, rfl⟩

/-- The payload tells since when the replica has retained the message. -/
theorem retainedMessage_isRevealed :
    SameSharedState (stampedRoom hostLinkState clientLinkState 60)
      (stampedRoom hostLinkState clientLinkState 61) ∧
    ∃ frozen frozen',
      freezeNetworkSharedNodeState chatAether chatRoom
        (stampedRoom hostLinkState clientLinkState 60) = .ok frozen ∧
      freezeNetworkSharedNodeState chatAether chatRoom
        (stampedRoom hostLinkState clientLinkState 61) = .ok frozen' ∧
      ¬ RevealsNothingLocal chatAether (stampedRoom hostLinkState clientLinkState 60)
        (stampedRoom hostLinkState clientLinkState 61) frozen frozen' := by
  obtain ⟨frozen, hfrozen⟩ := exists_frozen_of_isOk
    (stampedRoom hostLinkState clientLinkState 60) (by decide)
  obtain ⟨frozen', hfrozen'⟩ := exists_frozen_of_isOk
    (stampedRoom hostLinkState clientLinkState 61) (by decide)
  have hshared := sameSharedState_stampedRoom hostLinkState clientLinkState hostLinkState
    clientLinkState 60 61
  refine ⟨hshared, frozen, frozen', hfrozen, hfrozen', ?_⟩
  intro hreveals
  have hstamps := retentionStamps_eq_of_payload chatAether_lawful hshared.objId hfrozen hfrozen'
    hreveals.payload_eq
  exact absurd hstamps (by decide)

/-- Two replicas whose sync states differ freeze the same payload. -/
theorem syncedRooms_revealNothingLocal :
    ∃ frozen frozen',
      freezeNetworkSharedNodeState chatAether chatRoom
        (stampedRoom hostLinkState clientLinkState 60) = .ok frozen ∧
      freezeNetworkSharedNodeState chatAether chatRoom
        (stampedRoom hostLinkState { clientLinkState with initialSyncPhase := .complete } 60) =
          .ok frozen' ∧
      (RevealsNothingLocal chatAether (stampedRoom hostLinkState clientLinkState 60)
        (stampedRoom hostLinkState { clientLinkState with initialSyncPhase := .complete } 60)
        frozen frozen' ↔
      retentionStamps (stampedRoom hostLinkState
          { clientLinkState with initialSyncPhase := .complete } 60).journal =
        retentionStamps (stampedRoom hostLinkState clientLinkState 60).journal) := by
  obtain ⟨frozen, hfrozen⟩ := exists_frozen_of_isOk
    (stampedRoom hostLinkState clientLinkState 60) (by decide)
  obtain ⟨frozen', hfrozen'⟩ := exists_frozen_of_isOk
    (stampedRoom hostLinkState { clientLinkState with initialSyncPhase := .complete } 60)
    (by decide)
  exact ⟨frozen, frozen', hfrozen, hfrozen', frozenPayload_revealsNothingLocal_iff
    chatAether_lawful (sameSharedState_stampedRoom _ _ _ _ _ _) hfrozen hfrozen'⟩

end StampedRooms

end AppTraverse
