import AppTraverse.Delivery.SyncOutcomes
import AppTraverse.Delivery.LinkSyncRuns
import AppTraverse.Reference.SyncedRoom
import AppTraverse.Runtime.NodeRuns

/-!
# What of a journal can be delivered

Three gates have to agree about a shared record: `TryCommitShared` lets it into the
journal, `SyncNextEvent` selects it and filters by class, and `DecodeEventFrame`
decides whether the peer reads it.  The first asks for a non-empty origin and a
timestamp only.  The second looks at one record, the first undelivered one, whatever
its class.  The third also asks for a sequence number and a short origin.  So what is
delivered is decided by the first undelivered record alone.
-/

namespace AppTraverse

open Foundations

variable {α ε : Type}

section Definitions

variable (aether : Aether α ε) (app : AppClass α ε)

/-- A shared record of an allowed class that this Share has not delivered, and that did
not originate at its destination. -/
structure IsDeliverable (runtime : SharedSyncRuntime α ε) (state : LinkSyncState)
    (destination : Bytes) (record : EventRecord (SharedNodeEvent ε)) : Prop where
  shared : record.hasSharedIdentity = true
  undelivered : state.hasDelivered record.identity = false
  foreign : record.identity.originUid ≠ destination
  allowed : ∃ event, record.event.obj = some event ∧
    aether.classIdOfEvent app event ∈ runtime.standaloneEventClasses

/-- The frame of a record. -/
def recordFrame (eventId nodeId shareId : ObjId) (record : EventRecord (SharedNodeEvent ε))
    (event : SharedNodeEvent ε) (payload : Bytes) : EventFrame :=
  ⟨eventId, nodeId, shareId, record.identity, record.order.timestampUs,
    aether.classIdOfEvent app event, payload⟩

/-- `SyncNextEvent` freezes a deliverable record, sends its frame, and the frame decodes
to itself. -/
structure DeliversNext (env : StepEnv) (runtime : SharedSyncRuntime α ε)
    (nodeId shareId : ObjId) (node : SharedNode α ε) (destination : Bytes) (index : Nat)
    (state : LinkSyncState) (record : EventRecord (SharedNodeEvent ε))
    (event : SharedNodeEvent ε) (payload : Bytes) (committed : SharedNode α ε)
    (state' : LinkSyncState) : Prop where
  mem : record ∈ node.journal
  deliverable : IsDeliverable aether app runtime state destination record
  loaded : record.event.obj = some event
  returned : (syncNextEvent aether app env runtime nodeId shareId).result =
    .ok { runtime with nodes := replaceNode runtime.nodes committed }
  effects : (syncNextEvent aether app env runtime nodeId shareId).effects =
    [.saveNode committed, .send destination
      (encodeEventFrame (recordFrame aether app env.eventId nodeId shareId record event
        payload))]
  frozen : linkSyncStateAt committed index = .ok state' ∧
    state'.pendingEventIdentity = record.identity
  accepted : decodeEventFrame (aether.derives aether.eventClassId)
      (encodeEventFrame (recordFrame aether app env.eventId nodeId shareId record event
        payload)) =
    some (recordFrame aether app env.eventId nodeId shareId record event payload)

/-- All three gates pass the first undelivered record: its class is allowed, its
identity fits into a frame, and its Event freezes to a payload that does. -/
structure FirstPasses (runtime : SharedSyncRuntime α ε) (node : SharedNode α ε)
    (destination : Bytes) (state : LinkSyncState) (record : EventRecord (SharedNodeEvent ε))
    (event : SharedNodeEvent ε) (payload : Bytes) : Prop where
  next : nextUndeliveredSharedEvent node.journal state destination = some record
  loaded : record.event.obj = some event
  allowed : aether.classIdOfEvent app event ∈ runtime.standaloneEventClasses
  originUid : record.identity.originUid.length ≤ kMaxOriginUidBytes.toNat
  originSequence : record.identity.originSequence ≠ 0
  frozen : freezeEventPayload aether app record.event.id event = some payload
  payload : payload.length < 2 ^ 32

end Definitions

variable {aether : Aether α ε} {app : AppClass α ε}

section Gates

variable {env : StepEnv} {runtime : SharedSyncRuntime α ε} {nodeId shareId : ObjId}
  {node : SharedNode α ε} {destination : Bytes} {index : Nat} {state : LinkSyncState}
  {record : EventRecord (SharedNodeEvent ε)} {event : SharedNodeEvent ε} {payload : Bytes}

/-- What the surroundings promise a synchronization call: ids of objects are valid, and
only Event classes are allowed. -/
structure CallIsValid (aether : Aether α ε) (env : StepEnv) (runtime : SharedSyncRuntime α ε)
    (nodeId shareId : ObjId) : Prop where
  eventId : env.eventId.isValid = true
  nodeId : nodeId.isValid = true
  shareId : shareId.isValid = true
  classes : ∀ classId ∈ runtime.standaloneEventClasses,
    classId ≠ 0 ∧ aether.derives aether.eventClassId classId = true

/-- `AllowStandaloneEventClass` allows Event classes only. -/
theorem classes_of_allowStandaloneEventClass (classId : ClassId)
    (h : ∀ allowed ∈ runtime.standaloneEventClasses,
      allowed ≠ 0 ∧ aether.derives aether.eventClassId allowed = true) :
    ∀ allowed ∈ (allowStandaloneEventClass aether runtime classId).standaloneEventClasses,
      allowed ≠ 0 ∧ aether.derives aether.eventClassId allowed = true := by
  unfold allowStandaloneEventClass
  split
  case isTrue => exact h
  case isFalse hnew =>
    simp only [Bool.or_eq_true, decide_eq_true_eq, Bool.not_eq_true', not_or,
      Bool.not_eq_false] at hnew
    intro allowed hallowed
    rcases List.mem_append.mp hallowed with hold | hadded
    · exact h allowed hold
    · rw [List.mem_singleton.mp hadded]
      exact hnew.1

/-- What the decoder asks of a frame. -/
theorem isReadable_eq_true_iff {derivesEvent : ClassId → Bool} {frame : EventFrame} :
    frame.isReadable derivesEvent = true ↔
      (frame.packetId.isValid = true ∧ frame.targetNodeId.isValid = true ∧
        frame.destinationShareId.isValid = true) ∧
      (frame.identity.originUid ≠ [] ∧
        frame.identity.originUid.length ≤ kMaxOriginUidBytes.toNat ∧
        frame.identity.originSequence ≠ 0) ∧ frame.timestampUs ≠ 0 ∧
      (frame.eventClassId ≠ 0 ∧ derivesEvent frame.eventClassId = true) ∧
      frame.payload.length < 2 ^ 32 := by
  simp [EventFrame.isReadable, and_assoc]

/-- The frame of a shared record is readable when its identity and its payload fit. -/
theorem isReadable_recordFrame_iff (payload : Bytes)
    (hcall : CallIsValid aether env runtime nodeId shareId)
    (hcommitted : IsCommitted record) (hshared : record.hasSharedIdentity = true)
    (hallowed : aether.classIdOfEvent app event ∈ runtime.standaloneEventClasses) :
    (recordFrame aether app env.eventId nodeId shareId record event payload).isReadable
        (aether.derives aether.eventClassId) = true ↔
      record.identity.originUid.length ≤ kMaxOriginUidBytes.toNat ∧
        record.identity.originSequence ≠ 0 ∧ payload.length < 2 ^ 32 := by
  obtain ⟨hclass, hderives⟩ := hcall.classes _ hallowed
  have hshared' : record.identity.originUid ≠ [] := by
    simpa [EventRecord.hasSharedIdentity] using hshared
  rw [isReadable_eq_true_iff]
  constructor
  · rintro ⟨-, ⟨-, hshort, hsequence⟩, -, -, hpayload⟩
    exact ⟨hshort, hsequence, hpayload⟩
  · rintro ⟨hshort, hsequence, hpayload⟩
    exact ⟨⟨hcall.eventId, hcall.nodeId, hcall.shareId⟩, ⟨hshared', hshort, hsequence⟩,
      hcommitted.timestamp, ⟨hclass, hderives⟩, hpayload⟩

/-- A commit on one sync state changes that state. -/
theorem linkSyncStateAt_setLinkSyncStateAt_self {committed : LinkSyncState}
    (h : linkSyncStateAt node index = .ok state) :
    linkSyncStateAt (setLinkSyncStateAt node index committed) index = .ok committed := by
  obtain ⟨entry, hentry, -⟩ := Option.bind_eq_some_iff.mp (linkSyncStateAt_eq_ok_iff.mp h)
  rw [linkSyncStateAt_eq_ok_iff]
  simp [setLinkSyncStateAt, hentry]

/-- A Begin Event on a state that is complete and idle is committed. -/
theorem commit_beginIncrementalEventSync {identity : SharedEventId} {packet : Bytes}
    (hstate : linkSyncStateAt node index = .ok state)
    (hcomplete : state.initialSyncPhase = .complete) (hidle : state.hasPendingEvent = false)
    (hshared : identity.originUid ≠ []) (hpacket : packet ≠ []) (eventId : ObjId) :
    ∃ committed state',
      commitLinkSyncEvent node index eventId (.beginIncrementalEventSync identity packet) =
        .ok committed ∧
      linkSyncStateAt committed index = .ok state' ∧ state'.pendingEventIdentity = identity := by
  have hcommit : state.commit eventId (.beginIncrementalEventSync identity packet) =
      .ok { state with
        pendingEventPacketId := eventId
        pendingEventIdentity := identity
        pendingEventPacket := packet } := by
    simp [LinkSyncState.commit, LinkSyncState.canApply, LinkSyncState.apply, hcomplete, hidle,
      hshared, hpacket, assertThat, bind, Except.bind, pure, Except.pure]
  exact ⟨_, _, commitLinkSyncEvent_eq_ok_iff.mpr ⟨state, _, hstate, hcommit, rfl⟩,
    linkSyncStateAt_setLinkSyncStateAt_self hstate, rfl⟩

/-- The identity that a Begin Event leaves pending. -/
theorem pendingEventIdentity_of_begun {committed : SharedNode α ε} {state' : LinkSyncState}
    {identity : SharedEventId} {packet : Bytes} {eventId : ObjId}
    (hcommit : commitLinkSyncEvent node index eventId
      (.beginIncrementalEventSync identity packet) = .ok committed)
    (hstate' : linkSyncStateAt committed index = .ok state') :
    state'.pendingEventIdentity = identity := by
  obtain ⟨before, after, hbefore, hafter, rfl⟩ := commitLinkSyncEvent_eq_ok_iff.mp hcommit
  rw [linkSyncStateAt_setLinkSyncStateAt_self hbefore] at hstate'
  cases hstate'
  simp only [LinkSyncState.commit, LinkSyncState.apply, except_bind_eq_ok_iff] at hafter
  obtain ⟨-, -, -, -, -, -, -, -, -, -, hafter⟩ := hafter
  cases hafter
  rfl

/-- `SyncNextEvent` with a record that can be frozen. -/
theorem syncNextEvent_of_frozen {committed : SharedNode α ε}
    (hdestination : IsSyncDestination runtime nodeId shareId node destination index state)
    (hcomplete : state.initialSyncPhase = .complete) (hidle : state.hasPendingEvent = false)
    (hfrozen : RecordIsFrozen aether app runtime node state destination record event payload)
    (hcommit : commitLinkSyncEvent node index env.eventId
      (.beginIncrementalEventSync record.identity
        (eventPacket aether app env.eventId nodeId shareId record event payload)) =
      .ok committed) :
    syncNextEvent aether app env runtime nodeId shareId =
      ⟨[.saveNode committed, .send destination
          (eventPacket aether app env.eventId nodeId shareId record event payload)],
        .ok { runtime with nodes := replaceNode runtime.nodes committed }⟩ := by
  have hphase : ¬ state.initialSyncPhase ≠ .complete := not_not_intro hcomplete
  have hallowed : ¬ aether.classIdOfEvent app event ∉ runtime.standaloneEventClasses :=
    not_not_intro hfrozen.allowed
  rw [eventPacket] at hcommit
  unfold syncNextEvent
  simp only [syncDestination_eq_ok hdestination, pureStep_ok_bind, if_neg hphase, hidle,
    Bool.false_eq_true, if_false, hfrozen.next, hfrozen.valid,
    show assertThat true = .ok () from rfl, hfrozen.loaded, if_neg hallowed, hfrozen.frozen,
    beginSync, hcommit, perform_bind, eventPacket]
  rfl

end Gates

section Main

variable {env : StepEnv} {runtime : SharedSyncRuntime α ε} {nodeId shareId : ObjId}
  {start node : SharedNode α ε} {destination : Bytes} {index : Nat} {state : LinkSyncState}

/-- The first undelivered record is frozen, sent and accepted when all gates pass it. -/
theorem deliversNext_of_firstPasses {record : EventRecord (SharedNodeEvent ε)}
    {event : SharedNodeEvent ε} {payload : Bytes}
    (hcall : CallIsValid aether env runtime nodeId shareId)
    (hjournal : ∀ record ∈ node.journal, IsCommitted record)
    (hdestination : IsSyncDestination runtime nodeId shareId node destination index state)
    (hcomplete : state.initialSyncPhase = .complete) (hidle : state.hasPendingEvent = false)
    (hpasses : FirstPasses aether app runtime node destination state record event payload) :
    ∃ committed state', DeliversNext aether app env runtime nodeId shareId node destination
      index state record event payload committed state' := by
  obtain ⟨hmem, hshared, hundelivered, hforeign⟩ := undelivered_of_nextUndelivered hpasses.next
  have hcommitted := hjournal record hmem
  have hidentity : record.hasSharedIdentity = true := by
    simpa [EventRecord.hasSharedIdentity] using hshared
  obtain ⟨committed, state', hcommit, hstate', hfrozen'⟩ := commit_beginIncrementalEventSync
    hdestination.state_eq hcomplete hidle hshared
    (encodeEventFrame_ne_nil (recordFrame aether app env.eventId nodeId shareId record event
      payload)) env.eventId
  have hsent := syncNextEvent_of_frozen hdestination hcomplete hidle
    ⟨hpasses.next, hcommitted.valid, hpasses.loaded, hpasses.allowed, hpasses.frozen⟩ hcommit
  have hreadable := (isReadable_recordFrame_iff payload hcall hcommitted hidentity
    hpasses.allowed).mpr ⟨hpasses.originUid, hpasses.originSequence, hpasses.payload⟩
  refine ⟨committed, state', hmem, ⟨hidentity, hundelivered, hforeign, event, hpasses.loaded,
    hpasses.allowed⟩, hpasses.loaded, by rw [hsent], by rw [hsent]; rfl,
    ⟨hstate', hfrozen'⟩, ?_⟩
  have hshort : record.identity.originUid.length < 2 ^ 32 :=
    lt_of_le_of_lt hpasses.originUid (by decide)
  rw [decodeEventFrame_encode _ hshort, if_pos hreadable]

/-- A record that is delivered is the first undelivered one, and passes all gates. -/
theorem firstPasses_of_deliversNext {record : EventRecord (SharedNodeEvent ε)}
    {event : SharedNodeEvent ε} {payload : Bytes} {committed : SharedNode α ε}
    {state' : LinkSyncState} (hcall : CallIsValid aether env runtime nodeId shareId)
    (hjournal : ∀ record ∈ node.journal, IsCommitted record)
    (hdestination : IsSyncDestination runtime nodeId shareId node destination index state)
    (hidle : state.hasPendingEvent = false)
    (h : DeliversNext aether app env runtime nodeId shareId node destination index state record
      event payload committed state') :
    ∃ record event payload,
      FirstPasses aether app runtime node destination state record event payload := by
  obtain ⟨node', destination', index', before, hdestination', hcases⟩ :=
    syncNextEvent_cases h.returned
  cases (syncDestination_eq_ok hdestination).symm.trans (syncDestination_eq_ok hdestination')
  rcases hcases with ⟨hnothing, -⟩ | ⟨-, hpending, -⟩ |
    ⟨first, firstEvent, firstPayload, -, -, hfrozen, hbegun⟩
  · rw [h.effects] at hnothing
    cases hnothing
  · rw [hidle] at hpending
    cases hpending
  · obtain ⟨begun, hcommit, heffects, -⟩ := hbegun.outcome
    obtain ⟨hsame, hpacket⟩ : begun = committed ∧
        encodeEventFrame (recordFrame aether app env.eventId nodeId shareId first firstEvent
          firstPayload) =
        encodeEventFrame (recordFrame aether app env.eventId nodeId shareId record event
          payload) := by
      rw [h.effects] at heffects
      simp only [List.cons.injEq, Effect.saveNode.injEq, Effect.send.injEq, true_and,
        and_true] at heffects
      exact ⟨heffects.1.symm, heffects.2.symm⟩
    -- The frozen identity tells that the frame that was sent is of the first record.
    have hidentity : first.identity = record.identity := by
      rw [hsame] at hcommit
      rw [← h.frozen.2]
      exact (pendingEventIdentity_of_begun hcommit h.frozen.1).symm
    have haccepted := h.accepted
    have hshort := (isReadable_eq_true_iff.mp
      (encode_of_decodeEventFrame haccepted).1).2.1.2.1
    have hfits : (recordFrame aether app env.eventId nodeId shareId first firstEvent
        firstPayload).identity.originUid.length < 2 ^ 32 := by
      show first.identity.originUid.length < 2 ^ 32
      rw [hidentity]
      exact lt_of_le_of_lt hshort (by decide)
    rw [← hpacket, decodeEventFrame_encode _ hfits] at haccepted
    split at haccepted
    case isFalse => cases haccepted
    case isTrue hreadable =>
      obtain ⟨hmem, hshared, -, -⟩ := undelivered_of_nextUndelivered hfrozen.next
      have hfirst : first.hasSharedIdentity = true := by
        simpa [EventRecord.hasSharedIdentity] using hshared
      obtain ⟨huid, hsequence, hpayload⟩ := (isReadable_recordFrame_iff firstPayload hcall
        (hjournal first hmem) hfirst hfrozen.allowed).mp hreadable
      exact ⟨first, firstEvent, firstPayload, hfrozen.next, hfrozen.loaded, hfrozen.allowed,
        huid, hsequence, hfrozen.frozen, hpayload⟩

/-- In every state that operations of a SharedNode and progress of its relationships
reach, the next synchronization call of a complete relationship delivers a record to the
peer if and only if the first undelivered record passes all gates. -/
theorem nextEvent_isDelivered_iff {actions : List (NodeAction ε)} (hstart : start.journal = [])
    (hrun : runActions (nodeStep app) start actions = some node)
    (hcall : CallIsValid aether env runtime nodeId shareId)
    (hdestination : IsSyncDestination runtime nodeId shareId node destination index state)
    (hcomplete : state.initialSyncPhase = .complete) (hidle : state.hasPendingEvent = false) :
    (∃ record event payload committed state', DeliversNext aether app env runtime nodeId
        shareId node destination index state record event payload committed state') ↔
      ∃ record event payload,
        FirstPasses aether app runtime node destination state record event payload := by
  have hjournal := isCommitted_run hstart hrun
  constructor
  · rintro ⟨record, event, payload, committed, state', hdelivers⟩
    exact firstPasses_of_deliversNext hcall hjournal hdestination hidle hdelivers
  · rintro ⟨record, event, payload, hpasses⟩
    obtain ⟨committed, state', hdelivers⟩ :=
      deliversNext_of_firstPasses hcall hjournal hdestination hcomplete hidle hpasses
    exact ⟨record, event, payload, committed, state', hdelivers⟩

end Main

section LongOrigin

/-- A new ChatRoom. -/
def newRoom : SharedNode Messages MessageAddedEvent :=
  initializeRuntimeNode (chatRoom.nodeClass (idsFrom 1000)) ⟨10⟩ chatRoomClassId ⟨11⟩
    { shares := [], app := [] }

/-- The host opens both relationships, synchronizes the room with the client, and
commits a message. -/
def messageCommitted (value : MessageValue) : List (NodeAction MessageAddedEvent) :=
  [.operate (idsFrom 1000) 1
      (.addShare (roomLink 12 hostEndpoint) ShareAccess.readWrite ⟨14⟩),
    .operate (idsFrom 1000) 2
      (.addShare (roomLink 13 clientEndpoint) ShareAccess.readWrite ⟨15⟩),
    .progress 1 ⟨60⟩ (.beginInitialSync [1] []),
    .progress 1 ⟨61⟩ .completeInitialSync,
    .operate (idsFrom 1000) 50
      (.commitShared ⟨⟨16⟩, some (.app ⟨value⟩)⟩ value.id ⟨value.timestampUs⟩)]

/-- The runtime of the host. -/
def hostRuntime (room : SharedNode Messages MessageAddedEvent) :
    SharedSyncRuntime Messages MessageAddedEvent :=
  (roomReplica hostEndpoint room).runtime

/-- A test on the room that was built, the destination of its client relationship and
the state of that relationship. -/
def holdsForClient (value : MessageValue)
    (test : SharedNode Messages MessageAddedEvent → Bytes → LinkSyncState → Bool) : Bool :=
  match runActions (nodeStep chatRoom) newRoom (messageCommitted value) with
  | none => false
  | some node =>
      match syncDestination (hostRuntime node) ⟨10⟩ ⟨15⟩ with
      | .error _ => false
      | .ok (found, destination, _, state) => decide (found = node) &&
          decide (state.initialSyncPhase = .complete) && !state.hasPendingEvent &&
          test node destination state

theorem exists_client (value : MessageValue)
    (test : SharedNode Messages MessageAddedEvent → Bytes → LinkSyncState → Bool)
    (h : holdsForClient value test = true) :
    ∃ node destination index state,
      runActions (nodeStep chatRoom) newRoom (messageCommitted value) = some node ∧
      IsSyncDestination (hostRuntime node) ⟨10⟩ ⟨15⟩ node destination index state ∧
      state.initialSyncPhase = .complete ∧ state.hasPendingEvent = false ∧
      test node destination state = true := by
  unfold holdsForClient at h
  split at h
  case h_1 => cases h
  case h_2 node hrun =>
    split at h
    case h_1 => cases h
    case h_2 found destination index state hdestination =>
      simp only [Bool.and_eq_true, decide_eq_true_eq, Bool.not_eq_true'] at h
      obtain ⟨⟨⟨rfl, hcomplete⟩, hidle⟩, htest⟩ := h
      exact ⟨found, destination, index, state, hrun, isSyncDestination_of_eq_ok hdestination,
        hcomplete, hidle, htest⟩

/-- A message whose origin is one byte longer than a frame can carry. -/
def longOriginMessage : MessageValue := message (List.replicate 257 104) 1 50 [104, 105]

/-- The call sends a packet that the peer does not read. -/
def sendsUnreadable (room : SharedNode Messages MessageAddedEvent) : Bool :=
  match (syncNextEvent chatAether chatRoom (receiverEnv true) (hostRuntime room) ⟨10⟩
      ⟨15⟩).effects with
  | [.saveNode _, .send _ bytes] =>
      (decodeEventFrame (chatAether.derives chatAether.eventClassId) bytes).isNone
  | _ => false

/-- The next record is of an allowed class. -/
def nextIsAllowed (room : SharedNode Messages MessageAddedEvent) (destination : Bytes)
    (state : LinkSyncState) : Bool :=
  match nextUndeliveredSharedEvent room.journal state destination with
  | none => false
  | some record => record.event.obj.any fun event =>
      decide (chatAether.classIdOfEvent chatRoom event = messageAddedEventClassId)

theorem exists_deliverable {room : SharedNode Messages MessageAddedEvent} {destination : Bytes}
    {state : LinkSyncState} (h : nextIsAllowed room destination state = true) :
    ∃ record ∈ room.journal,
      IsDeliverable chatAether chatRoom (hostRuntime room) state destination record := by
  unfold nextIsAllowed at h
  split at h
  case h_1 => cases h
  case h_2 record hnext =>
    obtain ⟨event, hobj, hclass⟩ := (Option.any_eq_true _ _).mp h
    obtain ⟨hmem, hshared, hundelivered, hforeign⟩ := undelivered_of_nextUndelivered hnext
    rw [decide_eq_true_eq] at hclass
    refine ⟨record, hmem, ?_, hundelivered, hforeign, event, hobj, ?_⟩
    · simpa [EventRecord.hasSharedIdentity] using hshared
    · rw [hclass]
      exact List.mem_singleton_self _

/-- A committed message waits for the client and is not delivered: the frame that is sent
for it is one that the peer rejects. -/
theorem longOrigin_isNotDelivered :
    ∃ node destination index state,
      runActions (nodeStep chatRoom) newRoom (messageCommitted longOriginMessage) =
        some node ∧
      IsSyncDestination (hostRuntime node) ⟨10⟩ ⟨15⟩ node destination index state ∧
      state.initialSyncPhase = .complete ∧ state.hasPendingEvent = false ∧
      (∃ record ∈ node.journal,
        IsDeliverable chatAether chatRoom (hostRuntime node) state destination record) ∧
      ¬ ∃ record event payload committed state', DeliversNext chatAether chatRoom
        (receiverEnv true) (hostRuntime node) ⟨10⟩ ⟨15⟩ node destination index state record
        event payload committed state' := by
  obtain ⟨node, destination, index, state, hrun, hdestination, hcomplete, hidle, htest⟩ :=
    exists_client longOriginMessage
      (fun node destination state => nextIsAllowed node destination state &&
        sendsUnreadable node) (by decide +kernel)
  rw [Bool.and_eq_true] at htest
  refine ⟨node, destination, index, state, hrun, hdestination, hcomplete, hidle,
    exists_deliverable htest.1, ?_⟩
  rintro ⟨record, event, payload, committed, state', hdelivers⟩
  have hunreadable := htest.2
  rw [sendsUnreadable, hdelivers.effects] at hunreadable
  simp only [hdelivers.accepted] at hunreadable
  cases hunreadable

theorem callIsValid_hostRuntime (room : SharedNode Messages MessageAddedEvent) :
    CallIsValid chatAether (receiverEnv true) (hostRuntime room) ⟨10⟩ ⟨15⟩ := by
  refine ⟨by decide, by decide, by decide, ?_⟩
  intro classId hclass
  rw [List.mem_singleton.mp hclass]
  decide

/-- A message of the host is delivered to the client. -/
theorem hostMessage_isDelivered :
    ∃ node destination index state,
      runActions (nodeStep chatRoom) newRoom
        (messageCommitted (message hostEndpoint 1 50 [104, 105])) = some node ∧
      IsSyncDestination (hostRuntime node) ⟨10⟩ ⟨15⟩ node destination index state ∧
      ((∃ record event payload committed state', DeliversNext chatAether chatRoom
          (receiverEnv true) (hostRuntime node) ⟨10⟩ ⟨15⟩ node destination index state record
          event payload committed state') ↔
        ∃ record event payload, FirstPasses chatAether chatRoom (hostRuntime node) node
          destination state record event payload) := by
  obtain ⟨node, destination, index, state, hrun, hdestination, hcomplete, hidle, -⟩ :=
    exists_client (message hostEndpoint 1 50 [104, 105]) (fun _ _ _ => true)
      (by decide)
  exact ⟨node, destination, index, state, hrun, hdestination,
    nextEvent_isDelivered_iff rfl hrun (callIsValid_hostRuntime node) hdestination hcomplete
      hidle⟩

end LongOrigin

end AppTraverse
