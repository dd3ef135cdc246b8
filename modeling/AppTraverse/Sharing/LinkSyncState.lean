import AppTraverse.Journal.Identity

/-!
# Synchronization progress of one Share relationship

`LinkSyncState` is local-persistent progress for one Share: where the initial
snapshot stands, which shared Events the peer is known to hold, and at most one
frozen incremental packet.  Its phase changes only through Events.

The state is itself a Node, but no synchronization code reads its own base or
journal, so a commit is modelled by its effect on the fields together with the
assertions on the way (`CanApplyTo` in `CommitInto`, and those of `Apply`).
-/

namespace AppTraverse

/-- `InitialSyncPhase`.  The field is a byte, and a byte outside the three
enumerators is none of them. -/
inductive InitialSyncPhase where
  | notStarted
  | pending
  | complete
  | unnamed (raw : UInt8)
  deriving DecidableEq, Repr

/-- The reflected fields of `LinkSyncState` v3. -/
structure LinkSyncState where
  shareId : ObjId
  link : ObjId
  initialSyncPhase : InitialSyncPhase := .notStarted
  pendingInitialPacketId : ObjId := .empty
  pendingInitialPacket : Bytes := []
  receivedInitialPacketId : ObjId := .empty
  pendingInitialCoveredEventIds : List SharedEventId := []
  deliveredEventIds : List SharedEventId := []
  pendingEventPacketId : ObjId := .empty
  pendingEventIdentity : SharedEventId := {}
  pendingEventPacket : Bytes := []
  deriving DecidableEq, Repr

/-- The Events of a `LinkSyncState`. -/
inductive LinkSyncEvent where
  | setLinkInitialSyncPhase (phase : InitialSyncPhase)
  | beginInitialSync (packet : Bytes) (coveredEventIds : List SharedEventId)
  | completeInitialSync
  | noteInitialSyncReceived (packetId : ObjId)
  | completeFromReceivedSnapshot (deliveredEventIds : List SharedEventId)
  | beginIncrementalEventSync (identity : SharedEventId) (packet : Bytes)
  | completeIncrementalEventSync
  deriving DecidableEq, Repr

namespace LinkSyncState

/-- The state that `SharedNode::Apply(AddShareEvent)` creates for a Share. -/
def fresh (shareId link : ObjId) : LinkSyncState where
  shareId := shareId
  link := link

/-- `LinkSyncState::HasDelivered`. -/
def hasDelivered (state : LinkSyncState) (identity : SharedEventId) : Bool :=
  decide (identity ∈ state.deliveredEventIds)

/-- `LinkSyncState::HasPendingEvent`. -/
def hasPendingEvent (state : LinkSyncState) : Bool :=
  state.pendingEventPacketId.isValid

/-- Append the identities that are not listed yet, in order. -/
def addDelivered (delivered : List SharedEventId) :
    List SharedEventId → List SharedEventId
  | [] => delivered
  | identity :: rest =>
      if identity ∈ delivered then
        addDelivered delivered rest
      else
        addDelivered (delivered ++ [identity]) rest

theorem mem_addDelivered {delivered added : List SharedEventId}
    {identity : SharedEventId} :
    identity ∈ addDelivered delivered added ↔
      identity ∈ delivered ∨ identity ∈ added := by
  induction added generalizing delivered with
  | nil => simp [addDelivered]
  | cons head rest ih =>
      unfold addDelivered
      by_cases hhead : head ∈ delivered
      · rw [if_pos hhead, ih, List.mem_cons]
        constructor
        · rintro (h | h)
          · exact Or.inl h
          · exact Or.inr (Or.inr h)
        · rintro (h | rfl | h)
          · exact Or.inl h
          · exact Or.inl hhead
          · exact Or.inr h
      · rw [if_neg hhead, ih, List.mem_append, List.mem_singleton, List.mem_cons,
          or_assoc]

/-- `LinkSyncState::CanApply`: only `CompleteFromReceivedSnapshotEvent` is
guarded. -/
def canApply (state : LinkSyncState) : LinkSyncEvent → Bool
  | .completeFromReceivedSnapshot _ =>
      decide (state.initialSyncPhase = .notStarted) && !state.hasPendingEvent
  | _ => true

/-- `LinkSyncState::Apply`.  `eventId` is the ObjId of the Event, which is the
packet identity of the two Begin Events. -/
def apply (state : LinkSyncState) (eventId : ObjId) :
    LinkSyncEvent → Except Fault LinkSyncState
  | .setLinkInitialSyncPhase phase =>
      .ok { state with initialSyncPhase := phase }
  | .beginInitialSync packet coveredEventIds => do
      assertThat (decide (state.initialSyncPhase = .notStarted))
      assertThat (!packet.isEmpty)
      pure { state with
        initialSyncPhase := .pending
        pendingInitialPacketId := eventId
        pendingInitialPacket := packet
        pendingInitialCoveredEventIds := coveredEventIds }
  | .completeInitialSync =>
      .ok { state with
        initialSyncPhase := .complete
        pendingInitialPacketId := .empty
        pendingInitialPacket := []
        deliveredEventIds :=
          addDelivered state.deliveredEventIds state.pendingInitialCoveredEventIds
        pendingInitialCoveredEventIds := [] }
  | .noteInitialSyncReceived packetId =>
      .ok { state with
        receivedInitialPacketId := packetId
        initialSyncPhase := .complete }
  | .completeFromReceivedSnapshot deliveredEventIds =>
      .ok { state with
        initialSyncPhase := .complete
        deliveredEventIds := addDelivered state.deliveredEventIds
          (deliveredEventIds.filter fun identity => !identity.originUid.isEmpty)
        pendingInitialPacketId := .empty
        pendingInitialPacket := []
        pendingInitialCoveredEventIds := [] }
  | .beginIncrementalEventSync identity packet => do
      assertThat (decide (state.initialSyncPhase = .complete))
      assertThat (!state.hasPendingEvent)
      assertThat (!identity.originUid.isEmpty)
      assertThat (!packet.isEmpty)
      pure { state with
        pendingEventPacketId := eventId
        pendingEventIdentity := identity
        pendingEventPacket := packet }
  | .completeIncrementalEventSync => do
      assertThat state.hasPendingEvent
      pure { state with
        deliveredEventIds :=
          addDelivered state.deliveredEventIds [state.pendingEventIdentity]
        pendingEventPacketId := .empty
        pendingEventIdentity := {}
        pendingEventPacket := [] }

/-- `Node::Commit` on a `LinkSyncState`. -/
def commit (state : LinkSyncState) (eventId : ObjId) (event : LinkSyncEvent) :
    Except Fault LinkSyncState := do
  assertThat (state.canApply event)
  state.apply eventId event

end LinkSyncState

end AppTraverse
