import AppTraverse.Journal.Node
import AppTraverse.Sharing.LinkSyncState

/-!
# SharedNode: shared topology and local sync metadata

A `SharedNode` is a Node whose fields are the open Share relationships, the
local `LinkSyncState` of each, and the application fields of the concrete class
(`ChatRoom`, for example).  The first and the last are shared between replicas;
the second is reachable only through `LocalPtr`.

`AppClass` is what the concrete class adds: its own Events over its own fields.
Application fields and Events of the SharedNode classes of this repository hold
no object references.
-/

namespace AppTraverse

/-- A loaded `Link` descriptor.  A Link is a Node too, but no synchronization
code reads its own base and journal. -/
structure Link where
  classId : ClassId
  endpointUid : Bytes
  heartbeatIntervalMs : UInt32
  deriving DecidableEq, Repr

/-- `ShareAccess`, as the byte that is stored. -/
def ShareAccess.readWrite : UInt8 := 0

@[inherit_doc ShareAccess.readWrite]
def ShareAccess.readOnly : UInt8 := 1

/-- One lifetime of SharedNode <-> Link.  `shareId` is the ObjId of the
AddShareEvent that opened it. -/
structure Share where
  shareId : ObjId
  link : Ref Link
  access : UInt8
  deriving DecidableEq, Repr

/-- The Events of a `SharedNode`: the three topology Events and those of the
concrete class. -/
inductive SharedNodeEvent (ε : Type) where
  | addShare (link : Ref Link) (access : UInt8)
  | removeShare (shareId : ObjId)
  | changeShareAccess (shareId : ObjId) (access : UInt8)
  | app (event : ε)
  deriving DecidableEq, Repr

/-- The network-shared materialised state. -/
structure SharedState (α : Type) where
  shares : List Share
  app : α
  deriving DecidableEq, Repr

/-- What a base snapshot of a SharedNode holds.  `CaptureBaseStateInto` writes it in
the `MaterializedPublication` scope, where a `LocalPtr` keeps its id, so a snapshot
also holds the local sync states that were there. -/
structure BaseSnapshot (α : Type) extends SharedState α where
  linkSyncStates : List ObjId := []
  deriving DecidableEq, Repr

/-- A `LinkSyncState` created through the Domain: its own id and the id of the
base snapshot that `InitializeRuntimeNode` stored for it. -/
structure CreatedLinkSyncState where
  stateId : ObjId
  baseId : ObjId
  shareId : ObjId
  link : ObjId
  deriving DecidableEq, Repr

/-- The fields of a `SharedNode` object, and the log of the objects its replays
created through the Domain. -/
structure SharedNodeFields (α : Type) where
  shares : List Share
  app : α
  linkSyncStates : List (Ref LinkSyncState) := []
  created : List CreatedLinkSyncState := []
  deriving DecidableEq, Repr

/-- What concrete SharedNode classes add: Events over their own fields.

An Event reaches `apply` only after its target class was compared with the class
of the Node, so `apply` is total and never sees an Event of another target. -/
structure AppClass (α ε : Type) where
  canApply : α → ε → Bool
  apply : α → ε → α
  matchesSharedMetadata : ε → SharedEventId → SharedEventOrder → Bool
  eventClassId : ε → ClassId
  eventTargetClassId : ε → ClassId

/-- A `SharedNode` in memory. -/
abbrev SharedNode (α ε : Type) :=
  Node (SharedNodeFields α) (BaseSnapshot α) (SharedNodeEvent ε)

/-- `SharedNode::FindShareIndex`: the open relationship over a Link. -/
def findShareIndex (shares : List Share) (linkId : ObjId) : Nat :=
  shares.findIdx fun share => share.link.isValid && decide (share.link.id = linkId)

/-- `SharedNode::FindShareIndexForShare`. -/
def findShareIndexForShare (shares : List Share) (shareId : ObjId) : Nat :=
  shares.findIdx fun share => decide (share.shareId = shareId)

/-- `SharedNode::FindLinkSyncIndexForShare`.  An entry that is valid but cannot
be loaded is dereferenced as null. -/
def findLinkSyncIndexForShare :
    List (Ref LinkSyncState) → ObjId → Except Fault Nat
  | [], _ => .ok 0
  | entry :: rest, shareId =>
      if !entry.isValid then
        (· + 1) <$> findLinkSyncIndexForShare rest shareId
      else
        match entry.obj with
        | none => .error .nullDeref
        | some state =>
            if state.shareId = shareId then
              .ok 0
            else
              (· + 1) <$> findLinkSyncIndexForShare rest shareId

namespace SharedNodeFields

variable {α : Type}

/-- Create the `LinkSyncState` of a relationship that has none.  `ids` is the
sequence of ids that `ObjId::GenerateUnique` returns to this Domain; each
creation draws one for the state and one for its base snapshot. -/
def createLinkSyncState (ids : Nat → ObjId) (shareId link : ObjId)
    (fields : SharedNodeFields α) : SharedNodeFields α :=
  let drawn := 2 * fields.created.length
  { fields with
    linkSyncStates := fields.linkSyncStates ++
      [⟨ids drawn, some (LinkSyncState.fresh shareId link)⟩]
    created := fields.created ++ [⟨ids drawn, ids (drawn + 1), shareId, link⟩] }

/-- `SharedNode::Apply(AddShareEvent)`.  The relationship identity is the Event
identity. -/
def applyAddShare (ids : Nat → ObjId) (fields : SharedNodeFields α)
    (eventId : ObjId) (link : Ref Link) (access : UInt8) :
    Except Fault (SharedNodeFields α) := do
  assertThat link.isValid
  assertThat eventId.isValid
  assertThat (decide
    (findShareIndexForShare fields.shares eventId = fields.shares.length))
  assertThat (decide (findShareIndex fields.shares link.id = fields.shares.length))
  let opened := { fields with shares := fields.shares ++ [⟨eventId, link, access⟩] }
  let index ← findLinkSyncIndexForShare opened.linkSyncStates eventId
  if index < opened.linkSyncStates.length then
    pure opened
  else
    pure (opened.createLinkSyncState ids eventId link.id)

/-- `SharedNode::Apply(RemoveShareEvent)`: the relationship closes and only its
own local sync state is dropped. -/
def applyRemoveShare (fields : SharedNodeFields α) (shareId : ObjId) :
    Except Fault (SharedNodeFields α) := do
  let index := findShareIndexForShare fields.shares shareId
  assertThat (decide (index < fields.shares.length))
  let closed := { fields with shares := fields.shares.eraseIdx index }
  let syncIndex ← findLinkSyncIndexForShare closed.linkSyncStates shareId
  pure { closed with linkSyncStates := closed.linkSyncStates.eraseIdx syncIndex }

/-- `SharedNode::Apply(ChangeShareAccessEvent)`. -/
def applyChangeShareAccess (fields : SharedNodeFields α) (shareId : ObjId)
    (access : UInt8) : Except Fault (SharedNodeFields α) := do
  let index := findShareIndexForShare fields.shares shareId
  assertThat (decide (index < fields.shares.length))
  pure { fields with
    shares := fields.shares.modify index fun share => { share with access := access } }

end SharedNodeFields

namespace AppClass

variable {α ε : Type} (app : AppClass α ε)

/-- `CanApplyEventTo`: `SharedNode` declares no `CanApply`, so every topology
Event passes; an application Event asks the concrete class. -/
def canApplyTo (fields : SharedNodeFields α) : SharedNodeEvent ε → Bool
  | .app event => app.canApply fields.app event
  | _ => true

/-- `Event::ApplyTo` on a SharedNode. -/
def applyTo (ids : Nat → ObjId) (fields : SharedNodeFields α) (eventId : ObjId) :
    SharedNodeEvent ε → Except Fault (SharedNodeFields α)
  | .addShare link access => fields.applyAddShare ids eventId link access
  | .removeShare shareId => fields.applyRemoveShare shareId
  | .changeShareAccess shareId access => fields.applyChangeShareAccess shareId access
  | .app event => .ok { fields with app := app.apply fields.app event }

/-- A concrete SharedNode class, over the id sequence of its Domain.

Loading the base into the live object replaces the shared fields; the valid
`link_sync_states` entries are stashed before and restored after it. -/
def nodeClass (ids : Nat → ObjId) :
    NodeClass (SharedNodeFields α) (BaseSnapshot α) (SharedNodeEvent ε) where
  canApplyTo := app.canApplyTo
  applyTo := app.applyTo ids
  saveBase fields :=
    { shares := fields.shares
      app := fields.app
      linkSyncStates := fields.linkSyncStates.map Ref.id }
  loadBase fields snapshot := { fields with
    shares := snapshot.shares
    app := snapshot.app
    linkSyncStates := fields.linkSyncStates.filter Ref.isValid }
  matchesSharedMetadata event identity order :=
    match event with
    | .app event => app.matchesSharedMetadata event identity order
    | _ => true

end AppClass

section Commands

variable {α ε : Type} (app : AppClass α ε) (ids : Nat → ObjId)

/-- `SharedNode::AddShare`: idempotent, otherwise one AddShareEvent. -/
def addShare (node : SharedNode α ε) (link : Ref Link) (access : UInt8)
    (eventId : ObjId) (nowUs : UInt64) : Except Fault (SharedNode α ε) := do
  assertThat link.isValid
  if findShareIndex node.fields.shares link.id < node.fields.shares.length then
    pure node
  else
    commit (app.nodeClass ids) node ⟨eventId, some (.addShare link access)⟩ nowUs

/-- `SharedNode::RemoveShare`. -/
def removeShare (node : SharedNode α ε) (linkId : ObjId) (eventId : ObjId)
    (nowUs : UInt64) : Except Fault (SharedNode α ε) := do
  assertThat linkId.isValid
  match node.fields.shares[findShareIndex node.fields.shares linkId]? with
  | none => pure node
  | some share =>
      commit (app.nodeClass ids) node ⟨eventId, some (.removeShare share.shareId)⟩
        nowUs

/-- `SharedNode::SetShareAccess`. -/
def setShareAccess (node : SharedNode α ε) (linkId : ObjId) (access : UInt8)
    (eventId : ObjId) (nowUs : UInt64) : Except Fault (SharedNode α ε) := do
  assertThat linkId.isValid
  match node.fields.shares[findShareIndex node.fields.shares linkId]? with
  | none => .error .assertFailed
  | some share =>
      if share.access = access then
        pure node
      else
        commit (app.nodeClass ids) node
          ⟨eventId, some (.changeShareAccess share.shareId access)⟩ nowUs

end Commands

end AppTraverse
