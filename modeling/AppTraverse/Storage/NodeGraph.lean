import AppTraverse.Storage.ClassChains

/-!
# Nodes as object graphs

Loading a SharedNode from stored objects, and writing the objects that are
reachable from one.  Loading resolves every stored id with a finder: in a
scratch Domain the finder sees the parsed graph only, in production it sees the
live objects of the Domain and the whole storage.

A valid reference whose object does not exist stays unloaded.  One whose object
is of a class that does not fit its static type is a `badCast`.
-/

namespace AppTraverse

open Foundations

/-- `Domain::Find` followed by a load from storage. -/
abbrev ObjectFinder (α ε : Type) := ObjId → Option (StoredObject α ε)

/-- What a Domain whose storage is `storage` finds. -/
def RamDomainStorage.find {α ε : Type} (aether : Aether α ε)
    (storage : RamDomainStorage) : ObjectFinder α ε :=
  fun id => (storage.layers? id).bind aether.loadObject

section Loading

variable {α ε : Type} (aether : Aether α ε) (find : ObjectFinder α ε)

/-- Resolve a reference to a `Link`. -/
def loadLink (ref : Ref Link) : Except Fault (Ref Link) :=
  if !ref.isValid then
    .ok ref.unloaded
  else
    match find ref.id with
    | none => .ok ref.unloaded
    | some object =>
        match object.body with
        | .link endpointUid heartbeatIntervalMs =>
            .ok ⟨ref.id, some ⟨object.classId, endpointUid, heartbeatIntervalMs⟩⟩
        | _ => .error .badCast

/-- Resolve the reference inside an Event. -/
def loadEvent : SharedNodeEvent ε → Except Fault (SharedNodeEvent ε)
  | .addShare link access => do
      let loaded ← loadLink find link
      pure (.addShare loaded access)
  | event => .ok event

/-- Resolve `EventRecord::event`. -/
def loadRecord (record : EventRecord (SharedNodeEvent ε)) :
    Except Fault (EventRecord (SharedNodeEvent ε)) :=
  if !record.event.isValid then
    .ok { record with event := record.event.unloaded }
  else
    match find record.event.id with
    | none => .ok { record with event := record.event.unloaded }
    | some object =>
        match object.body with
        | .event event => do
            let loaded ← loadEvent find event
            pure { record with event := ⟨record.event.id, some loaded⟩ }
        | _ => .error .badCast

/-- Resolve `Share::link`. -/
def loadShare (share : Share) : Except Fault Share := do
  let link ← loadLink find share.link
  pure { share with link := link }

/-- Resolve the references of the SharedNode layer. -/
def loadSharedState (shared : SharedState α) : Except Fault (SharedState α) := do
  let shares ← shared.shares.mapM (loadShare find)
  pure { shared with shares := shares }

/-- Resolve `Node::base`.  An object without a SharedNode layer leaves the fields
of the Node that is loaded from it as they are. -/
def loadBase (base : ObjId) (own : SharedState α) :
    Except Fault (Ref (BaseSnapshot α)) :=
  if !base.isValid then
    .ok ⟨base, none⟩
  else
    match find base with
    | none => .ok ⟨base, none⟩
    | some object =>
        if !aether.derives aether.nodeClassId object.classId then
          .error .badCast
        else
          match object.body with
          | .sharedNode shared linkSyncStates => do
              let loaded ← loadSharedState find shared
              pure ⟨base, some { loaded with linkSyncStates := linkSyncStates }⟩
          | _ => .ok ⟨base, some { own with linkSyncStates := [] }⟩

/-- Resolve an entry of `SharedNode::link_sync_states`. -/
def loadLinkSyncState (id : ObjId) : Except Fault (Ref LinkSyncState) :=
  if !id.isValid then
    .ok ⟨id, none⟩
  else
    match find id with
    | none => .ok ⟨id, none⟩
    | some object =>
        match object.body with
        | .linkSyncState state => .ok ⟨id, some state⟩
        | _ => .error .badCast

/-- `DomainGraph::LoadRoot` of a SharedNode; nothing when the object does not
exist or is no SharedNode. -/
def loadSharedNode (id : ObjId) : Except Fault (Option (SharedNode α ε)) :=
  if !id.isValid then
    .ok none
  else
    match find id with
    | none => .ok none
    | some object =>
        match object.body with
        | .sharedNode shared linkSyncStates => do
            let own ← loadSharedState find shared
            let base ← loadBase aether find object.base own
            let journal ← object.journal.mapM (loadRecord find)
            let states ← linkSyncStates.mapM (loadLinkSyncState find)
            pure (some {
              objId := id
              classId := object.classId
              base := base
              journal := journal
              fields := { shares := own.shares, app := own.app, linkSyncStates := states } })
        | _ => .ok none

end Loading

/-- `ae::GraphSerializationScope`, as far as it matters for `LocalPtr`. -/
inductive GraphSerializationScope where
  | persistent
  | networkShared
  deriving DecidableEq, Repr

section Saving

variable {α ε : Type} (aether : Aether α ε) (app : AppClass α ε)

/-- What an Event stores: its reference as an id. -/
def storedEvent : SharedNodeEvent ε → SharedNodeEvent ε
  | .addShare link access => .addShare link.unloaded access
  | event => event

/-- What a share relationship stores. -/
def storedShare (share : Share) : Share := { share with link := share.link.unloaded }

/-- What the SharedNode layer stores. -/
def storedSharedState (shared : SharedState α) : SharedState α :=
  { shared with shares := shared.shares.map storedShare }

/-- What a journal record stores. -/
def storedRecord (record : EventRecord (SharedNodeEvent ε)) :
    EventRecord (SharedNodeEvent ε) :=
  { record with event := record.event.unloaded }

/-- The objects reachable through a reference to a Link. -/
def linkObjects (link : Ref Link) : List (ObjId × StoredObject α ε) :=
  match link.obj with
  | none => []
  | some value =>
      [(link.id, { classId := value.classId
                   body := .link value.endpointUid value.heartbeatIntervalMs })]

/-- The objects reachable through a reference to an Event. -/
def eventObjects (event : Ref (SharedNodeEvent ε)) : List (ObjId × StoredObject α ε) :=
  match event.obj with
  | none => []
  | some value =>
      (event.id, { classId := aether.classIdOfEvent app value
                   body := .event (storedEvent value) }) ::
        match value with
        | .addShare link _ => linkObjects link
        | _ => []

/-- The objects reachable from a list of share relationships. -/
def shareObjects (shares : List Share) : List (ObjId × StoredObject α ε) :=
  shares.flatMap fun share => linkObjects share.link

/-- `Serializer<ObjectLink>::Seri` of a list of `LocalPtr`: the network-shared scope
writes each as the empty reference. -/
def storedLocalPtrs (scope : GraphSerializationScope) (ids : List ObjId) : List ObjId :=
  match scope with
  | .persistent => ids
  | .networkShared => ids.map fun _ => .empty

/-- The base snapshot of a SharedNode of class `classId` and what it reaches. -/
def baseObjects (scope : GraphSerializationScope) (classId : ClassId)
    (base : Ref (BaseSnapshot α)) : List (ObjId × StoredObject α ε) :=
  match base.obj with
  | none => []
  | some snapshot =>
      (base.id, { classId := classId
                  body := .sharedNode (storedSharedState snapshot.toSharedState)
                    (storedLocalPtrs scope snapshot.linkSyncStates) }) ::
        shareObjects snapshot.shares

/-- The local sync states of a SharedNode. -/
def linkSyncObjects (states : List (Ref LinkSyncState)) :
    List (ObjId × StoredObject α ε) :=
  states.filterMap fun entry => entry.obj.map fun state =>
    (entry.id, { classId := aether.linkSyncStateClassId, body := .linkSyncState state })

/-- The root object. -/
def rootObject (scope : GraphSerializationScope) (node : SharedNode α ε) :
    StoredObject α ε where
  classId := node.classId
  base := node.base.id
  journal := node.journal.map storedRecord
  body := .sharedNode (storedSharedState ⟨node.fields.shares, node.fields.app⟩)
    (storedLocalPtrs scope (node.fields.linkSyncStates.map Ref.id))

/-- Every object reachable from a SharedNode, the root first. -/
def reachableObjects (scope : GraphSerializationScope) (node : SharedNode α ε) :
    List (ObjId × StoredObject α ε) :=
  (node.objId, rootObject scope node) ::
    (baseObjects scope node.classId node.base ++
      node.journal.flatMap (fun record => eventObjects aether app record.event) ++
      shareObjects node.fields.shares ++
      match scope with
      | .persistent => linkSyncObjects aether node.fields.linkSyncStates
      | .networkShared => [])

/-- The storage that saving these objects fills; the first of two objects with
one id is the one that is saved. -/
def savedObjects (objects : List (ObjId × StoredObject α ε)) : RamDomainStorage :=
  (objects.map fun object =>
    (⟨object.1, some (aether.saveObject object.2)⟩ :
      Sigma fun _ : ObjId => Option Layers)).toAList

/-- `BuildNetworkSharedScratch` of a SharedNode. -/
def buildNetworkSharedScratch (node : SharedNode α ε) : RamDomainStorage :=
  savedObjects aether (reachableObjects aether app .networkShared node)

/-- `FrozenNodeState`. -/
structure FrozenNodeState where
  payload : Bytes
  coveredEventIds : List SharedEventId
  deriving DecidableEq, Repr

/-- The identities of the shared records of a journal, in journal order. -/
def sharedIdentities (journal : List (EventRecord (SharedNodeEvent ε))) :
    List SharedEventId :=
  (journal.filter EventRecord.hasSharedIdentity).map EventRecord.identity

/-- `FreezeNetworkSharedNodeState`: the covered identities are read back from the
same scratch that becomes the payload. -/
def freezeNetworkSharedNodeState (node : SharedNode α ε) :
    Except Fault FrozenNodeState := do
  let scratch := buildNetworkSharedScratch aether app node
  match ← loadSharedNode aether (scratch.find aether) node.objId with
  | none => .error .assertFailed
  | some loaded =>
      pure ⟨serializeObjectGraph aether scratch, sharedIdentities loaded.journal⟩

end Saving

end AppTraverse
