import Mathlib.Data.List.AList
import AppTraverse.Sharing.SharedNode

/-!
# Stored object graphs

What storage holds of an object: one layer of bytes per class of its inheritance
chain and per version.  `RamDomainStorage` maps object ids to such layers, or to
a tombstone.

Aether, the object library that reads and writes these layers, is not part of
the repository.  It enters the model as the structure `Aether`: the class
registry, the byte format of a storage map, and the reading of one object.  A
stored object is read as a `StoredObject`, which names other objects only by id.
-/

namespace AppTraverse

/-- `ae::Version`. -/
abbrev Version := UInt8

/-- The class layers of one stored object. -/
abbrev Layers := List (ClassId × List (Version × Bytes))

/-- `ae::RamDomainStorage::state`; an absent value is a tombstone. -/
abbrev RamDomainStorage := AList fun _ : ObjId => Option Layers

/-- What the most-derived classes of this repository keep beside the Node layer.
`other` is any other registered class. -/
inductive StoredBody (α ε : Type) where
  | sharedNode (shared : SharedState α) (linkSyncStates : List ObjId)
  | link (endpointUid : Bytes) (heartbeatIntervalMs : UInt32)
  | linkSyncState (state : LinkSyncState)
  | event (event : SharedNodeEvent ε)
  | other
  deriving DecidableEq

/-- One object as it is stored: every reference is an id.  An object that is not
a Node has an empty base and an empty journal.  `otherRefs` are references of
fields that no synchronization code reads, with their static target classes. -/
structure StoredObject (α ε : Type) where
  classId : ClassId
  base : ObjId := .empty
  journal : List (EventRecord (SharedNodeEvent ε)) := []
  body : StoredBody α ε
  otherRefs : List (ClassId × ObjId) := []
  deriving DecidableEq

/-- The part of Aether that synchronization uses.

`generationDistance base derived` is negative unless `derived` is `base` or one
of its descendants.  `hasFactory` says that a class is registered with create,
load and save.  The class ids are those of the classes named. -/
structure Aether (α ε : Type) where
  generationDistance : ClassId → ClassId → Int
  isExisting : ClassId → Bool
  hasFactory : ClassId → Bool
  objClassId : ClassId
  nodeClassId : ClassId
  eventClassId : ClassId
  sharedNodeClassId : ClassId
  linkClassId : ClassId
  linkSyncStateClassId : ClassId
  addShareEventClassId : ClassId
  removeShareEventClassId : ClassId
  changeShareAccessEventClassId : ClassId
  saveState : RamDomainStorage → Bytes
  loadState : Bytes → Option (RamDomainStorage × Bytes)
  saveObjId : ObjId → Bytes
  loadObjId : Bytes → Option (ObjId × Bytes)
  saveObject : StoredObject α ε → Layers
  loadObject : Layers → Option (StoredObject α ε)

namespace Aether

variable {α ε : Type} (aether : Aether α ε) (app : AppClass α ε)

/-- `derived` is `base` or one of its descendants. -/
def derives (base derived : ClassId) : Bool :=
  decide (0 ≤ aether.generationDistance base derived)

/-- `Obj::GetClassId` of an Event. -/
def classIdOfEvent : SharedNodeEvent ε → ClassId
  | .addShare _ _ => aether.addShareEventClassId
  | .removeShare _ => aether.removeShareEventClassId
  | .changeShareAccess _ _ => aether.changeShareAccessEventClassId
  | .app event => app.eventClassId event

/-- `Event::TargetClassId`. -/
def targetClassId : SharedNodeEvent ε → ClassId
  | .app event => app.eventTargetClassId event
  | _ => aether.sharedNodeClassId

/-- Aether's serialization is faithful: what was saved is what is loaded. -/
structure Lawful : Prop where
  loadState_saveState : ∀ (storage : RamDomainStorage) (rest : Bytes),
    aether.loadState (aether.saveState storage ++ rest) = some (storage, rest)
  loadObjId_saveObjId : ∀ (id : ObjId) (rest : Bytes),
    aether.loadObjId (aether.saveObjId id ++ rest) = some (id, rest)
  loadObject_saveObject : ∀ object : StoredObject α ε,
    aether.loadObject (aether.saveObject object) = some object

end Aether

namespace RamDomainStorage

/-- The objects that are stored and not deleted, in the order of the map. -/
def live (storage : RamDomainStorage) : List (ObjId × Layers) :=
  storage.entries.filterMap fun entry => entry.2.map (entry.1, ·)

/-- The layers of one live object. -/
def layers? (storage : RamDomainStorage) (id : ObjId) : Option Layers :=
  (storage.lookup id).join

theorem mem_live_iff {storage : RamDomainStorage} {id : ObjId} {layers : Layers} :
    (id, layers) ∈ storage.live ↔ storage.layers? id = some layers := by
  rw [layers?, Option.join_eq_some_iff, ← Option.mem_def, AList.mem_lookup_iff]
  constructor
  · intro hmem
    obtain ⟨entry, hentry, hvalue⟩ := List.mem_filterMap.mp hmem
    obtain ⟨stored, hstored, hpair⟩ := Option.map_eq_some_iff.mp hvalue
    obtain ⟨rfl, rfl⟩ := Prod.mk.inj hpair
    rw [← hstored]
    exact hentry
  · intro hentry
    exact List.mem_filterMap.mpr ⟨⟨id, some layers⟩, hentry, rfl⟩

end RamDomainStorage

/-- `SerializeObjectGraph`. -/
def serializeObjectGraph {α ε : Type} (aether : Aether α ε)
    (storage : RamDomainStorage) : Bytes :=
  aether.saveState storage

/-- `DeserializeObjectGraph`: the map has to end where the payload ends. -/
def deserializeObjectGraph {α ε : Type} (aether : Aether α ε) (payload : Bytes) :
    Option RamDomainStorage := do
  let (storage, rest) ← aether.loadState payload
  if rest.isEmpty then some storage else none

section References

variable {α ε : Type} (aether : Aether α ε)

/-- The references of an Event, with their static target classes. -/
def eventReferences : SharedNodeEvent ε → List (ClassId × ObjId)
  | .addShare link _ => [(aether.linkClassId, link.id)]
  | _ => []

/-- The references of the most-derived layer. -/
def bodyReferences : StoredBody α ε → List (ClassId × ObjId)
  | .sharedNode shared _ =>
      shared.shares.map fun share => (aether.linkClassId, share.link.id)
  | .linkSyncState state => [(aether.linkClassId, state.link)]
  | .event event => eventReferences aether event
  | _ => []

/-- Every non-empty shared reference an object stores, with its static target
class.  `LocalPtr` fields are not among them. -/
def StoredObject.references (object : StoredObject α ε) : List (ClassId × ObjId) :=
  ((aether.nodeClassId, object.base) ::
    (object.journal.map fun record => (aether.eventClassId, record.event.id)) ++
    bodyReferences aether object.body ++ object.otherRefs).filter
      fun reference => reference.2.isValid

/-- The `LocalPtr` references an object stores. -/
def StoredObject.localReferences (object : StoredObject α ε) : List ObjId :=
  match object.body with
  | .sharedNode _ linkSyncStates => linkSyncStates.filter ObjId.isValid
  | _ => []

end References

end AppTraverse
