import AppTraverse.Checkpoint.CheckpointRoundTrip
import AppTraverse.Foundations.Worklist
import AppTraverse.Presentation.InitialMirror

/-!
# Loading a persistent checkpoint

`LoadPersistentModelSnapshot` puts the layers of a checkpoint into a storage, lets Aether load
them, and then does by hand what is not in the layers: the generations of the Nodes, and their
bases.  At the end it clears every base that is not an object of the checkpoint.

Where the source asserts or aborts the result is an error.  The Domain is that of
`InitialPublication`; the journal cursors, which are set at the end, are left out.
-/

namespace AppTraverse

open Foundations

section Load

variable {ε φ : Type} (loader : UiLoader ε φ) (storage : UiStorage)

/-- `materialize_checkpoint_shell`. -/
def materializeCheckpointShell (domain : UiDomain ε φ) (id : ObjId) :
    Except LoadFailure (UiDomain ε φ) :=
  if (domain id).isSome then .ok domain
  else
    let loaded := loader.loadRoot storage domain id
    if loaded.2 then .ok loaded.1 else .error (.stage .loadRoot)

/-- The shells of the checkpoint and then their fields, the root being the last both times.
`load_checkpoint_object` is the load of an object that is there. -/
def hydrateCheckpoint (domain : UiDomain ε φ) (root : ObjId) (loadedIds : List ObjId) :
    Except LoadFailure (UiDomain ε φ) := do
  let others := loadedIds.filter fun id => !decide (id = root)
  let shells ← others.foldlM (materializeCheckpointShell loader storage) domain
  let shells ← materializeCheckpointShell loader storage shells root
  let filled ← others.foldlM (reloadObject loader storage) shells
  reloadObject loader storage filled root

/-- A change of what is there of a Node. -/
def UiObject.mapNode (change : UiNode ε → UiNode ε) (object : UiObject ε φ) : UiObject ε φ :=
  { object with node := object.node.map change }

/-- `AdoptPublishedGeneration` of the object that the Domain finds. -/
def adoptCheckpointGeneration (domain : UiDomain ε φ) (entry : ObjId × UInt64) : UiDomain ε φ :=
  KeyedStore.modify domain entry.1 (UiObject.mapNode fun node =>
    { node with generation := entry.2 })

/-- The loop over the generations. -/
def adoptCheckpointGenerations : Nat → ByteSource → UiDomain ε φ →
    Except LoadFailure (ByteSource × UiDomain ε φ)
  | 0, source, domain => .ok (source, domain)
  | count + 1, source, domain => do
      let read ← reading readGenerationEntry .readGenerationEntry source
      adoptCheckpointGenerations count read.2 (adoptCheckpointGeneration domain read.1)

/-- The generations in `LoadPersistentModelSnapshot`. -/
def adoptCheckpointGenerationTable (source : ByteSource) (domain : UiDomain ε φ) :
    Except LoadFailure (ByteSource × UiDomain ε φ) := do
  let count ← reading readU32Of .readGenerationCount source
  adoptCheckpointGenerations count.1.toNat count.2 domain

/-- A Node that has no base gets the one that it is bound to, if that can be found or loaded. -/
def restoreBinding (domain : UiDomain ε φ) (binding : ObjId × ObjId) : UiDomain ε φ :=
  match (domain binding.1).bind UiObject.node with
  | none => domain
  | some node =>
      if node.base.isValid then domain
      else
        let held := if (domain binding.2).isSome then (domain, true)
          else loader.loadRoot storage domain binding.2
        if held.2 then
          KeyedStore.modify held.1 binding.1 (UiObject.mapNode fun node =>
            { node with base := binding.2 })
        else
          held.1

/-- The loop of `RestorePersistedNodeBaseBindings`, up to an entry that is not there. -/
def restoreBindings : Nat → ByteSource → UiDomain ε φ → Except ReadPastEnd (UiDomain ε φ)
  | 0, _, domain => .ok domain
  | count + 1, source, domain => do
      let read ← readBindingEntry source
      if !read.2.ok then pure domain
      else restoreBindings count read.2 (restoreBinding loader storage domain read.1)

/-- `RestorePersistedNodeBaseBindings`. -/
def restorePersistedNodeBaseBindings (source : ByteSource) (domain : UiDomain ε φ) :
    Except ReadPastEnd (UiDomain ε φ) :=
  if source.data.length < source.pos + 4 then .ok domain
  else do
    let count ← readU32Of source
    if !count.2.ok then pure domain
    else restoreBindings loader storage count.1.toNat count.2 domain

end Load

section Sanitize

variable {ε φ : Type}

/-- What `CollectLoadedPersistentObjectsForSanitize` queues when it visits an object. -/
def checkpointEdges (domain : UiDomain ε φ) (id : ObjId) : List ObjId :=
  match (domain id).bind UiObject.node with
  | none => []
  | some node =>
      (node.base :: node.journal.map fun record => record.event.id).filter ObjId.isValid

/-- `CollectLoadedPersistentObjectsForSanitize`, for at most so many visits. -/
def collectLoadedObjects (fuel : Nat) (domain : UiDomain ε φ) (root : ObjId)
    (loadedIds : List ObjId) : List ObjId :=
  let starts := (root :: loadedIds).filter ObjId.isValid
  ((({} : Worklist ObjId).enqueueAll starts).walk (checkpointEdges domain) fuel).visited.filter
    fun id => (domain id).isSome

/-- `ObjPtrReferenceIsStale`. -/
def objPtrReferenceIsStale (domain : UiDomain ε φ) (loadedIds : List ObjId) (id : ObjId) : Bool :=
  id.isValid && (decide (id ∉ loadedIds) || (domain id).isNone)

/-- A base that is stale is taken out. -/
def clearStaleBase (domain : UiDomain ε φ) (loadedIds : List ObjId) (node : UiNode ε) : UiNode ε :=
  if objPtrReferenceIsStale domain loadedIds node.base then { node with base := .empty } else node

/-- `SanitizePersistentObjPtrFields`: the base is the only field of a Node that is walked. -/
def sanitizePersistentObjPtrFields (domain : UiDomain ε φ) (loadedIds : List ObjId)
    (id : ObjId) : UiDomain ε φ :=
  KeyedStore.modify domain id (UiObject.mapNode (clearStaleBase domain loadedIds))

/-- `SanitizeLoadedPersistentObjPtrs`. -/
def sanitizeLoadedPersistentObjPtrs (fuel : Nat) (domain : UiDomain ε φ) (root : ObjId)
    (loadedIds : List ObjId) : UiDomain ε φ :=
  (collectLoadedObjects fuel domain root loadedIds).foldl
    (fun domain id => sanitizePersistentObjPtrFields domain (root :: loadedIds) id) domain

/-- What a load leaves behind. -/
structure LoadedCheckpoint (ε φ : Type) where
  storage : UiStorage
  domain : UiDomain ε φ

/-- `LoadPersistentModelSnapshot`. -/
def loadPersistentModelSnapshot (fuel : Nat) (loader : UiLoader ε φ) (source : ByteSource)
    (domain : UiDomain ε φ) (storage : UiStorage) (root : ObjId) :
    Except LoadFailure (LoadedCheckpoint ε φ) := do
  let rootId ← reading readU32Of .readRootId source
  if rootId.1 ≠ root.id then
    .error (.stage .readRootId)
  else
    let injected ← readAndInjectPublicationLayers rootId.2 storage
    let hydrated ← hydrateCheckpoint loader injected.storage domain root injected.uniqueObjIds
    let adopted ← adoptCheckpointGenerationTable injected.source hydrated
    let restored ← (restorePersistedNodeBaseBindings loader injected.storage adopted.1
      adopted.2).mapError fun _ => .readPastEnd
    pure ⟨injected.storage,
      sanitizeLoadedPersistentObjPtrs fuel restored root injected.uniqueObjIds⟩

end Sanitize

end AppTraverse
