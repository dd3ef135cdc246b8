import AppTraverse.Foundations.SetAside
import AppTraverse.Presentation.InitialPublication

/-!
# Persistent checkpoints

`SerializePersistentModelSnapshot` writes the graph of a root as it is stored: the layers
of its objects, the generations of its Nodes, and the bases of its Nodes, which travel in
a table of their own.  For the time of the save it takes the bases out of the Nodes, and
the Events without an id out of their journals.

`InjectPersistentModelSnapshotToStorage` reads such bytes and puts the layers into a
storage.  It looks at the two other tables only to see that they are there.
-/

namespace AppTraverse

open Foundations

section Writer

variable {σ β ε : Type}

/-- `SaveObjectGraphToScratch` in the scope that stores, from an empty scratch storage and
into one that has objects already. -/
structure CheckpointSaver (σ β ε : Type) extends ModelSaver σ β ε where
  saveInto : ModelDomain σ β ε → ObjId → RamDomainStorage → RamDomainStorage
  saveInto_empty : ∀ domain root, saveInto domain root ∅ = savePersistent domain root

/-- `node->journal` without the records that have no Event. -/
def journalRemoval : Removal (ModelObject σ β ε) (List (EventRecord ε)) where
  taken
    | .node node => node.journal
    | .other => []
  left
    | .node node => .node { node with
        journal := node.journal.filter fun record => record.event.isValid }
    | .other => .other
  putBack journal
    | .node node => .node { node with journal := journal }
    | .other => .other
  putBack_left object := by cases object <;> rfl

/-- `node->base = Node::ptr{}`. -/
def baseRemoval : Removal (ModelObject σ β ε) (Ref β) where
  taken
    | .node node => node.base
    | .other => .empty
  left
    | .node node => .node { node with base := .empty }
    | .other => .other
  putBack base
    | .node node => .node { node with base := base }
    | .other => .other
  putBack_left object := by cases object <;> rfl

/-- `ClearReachableNodeBaseForCheckpointSave`. -/
def clearReachableNodeBaseForCheckpointSave (saver : CheckpointSaver σ β ε)
    (domain : ModelDomain σ β ε) (root : ObjId) :
    ModelDomain σ β ε × List (ObjId × Ref β) :=
  KeyedStore.setAside baseRemoval domain
    (collectReachableNodes saver.toModelSaver domain root)

/-- `RestoreReachableNodeBase`. -/
def restoreReachableNodeBase (domain : ModelDomain σ β ε) (saved : List (ObjId × Ref β)) :
    ModelDomain σ β ε :=
  KeyedStore.restore baseRemoval domain saved

/-- `EnsurePersistentCheckpointBaseObjectsInScratch`. -/
def ensurePersistentCheckpointBaseObjectsInScratch (saver : CheckpointSaver σ β ε)
    (domain : ModelDomain σ β ε) (saved : List (ObjId × Ref β)) (scratch : RamDomainStorage) :
    RamDomainStorage :=
  saved.foldl
    (fun scratch entry =>
      if !entry.2.isValid then scratch
      else if (scratch.layers? entry.2.id).isSome then scratch
      else if (domain entry.2.id).isSome then saver.saveInto domain entry.2.id scratch
      else scratch)
    scratch

/-- The stored objects that the Domain has. -/
def checkpointObjects (domain : ModelDomain σ β ε) (scratch : RamDomainStorage) :
    List (ObjId × Layers) :=
  scratch.live.filter fun object => (domain object.1).isSome

/-- `WritePersistentCheckpointScratchLayers`. -/
def writePersistentCheckpointScratchLayers (domain : ModelDomain σ β ε)
    (scratch : RamDomainStorage) (out : Bytes) : Bytes :=
  let objects := checkpointObjects domain scratch
  let layers := objects.foldl
    (fun written object => (objectLayers object).foldl (writeEntry layerBytes) written)
    (out ++ nativeU32Bytes 0, 0)
  let out' := overwrite layers.1 out.length (nativeU32Bytes layers.2)
  let generations := (generationsOf domain objects).foldl (writeEntry generationBytes)
    (out' ++ nativeU32Bytes 0, 0)
  overwrite generations.1 out'.length (nativeU32Bytes generations.2)

/-- One entry of the binding table: a Node and its base. -/
def bindingBytes (entry : ObjId × ObjId) : Bytes :=
  nativeU32Bytes entry.1.id ++ nativeU32Bytes entry.2.id

/-- The bases that are bound. -/
def baseBindings (saved : List (ObjId × Ref β)) : List (ObjId × ObjId) :=
  saved.filterMap fun entry =>
    if entry.2.isValid then some (entry.1, entry.2.id) else none

/-- `WritePersistentCheckpointNodeBaseBindings`. -/
def writePersistentCheckpointNodeBaseBindings (saved : List (ObjId × Ref β)) (out : Bytes) :
    Bytes :=
  let bindings := (baseBindings saved).foldl (writeEntry bindingBytes)
    (out ++ nativeU32Bytes 0, 0)
  overwrite bindings.1 out.length (nativeU32Bytes bindings.2)

/-- What a save writes: the Domain at the time of the save, its scratch storage, and the
bases that were taken out of its Nodes. -/
structure CheckpointSave (σ β ε : Type) where
  domain : ModelDomain σ β ε
  scratch : RamDomainStorage
  bases : List (ObjId × Ref β)

/-- `SerializePersistentModelSnapshot` up to the point where it writes.  The second part is
`saved_journals`. -/
def prepareCheckpoint (saver : CheckpointSaver σ β ε) (domain : ModelDomain σ β ε)
    (root : ObjId) : CheckpointSave σ β ε × List (ObjId × List (EventRecord ε)) :=
  let journals := KeyedStore.setAside journalRemoval domain
    (collectReachableNodes saver.toModelSaver domain root)
  let bases := clearReachableNodeBaseForCheckpointSave saver journals.1 root
  let scratch := saver.saveInto bases.1 root ∅
  (⟨bases.1, ensurePersistentCheckpointBaseObjectsInScratch saver bases.1 bases.2 scratch,
    bases.2⟩, journals.2)

/-- `SerializePersistentModelSnapshot`: the Domain afterwards, and the bytes. -/
def serializePersistentModelSnapshot (saver : CheckpointSaver σ β ε)
    (domain : ModelDomain σ β ε) (root : ObjId) (out : Bytes) : ModelDomain σ β ε × Bytes :=
  let prepared := prepareCheckpoint saver domain root
  let save := prepared.1
  let layers := writePersistentCheckpointScratchLayers save.domain save.scratch
    (out ++ nativeU32Bytes root.id)
  let bytes := writePersistentCheckpointNodeBaseBindings save.bases layers
  let restored := restoreReachableNodeBase save.domain save.bases
  (KeyedStore.restore journalRemoval restored prepared.2, bytes)

end Writer

section Reader

variable {S τ : Type}

/-- `IDomainStorage::Store` and the write of one layer, which say whether both succeeded. -/
abbrev LayerStore (S : Type) := S → DomainQuery → Bytes → S × Bool

/-- What `InjectPersistentModelSnapshotToStorage` leaves behind, and what it returns. -/
structure CheckpointInjection (S : Type) where
  source : ByteSource
  storage : S
  accepted : Bool

/-- The loop over the layers. -/
def injectCheckpointLayers (store : LayerStore S) :
    Nat → ByteSource → S → Except ReadPastEnd (CheckpointInjection S)
  | 0, source, storage => .ok ⟨source, storage, true⟩
  | count + 1, source, storage => do
      let read ← readLayerHeader source
      let header := read.1
      let source := read.2
      if !source.ok || decide (source.data.length < source.pos + header.size.toNat) then
        pure ⟨source, storage, false⟩
      else
        let data ← Cursor.bytesAt source.data source.pos header.size.toNat
        let stored := store storage header.query data
        if !stored.2 then
          pure ⟨source, stored.1, false⟩
        else
          injectCheckpointLayers store count
            { source with pos := source.pos + header.size.toNat } stored.1

/-- A loop that reads entries and does nothing with them. -/
def skipEntries (entry : SourceReader τ) : Nat → ByteSource →
    Except ReadPastEnd (ByteSource × Bool)
  | 0, source => .ok (source, true)
  | count + 1, source => do
      let read ← entry source
      if !read.2.ok then pure (read.2, false) else skipEntries entry count read.2

/-- A table that is read and not used. -/
def skipTable (entry : SourceReader τ) (source : ByteSource) :
    Except ReadPastEnd (ByteSource × Bool) := do
  let count ← readU32Of source
  if !count.2.ok then pure (count.2, false) else skipEntries entry count.1.toNat count.2

/-- The two reads of an entry of the binding table. -/
def readBindingEntry : SourceReader (ObjId × ObjId) := do
  let nodeId ← readU32Of
  let baseId ← readU32Of
  pure (⟨nodeId⟩, ⟨baseId⟩)

/-- `SkipPersistentCheckpointNodeBaseBindings`.  Without room for the number of bindings,
there are none. -/
def skipPersistentCheckpointNodeBaseBindings (source : ByteSource) :
    Except ReadPastEnd (ByteSource × Bool) :=
  if source.data.length < source.pos + 4 then .ok (source, true)
  else skipTable readBindingEntry source

/-- The end of `InjectPersistentModelSnapshotToStorage`: the generations and the bindings. -/
def skipCheckpointTables (source : ByteSource) : Except ReadPastEnd (ByteSource × Bool) := do
  let generations ← skipTable readGenerationEntry source
  if !generations.2 then pure generations
  else skipPersistentCheckpointNodeBaseBindings generations.1

/-- `InjectPersistentModelSnapshotToStorage` after the id of the root. -/
def injectCheckpointTables (store : LayerStore S) (source : ByteSource) (storage : S) :
    Except ReadPastEnd (CheckpointInjection S) := do
  let count ← readU32Of source
  if !count.2.ok then
    pure ⟨count.2, storage, false⟩
  else
    let injected ← injectCheckpointLayers store count.1.toNat count.2 storage
    if !injected.accepted then
      pure injected
    else
      let tables ← skipCheckpointTables injected.source
      pure ⟨tables.1, injected.storage, tables.2⟩

/-- `InjectPersistentModelSnapshotToStorage`. -/
def injectPersistentModelSnapshotToStorage (store : LayerStore S) (source : ByteSource)
    (storage : S) (expectedRootId : UInt32) : Except ReadPastEnd (CheckpointInjection S) := do
  let rootId ← readU32Of source
  if !rootId.2.ok || decide (rootId.1 ≠ expectedRootId) then
    pure ⟨rootId.2, storage, false⟩
  else
    injectCheckpointTables store rootId.2 storage

/-- `SavePersistentModelSnapshotToStorageImpl`.  `writeSidecar` is there if a directory is
given, and says whether the bytes were written to the file. -/
def savePersistentModelSnapshotToStorage {σ β ε : Type} (saver : CheckpointSaver σ β ε)
    (store : LayerStore S) (domain : ModelDomain σ β ε) (root : ObjId) (storage : S)
    (writeSidecar : Option (Bytes → Bool)) :
    Except ReadPastEnd (ModelDomain σ β ε × S × Bool) := do
  let saved := serializePersistentModelSnapshot saver domain root []
  if writeSidecar.any fun write => !write saved.2 then
    pure (saved.1, storage, false)
  else
    let injected ← injectPersistentModelSnapshotToStorage store ⟨saved.2, 0, true⟩ storage root.id
    pure (saved.1, injected.storage, injected.accepted)

end Reader

end AppTraverse
