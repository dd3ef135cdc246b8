import Mathlib.Data.List.AList
import Mathlib.Logic.Function.Basic
import AppTraverse.Journal.NodeReplay
import AppTraverse.Presentation.ObjectGraphBytes

/-!
# The initial publication

The model side writes the id of the root and the bytes of its materialized graph.  The
GUI side puts the layers into its storage, loads the graph from them, and then gives every
Node it has the generation that was written for it, without a base and without a journal.

Aether saves and loads the objects.  It enters as `ModelSaver` and `UiLoader`; what the
GUI side relies on is `MirrorsGraph`.
-/

namespace AppTraverse

open Foundations

section Writer

variable {σ β ε : Type}

/-- The layers of a stored object are the entries of `std::map`s, and there is one. -/
structure WellStored (layers : Layers) : Prop where
  classes : (layers.map Prod.fst).Nodup
  versions : ∀ entry ∈ layers, (entry.2.map Prod.fst).Nodup
  stored : ∃ entry ∈ layers, entry.2 ≠ []

/-- `SaveObjectGraphToScratch` in its two scopes. -/
structure ModelSaver (σ β ε : Type) where
  savePersistent : ModelDomain σ β ε → ObjId → RamDomainStorage
  saveMaterialized : ModelDomain σ β ε → ObjId → RamDomainStorage
  wellStored : ∀ domain root, ∀ object ∈ (saveMaterialized domain root).live,
    WellStored object.2

/-- `CollectReachableNodes`. -/
def collectReachableNodes (saver : ModelSaver σ β ε) (domain : ModelDomain σ β ε)
    (root : ObjId) : List ObjId :=
  let ids := ((saver.savePersistent domain root).live.map Prod.fst).filter fun id =>
    (domain id).isSome
  (ids.filter fun id => decide (id ∉ distilledBaseIds domain ids)).filter fun id =>
    (domain.node? id).isSome

/-- `Node::EnsureCurrentGeneration` of one Node of the Domain. -/
def ensureCurrentGeneration (cls : NodeClass σ β ε) (domain : ModelDomain σ β ε)
    (id : ObjId) : Except Fault (ModelDomain σ β ε) :=
  match domain.node? id with
  | none => .ok domain
  | some node => do
      let (current, complete) ← tryEnsureCurrentGeneration cls node
      assertThat complete
      pure (Function.update domain id (some (.node current)))

/-- `SerializeInitialPublication`. -/
def serializeInitialPublication (cls : NodeClass σ β ε) (saver : ModelSaver σ β ε)
    (domain : ModelDomain σ β ε) (root : ObjId) (out : Bytes) :
    Except Fault (ModelDomain σ β ε × Bytes) := do
  let current ← (collectReachableNodes saver domain root).foldlM
    (ensureCurrentGeneration cls) domain
  pure (current, serializeObjectGraphToBuffer current (saver.saveMaterialized current root)
    (out ++ nativeU32Bytes root.id))

end Writer

section Reader

/-- `InitialPublicationLoadStage`, without `Ok`. -/
inductive InitialPublicationLoadStage where
  | readRootId
  | readLayerCount
  | readLayerHeader
  | readLayerPayload
  | injectLayerBytes
  | loadRoot
  | loadExistingObject
  | readGenerationCount
  | readGenerationEntry
  | finalFindRoot
  deriving DecidableEq, Repr

/-- Why there is no loaded root: a null result with the stage that the diagnostics name,
or an access outside the input. -/
inductive LoadFailure where
  | readPastEnd
  | stage (stage : InitialPublicationLoadStage)
  deriving DecidableEq, Repr

/-- The storage of the GUI side, in memory. -/
abbrev UiStorage := AList fun _ : DomainQuery => Bytes

/-- The bookkeeping of a Node on the GUI side. -/
structure UiNode (ε : Type) where
  generation : UInt64 := 1
  base : ObjId := .empty
  journal : List (EventRecord ε) := []

/-- An object of the GUI Domain.  `node` is there if it is a Node. -/
structure UiObject (ε φ : Type) where
  fields : φ
  node : Option (UiNode ε)

/-- `ae::Domain::Find` on the GUI side. -/
abbrev UiDomain (ε φ : Type) := ObjId → Option (UiObject ε φ)

/-- The part of Aether that loads objects.  `loadRoot` is `DomainGraph::LoadRoot`, and
`loadObject` is the factory's `load` into an object that is there already.  Both may load
further objects; they say whether they succeeded. -/
structure UiLoader (ε φ : Type) where
  loadRoot : UiStorage → UiDomain ε φ → ObjId → UiDomain ε φ × Bool
  loadObject : UiStorage → UiDomain ε φ → ObjId → UiDomain ε φ × Bool

variable {ρ ε φ : Type}

/-- Some reads, and the return when one of them failed. -/
def reading (parser : SourceReader ρ) (stage : InitialPublicationLoadStage)
    (source : ByteSource) : Except LoadFailure (ρ × ByteSource) :=
  match parser source with
  | .error _ => .error .readPastEnd
  | .ok (value, after) => if after.ok then .ok (value, after) else .error (.stage stage)

/-- `InjectObjectBytes` into a storage in memory, which takes everything. -/
def injectObjectBytes (storage : UiStorage) (query : DomainQuery) (data : Bytes) :
    Option UiStorage :=
  some (storage.insert query data)

/-- The source, the storage and `unique_obj_ids` while the layers are read. -/
structure Injected where
  source : ByteSource
  storage : UiStorage
  uniqueObjIds : List ObjId := []

/-- `std::find` and `push_back`. -/
def noteObjId (ids : List ObjId) (id : ObjId) : List ObjId :=
  if id ∈ ids then ids else ids ++ [id]

/-- The loop of `ReadAndInjectPublicationLayers`. -/
def injectLayers : Nat → Injected → Except LoadFailure Injected
  | 0, injected => .ok injected
  | count + 1, injected => do
      let read ← reading readLayerHeader .readLayerHeader injected.source
      let header := read.1
      let source := read.2
      if source.data.length < source.pos + header.size.toNat then
        .error (.stage .readLayerPayload)
      else
        match Cursor.bytesAt source.data source.pos header.size.toNat with
        | .error _ => .error .readPastEnd
        | .ok data =>
            match injectObjectBytes injected.storage header.query data with
            | none => .error (.stage .injectLayerBytes)
            | some storage =>
                injectLayers count
                  ⟨{ source with pos := source.pos + header.size.toNat }, storage,
                    noteObjId injected.uniqueObjIds header.query.id⟩

/-- `ReadAndInjectPublicationLayers`. -/
def readAndInjectPublicationLayers (source : ByteSource) (storage : UiStorage) :
    Except LoadFailure Injected := do
  let read ← reading readU32Of .readLayerCount source
  injectLayers read.1.toNat ⟨read.2, storage, []⟩

/-- `reload_object` of `HydrateInjectedPublicationGraph`. -/
def reloadObject (loader : UiLoader ε φ) (storage : UiStorage) (domain : UiDomain ε φ)
    (id : ObjId) : Except LoadFailure (UiDomain ε φ) :=
  let found := if (domain id).isSome then (domain, true) else loader.loadRoot storage domain id
  if !found.2 then
    .error (.stage .loadExistingObject)
  else
    let loaded := loader.loadObject storage found.1 id
    if loaded.2 then .ok loaded.1 else .error (.stage .loadExistingObject)

/-- `HydrateInjectedPublicationGraph`. -/
def hydrateInjectedPublicationGraph (loader : UiLoader ε φ) (storage : UiStorage)
    (domain : UiDomain ε φ) (root : ObjId) (uniqueObjIds : List ObjId) :
    Except LoadFailure (UiDomain ε φ) :=
  let found := loader.loadRoot storage domain root
  if !found.2 then
    .error (.stage .loadRoot)
  else do
    let reverseOrder := uniqueObjIds.mergeSort fun a b => decide (b.id ≤ a.id)
    let reloaded ← uniqueObjIds.foldlM (reloadObject loader storage) found.1
    let reloaded ← reverseOrder.foldlM (reloadObject loader storage) reloaded
    uniqueObjIds.foldlM (reloadObject loader storage) reloaded

/-- `FinalizeUiNodeState`. -/
def finalizeUiNodeState (object : UiObject ε φ) (generation : UInt64) : UiObject ε φ :=
  match object.node with
  | none => object
  | some _ => { object with node := some ⟨generation, .empty, []⟩ }

/-- An entry of the generation table; an object that is not there is passed over. -/
def adoptGeneration (domain : UiDomain ε φ) (entry : ObjId × UInt64) : UiDomain ε φ :=
  match domain entry.1 with
  | none => domain
  | some object => Function.update domain entry.1 (some (finalizeUiNodeState object entry.2))

/-- The loop over the generation table. -/
def adoptGenerations : Nat → ByteSource → UiDomain ε φ →
    Except LoadFailure (ByteSource × UiDomain ε φ)
  | 0, source, domain => .ok (source, domain)
  | count + 1, source, domain => do
      let read ← reading readGenerationEntry .readGenerationEntry source
      adoptGenerations count read.2 (adoptGeneration domain read.1)

/-- The generation table in `TryLoadInitialPublication`. -/
def adoptGenerationTable (source : ByteSource) (domain : UiDomain ε φ) :
    Except LoadFailure (ByteSource × UiDomain ε φ) := do
  let read ← reading readU32Of .readGenerationCount source
  adoptGenerations read.1.toNat read.2 domain

/-- The GUI side after a load that returned the root. -/
structure LoadedPublication (ε φ : Type) where
  source : ByteSource
  storage : UiStorage
  domain : UiDomain ε φ
  root : ObjId

/-- The end of `TryLoadInitialPublication`. -/
def findUiRoot (loader : UiLoader ε φ) (storage : UiStorage) (root : ObjId)
    (source : ByteSource) (domain : UiDomain ε φ) :
    Except LoadFailure (LoadedPublication ε φ) :=
  let found := loader.loadRoot storage domain root
  if found.2 then .ok ⟨source, storage, found.1, root⟩ else .error (.stage .finalFindRoot)

/-- `TryLoadInitialPublication`. -/
def tryLoadInitialPublication (loader : UiLoader ε φ) (source : ByteSource)
    (domain : UiDomain ε φ) (storage : UiStorage) :
    Except LoadFailure (LoadedPublication ε φ) := do
  let read ← reading readU32Of .readRootId source
  let injected ← readAndInjectPublicationLayers read.2 storage
  let hydrated ← hydrateInjectedPublicationGraph loader injected.storage domain ⟨read.1⟩
    injected.uniqueObjIds
  let adopted ← adoptGenerationTable injected.source hydrated
  findUiRoot loader injected.storage ⟨read.1⟩ adopted.1 adopted.2

end Reader

end AppTraverse
