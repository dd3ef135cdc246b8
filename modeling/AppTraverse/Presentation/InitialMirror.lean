import AppTraverse.Presentation.PublicationRoundTrip
import AppTraverse.Storage.ClosedGraphImport

/-!
# The GUI mirrors the model

A GUI Domain that loads an initial publication holds the published objects and no others,
and its Nodes are at the generations of the model, without history.  Whether it does is a
question of sizes only: the format counts layers and bytes in 32 bits, and the writer does
not check that they fit.
-/

namespace AppTraverse

open Foundations

section Published

variable {σ β ε : Type} {domain : ModelDomain σ β ε} {scratch : RamDomainStorage}
  {root : ObjId}

theorem nodup_publishedObjects (domain : ModelDomain σ β ε) (scratch : RamDomainStorage) :
    ((publishedObjects domain scratch).map Prod.fst).Nodup :=
  (nodup_live scratch).sublist (List.filter_sublist.map Prod.fst)

theorem generationsOf_keys (domain : ModelDomain σ β ε) (objects : List (ObjId × Layers)) :
    (generationsOf domain objects).map Prod.fst =
      (objects.map Prod.fst).filter fun id => (domain.node? id).isSome := by
  induction objects with
  | nil => rfl
  | cons head tail ih =>
      rw [generationsOf, List.filterMap_cons, List.map_cons, List.filter_cons]
      cases hnode : domain.node? head.1 with
      | none => exact ih
      | some node =>
          show head.1 :: (generationsOf domain tail).map Prod.fst = _
          rw [ih]
          rfl

theorem mem_generationsOf {objects : List (ObjId × Layers)} {id : ObjId}
    {node : Node σ β ε} (hnode : domain.node? id = some node)
    (hid : id ∈ objects.map Prod.fst) :
    (id, UInt64.ofNat node.generation) ∈ generationsOf domain objects := by
  obtain ⟨object, hobject, rfl⟩ := List.mem_map.mp hid
  exact List.mem_filterMap.mpr ⟨object, hobject, by rw [hnode]; rfl⟩

/-- Every published object has a layer. -/
theorem length_publishedObjects_le (domain : ModelDomain σ β ε)
    (hstored : ∀ object ∈ scratch.live, WellStored object.2) :
    (publishedObjects domain scratch).length ≤ (publishedLayers domain scratch).length := by
  have hlayers : ∀ object ∈ publishedObjects domain scratch,
      1 ≤ (objectLayers object).length := by
    intro object hobject
    obtain ⟨entry, hentry, hversions⟩ := (hstored object (List.mem_of_mem_filter hobject)).stored
    obtain ⟨saved, hsaved⟩ := List.exists_mem_of_ne_nil _ hversions
    have hmem : (⟨⟨object.1, entry.1, saved.1⟩, saved.2⟩ : PublishedLayer) ∈
        objectLayers object :=
      List.mem_flatMap.mpr ⟨entry, hentry, List.mem_map_of_mem hsaved⟩
    exact List.length_pos_of_mem hmem
  rw [publishedLayers]
  revert hlayers
  generalize publishedObjects domain scratch = objects
  intro hlayers
  induction objects with
  | nil => exact Nat.zero_le _
  | cons head tail ih =>
      have hhead := hlayers head (List.mem_cons_self ..)
      have htail := ih fun object hobject => hlayers object (List.mem_cons_of_mem _ hobject)
      rw [List.flatMap_cons, List.length_append, List.length_cons]
      omega

theorem length_publishedGenerations_le (domain : ModelDomain σ β ε)
    (scratch : RamDomainStorage) :
    (publishedGenerations domain scratch).length ≤ (publishedObjects domain scratch).length :=
  List.length_filterMap_le _ _

/-- No two published layers have one query. -/
theorem nodup_publishedLayers (hstored : ∀ object ∈ scratch.live, WellStored object.2) :
    ((publishedLayers domain scratch).map PublishedLayer.query).Nodup := by
  rw [publishedLayers, List.map_flatMap, List.nodup_flatMap]
  constructor
  · intro object hobject
    exact nodup_objectLayers (hstored object (List.mem_of_mem_filter hobject))
  · have hids : (publishedObjects domain scratch).Pairwise fun a b => a.1 ≠ b.1 :=
      List.pairwise_map.mp (nodup_publishedObjects domain scratch)
    apply hids.imp
    intro a b hab
    simp only [Function.onFun, List.disjoint_left]
    intro query ha hb
    obtain ⟨layer, hlayer, rfl⟩ := List.mem_map.mp ha
    obtain ⟨other, hother, hquery⟩ := List.mem_map.mp hb
    obtain ⟨_, -, hlayer⟩ := List.mem_flatMap.mp hlayer
    obtain ⟨_, -, rfl⟩ := List.mem_map.mp hlayer
    obtain ⟨_, -, hother⟩ := List.mem_flatMap.mp hother
    obtain ⟨_, -, rfl⟩ := List.mem_map.mp hother
    exact hab (congrArg DomainQuery.id hquery).symm

/-- An object is published if one of its layers is. -/
def IsPublished (parts : PublicationParts) (id : ObjId) : Prop :=
  ∃ layer ∈ parts.layers, layer.query.id = id

theorem mem_publishedObjects_of_isPublished {id : ObjId}
    (h : IsPublished (partsOf domain scratch root) id) :
    id ∈ (publishedObjects domain scratch).map Prod.fst := by
  obtain ⟨layer, hlayer, rfl⟩ := h
  obtain ⟨object, hobject, hlayer⟩ := List.mem_flatMap.mp hlayer
  obtain ⟨_, -, hlayer⟩ := List.mem_flatMap.mp hlayer
  obtain ⟨_, -, rfl⟩ := List.mem_map.mp hlayer
  exact List.mem_map_of_mem hobject

end Published

section Loading

variable {σ β ε φ : Type}

/-- The storage holds these layers and nothing else. -/
def HoldsExactly (storage : UiStorage) (layers : List PublishedLayer) : Prop :=
  ∀ query data, storage.lookup query = some data ↔ (⟨query, data⟩ : PublishedLayer) ∈ layers

/-- The GUI Domain has published objects only, and its Nodes are the Nodes of the model. -/
def MirrorsOnly (model : ModelDomain σ β ε) (parts : PublicationParts)
    (domain : UiDomain ε φ) : Prop :=
  ∀ id object, domain id = some object →
    IsPublished parts id ∧ (object.node.isSome ↔ (model.node? id).isSome)

/-- A load succeeded: the object is there, and so is all that was there before. -/
structure Loads (model : ModelDomain σ β ε) (parts : PublicationParts)
    (domain : UiDomain ε φ) (id : ObjId) (result : UiDomain ε φ × Bool) : Prop where
  loaded : result.2 = true
  mirrors : MirrorsOnly model parts result.1
  there : (result.1 id).isSome
  kept : ∀ other, (domain other).isSome → (result.1 other).isSome

/-- What the GUI side relies on: from a storage that holds the published layers, Aether
loads every published object, with the class it has in the model and together with other
published objects only; and the root that is looked for at the end is found as it is. -/
structure MirrorsGraph (loader : UiLoader ε φ) (model : ModelDomain σ β ε)
    (parts : PublicationParts) : Prop where
  rootPublished : IsPublished parts parts.root
  loadRoot : ∀ storage domain id, HoldsExactly storage parts.layers →
    MirrorsOnly model parts domain → IsPublished parts id →
      Loads model parts domain id (loader.loadRoot storage domain id)
  loadObject : ∀ storage domain id, HoldsExactly storage parts.layers →
    MirrorsOnly model parts domain → (domain id).isSome →
      Loads model parts domain id (loader.loadObject storage domain id)
  findsLive : ∀ storage domain id, (domain id).isSome →
    loader.loadRoot storage domain id = (domain, true)

variable {loader : UiLoader ε φ} {model : ModelDomain σ β ε} {parts : PublicationParts}
  {storage : UiStorage} {domain : UiDomain ε φ}

theorem reloadObject_loads (hgraph : MirrorsGraph loader model parts)
    (hstorage : HoldsExactly storage parts.layers) (hdomain : MirrorsOnly model parts domain)
    {id : ObjId} (hid : IsPublished parts id) :
    ∃ next, reloadObject loader storage domain id = .ok next ∧
      Loads model parts domain id (next, true) := by
  by_cases hlive : (domain id).isSome
  · have hload := hgraph.loadObject storage domain id hstorage hdomain hlive
    refine ⟨_, ?_, ⟨rfl, hload.mirrors, hload.there, hload.kept⟩⟩
    simp [reloadObject, hlive, hload.loaded]
  · have hroot := hgraph.loadRoot storage domain id hstorage hdomain hid
    have hload := hgraph.loadObject storage _ id hstorage hroot.mirrors hroot.there
    refine ⟨_, ?_, ⟨rfl, hload.mirrors, hload.there, fun other hother =>
      hload.kept other (hroot.kept other hother)⟩⟩
    simp [reloadObject, hlive, hroot.loaded, hload.loaded]

/-- Reloading published objects one after another brings them all. -/
theorem reloadAll_loads (hgraph : MirrorsGraph loader model parts)
    (hstorage : HoldsExactly storage parts.layers) (ids : List ObjId)
    (hids : ∀ id ∈ ids, IsPublished parts id) (hdomain : MirrorsOnly model parts domain) :
    ∃ next, ids.foldlM (reloadObject loader storage) domain = .ok next ∧
      MirrorsOnly model parts next ∧ (∀ id ∈ ids, (next id).isSome) ∧
      ∀ other, (domain other).isSome → (next other).isSome := by
  induction ids generalizing domain with
  | nil => exact ⟨domain, rfl, hdomain, by simp, fun _ h => h⟩
  | cons id ids ih =>
      obtain ⟨first, hfirst, hloads⟩ :=
        reloadObject_loads hgraph hstorage hdomain (hids id (List.mem_cons_self ..))
      obtain ⟨next, hnext, hmirrors, hthere, hkept⟩ :=
        ih (fun other hother => hids other (List.mem_cons_of_mem _ hother)) hloads.mirrors
      refine ⟨next, ?_, hmirrors, ?_, fun other hother =>
        hkept other (hloads.kept other hother)⟩
      · rw [List.foldlM_cons, hfirst]
        exact hnext
      · intro other hother
        rcases List.mem_cons.mp hother with rfl | hother
        · exact hkept other hloads.there
        · exact hthere other hother

/-- The graph of a publication is loaded completely. -/
theorem hydrate_loads (hgraph : MirrorsGraph loader model parts)
    (hstorage : HoldsExactly storage parts.layers) :
    ∃ next, hydrateInjectedPublicationGraph loader storage (fun _ => none) parts.root
        (noteObjIds parts.layers []) = .ok next ∧
      MirrorsOnly model parts next ∧ ∀ id, IsPublished parts id → (next id).isSome := by
  have hids : ∀ id, id ∈ noteObjIds parts.layers [] ↔ IsPublished parts id := by
    intro id
    rw [mem_noteObjIds]
    simp [IsPublished]
  have hempty : MirrorsOnly model parts (fun _ => none : UiDomain ε φ) := by
    intro id object hobject
    cases hobject
  have hroot := hgraph.loadRoot storage _ parts.root hstorage hempty hgraph.rootPublished
  obtain ⟨first, hfirst, hmirrors, -, -⟩ := reloadAll_loads hgraph hstorage
    (noteObjIds parts.layers []) (fun id => (hids id).mp) hroot.mirrors
  obtain ⟨second, hsecond, hmirrors, -, -⟩ := reloadAll_loads hgraph hstorage
    ((noteObjIds parts.layers []).mergeSort fun a b => decide (b.id ≤ a.id))
    (fun id hid => (hids id).mp (List.mem_mergeSort.mp hid)) hmirrors
  obtain ⟨next, hnext, hmirrors, hthere, -⟩ := reloadAll_loads hgraph hstorage
    (noteObjIds parts.layers []) (fun id => (hids id).mp) hmirrors
  refine ⟨next, ?_, hmirrors, fun id hid => hthere id ((hids id).mpr hid)⟩
  rw [hydrateInjectedPublicationGraph]
  simp only [hroot.loaded, Bool.not_true, Bool.false_eq_true, if_false, bind, Except.bind,
    hfirst, hsecond, hnext]

end Loading

section Generations

variable {σ β ε φ : Type}

@[simp] theorem finalizeUiNodeState_isNode (object : UiObject ε φ) (generation : UInt64) :
    (finalizeUiNodeState object generation).node.isSome = object.node.isSome := by
  rw [finalizeUiNodeState]
  cases hnode : object.node with
  | none => simp [hnode]
  | some node => rfl

theorem finalizeUiNodeState_node {object : UiObject ε φ} (hnode : object.node.isSome)
    (generation : UInt64) :
    (finalizeUiNodeState object generation).node = some ⟨generation, .empty, []⟩ := by
  obtain ⟨node, hnode⟩ := Option.isSome_iff_exists.mp hnode
  rw [finalizeUiNodeState, hnode]

theorem adoptGeneration_self (domain : UiDomain ε φ) (entry : ObjId × UInt64) :
    adoptGeneration domain entry entry.1 =
      (domain entry.1).map fun object => finalizeUiNodeState object entry.2 := by
  rw [adoptGeneration]
  cases hobject : domain entry.1 with
  | none => exact hobject
  | some object => exact Function.update_self ..

theorem adoptGeneration_of_ne (domain : UiDomain ε φ) {entry : ObjId × UInt64} {id : ObjId}
    (hid : id ≠ entry.1) : adoptGeneration domain entry id = domain id := by
  rw [adoptGeneration]
  cases hobject : domain entry.1 with
  | none => rfl
  | some object => exact Function.update_of_ne hid ..

theorem adoptGenerations_of_not_mem {entries : List (ObjId × UInt64)} {id : ObjId}
    (hid : id ∉ entries.map Prod.fst) (domain : UiDomain ε φ) :
    entries.foldl adoptGeneration domain id = domain id := by
  induction entries generalizing domain with
  | nil => rfl
  | cons head tail ih =>
      rw [List.map_cons, List.mem_cons, not_or] at hid
      rw [List.foldl_cons, ih hid.2, adoptGeneration_of_ne domain hid.1]

/-- An object adopts the one entry that is for it. -/
theorem adoptGenerations_of_mem {entries : List (ObjId × UInt64)}
    (hdistinct : (entries.map Prod.fst).Nodup) {entry : ObjId × UInt64}
    (hentry : entry ∈ entries) (domain : UiDomain ε φ) :
    entries.foldl adoptGeneration domain entry.1 =
      (domain entry.1).map fun object => finalizeUiNodeState object entry.2 := by
  induction entries generalizing domain with
  | nil => cases hentry
  | cons head tail ih =>
      rw [List.map_cons, List.nodup_cons] at hdistinct
      rw [List.foldl_cons]
      rcases List.mem_cons.mp hentry with rfl | htail
      · rw [adoptGenerations_of_not_mem hdistinct.1, adoptGeneration_self]
      · have hne : entry.1 ≠ head.1 := by
          intro heq
          exact hdistinct.1 (heq ▸ List.mem_map_of_mem htail)
        rw [ih hdistinct.2 htail, adoptGeneration_of_ne domain hne]

end Generations

section RoundTrip

variable {σ β ε φ : Type}

/-- The GUI Domain has the published objects, and its Nodes are at the generations of the
model, without base and journal. -/
structure MirrorsCurrent (model : ModelDomain σ β ε) (parts : PublicationParts)
    (domain : UiDomain ε φ) : Prop where
  onlyPublished : MirrorsOnly model parts domain
  allPublished : ∀ id, IsPublished parts id → (domain id).isSome
  nodes : ∀ id object, domain id = some object → object.node.isSome → ∃ node,
    model.node? id = some node ∧
      object.node = some ⟨UInt64.ofNat node.generation, .empty, []⟩

/-- The bytes are read up to the last one into a storage of exactly the published layers
and a mirror of the model; and without their end they give a null result. -/
structure ReadsBack (loader : UiLoader ε φ) (model : ModelDomain σ β ε)
    (parts : PublicationParts) (bytes : Bytes) : Prop where
  loads : ∃ loaded, tryLoadInitialPublication loader ⟨bytes, 0, true⟩ (fun _ => none) ∅ =
    .ok loaded ∧ loaded.source = ⟨bytes, bytes.length, true⟩ ∧ loaded.root = parts.root ∧
    HoldsExactly loaded.storage parts.layers ∧ MirrorsCurrent model parts loaded.domain
  torn : ∀ torn missing, missing ≠ [] → torn ++ missing = bytes → ∃ stage,
    tryLoadInitialPublication loader ⟨torn, 0, true⟩ (fun _ => none) ∅ =
      .error (.stage stage)

variable {loader : UiLoader ε φ} {model : ModelDomain σ β ε} {scratch : RamDomainStorage}
  {root : ObjId}

theorem holdsExactly_storeLayers {layers : List PublishedLayer}
    (hdistinct : (layers.map PublishedLayer.query).Nodup) :
    HoldsExactly (storeLayers layers ∅) layers := by
  intro query data
  constructor
  · intro h
    rcases lookup_storeLayers h with hmem | hempty
    · exact hmem
    · rw [AList.lookup_empty] at hempty
      cases hempty
  · exact fun h => lookup_storeLayers_of_mem hdistinct h

/-- The loaded Domain, after the generations are adopted, mirrors the model. -/
theorem mirrorsCurrent_adopted {domain : UiDomain ε φ}
    (hmirrors : MirrorsOnly model (partsOf model scratch root) domain)
    (hthere : ∀ id, IsPublished (partsOf model scratch root) id → (domain id).isSome) :
    MirrorsCurrent model (partsOf model scratch root)
      ((publishedGenerations model scratch).foldl adoptGeneration domain) := by
  have hkeys := generationsOf_keys model (publishedObjects model scratch)
  have hdistinct : ((publishedGenerations model scratch).map Prod.fst).Nodup := by
    rw [publishedGenerations, hkeys]
    exact (nodup_publishedObjects model scratch).filter _
  -- An object is as it was loaded or is finalized by the one entry that is for it.
  have hadopted : ∀ id, (publishedGenerations model scratch).foldl adoptGeneration domain id =
        domain id ∨
      ∃ generation, (publishedGenerations model scratch).foldl adoptGeneration domain id =
        (domain id).map fun object => finalizeUiNodeState object generation := by
    intro id
    by_cases hid : id ∈ (publishedGenerations model scratch).map Prod.fst
    · obtain ⟨entry, hentry, rfl⟩ := List.mem_map.mp hid
      exact Or.inr ⟨entry.2, adoptGenerations_of_mem hdistinct hentry domain⟩
    · exact Or.inl (adoptGenerations_of_not_mem hid domain)
  constructor
  case onlyPublished =>
    intro id object hobject
    rcases hadopted id with hsame | ⟨generation, hfinal⟩
    · rw [hsame] at hobject
      exact hmirrors id object hobject
    · rw [hfinal] at hobject
      obtain ⟨loaded, hloaded, rfl⟩ := Option.map_eq_some_iff.mp hobject
      rw [finalizeUiNodeState_isNode]
      exact hmirrors id loaded hloaded
  case allPublished =>
    intro id hid
    rcases hadopted id with hsame | ⟨generation, hfinal⟩
    · rw [hsame]
      exact hthere id hid
    · rw [hfinal, Option.isSome_map]
      exact hthere id hid
  case nodes =>
    intro id object hobject hisNode
    have hsome : (domain id).isSome := by
      rcases hadopted id with hsame | ⟨generation, hfinal⟩
      · rw [← hsame, hobject]
        rfl
      · rw [hfinal] at hobject
        obtain ⟨loaded, hloaded, -⟩ := Option.map_eq_some_iff.mp hobject
        rw [hloaded]
        rfl
    obtain ⟨loaded, hloaded⟩ := Option.isSome_iff_exists.mp hsome
    obtain ⟨hid, hnodes⟩ := hmirrors id loaded hloaded
    have hloadedNode : loaded.node.isSome := by
      rcases hadopted id with hsame | ⟨generation, hfinal⟩
      · rw [hsame, hloaded] at hobject
        rw [Option.some.inj hobject]
        exact hisNode
      · rw [hfinal, hloaded] at hobject
        rw [← Option.some.inj hobject, finalizeUiNodeState_isNode] at hisNode
        exact hisNode
    obtain ⟨node, hnode⟩ := Option.isSome_iff_exists.mp (hnodes.mp hloadedNode)
    have hentry := mem_generationsOf hnode (mem_publishedObjects_of_isPublished hid)
    have hfinal := adoptGenerations_of_mem hdistinct hentry domain
    rw [hobject, hloaded] at hfinal
    refine ⟨node, hnode, ?_⟩
    rw [Option.some.inj hfinal]
    exact finalizeUiNodeState_node hloadedNode _

theorem findUiRoot_of_live {storage : UiStorage} {domain : UiDomain ε φ}
    (h : loader.loadRoot storage domain root = (domain, true)) (source : ByteSource) :
    findUiRoot loader storage root source domain = .ok ⟨source, storage, domain, root⟩ := by
  unfold findUiRoot
  rw [h]
  rfl

/-- A publication that fits is read back. -/
theorem readsBack_of_fits (hstored : ∀ object ∈ scratch.live, WellStored object.2)
    (hgraph : MirrorsGraph loader model (partsOf model scratch root))
    (hfits : FitsIn32Bits (partsOf model scratch root)) :
    ReadsBack loader model (partsOf model scratch root)
      (publicationBytes (partsOf model scratch root)) := by
  have hobjects := length_publishedObjects_le model hstored
  have hgenerations : (partsOf model scratch root).generations.length < 2 ^ 32 := by
    have hle := length_publishedGenerations_le model scratch
    have hlayers : (publishedLayers model scratch).length < 2 ^ 32 := hfits.layerCount
    show (publishedGenerations model scratch).length < 2 ^ 32
    omega
  have hparts := publicationParts_written hfits hgenerations
  constructor
  case loads =>
    have hstorage : HoldsExactly (storeLayers (partsOf model scratch root).layers ∅)
        (partsOf model scratch root).layers :=
      holdsExactly_storeLayers (nodup_publishedLayers hstored)
    obtain ⟨hydrated, hhydrate, hmirrors, hthere⟩ := hydrate_loads hgraph hstorage
    have hcurrent := mirrorsCurrent_adopted hmirrors hthere
    have hfound := hgraph.findsLive (storeLayers (partsOf model scratch root).layers ∅) _ root
      (hcurrent.allPublished root hgraph.rootPublished)
    rcases tryLoad_cases loader (publicationBytes (partsOf model scratch root))
        (fun _ => none) ∅ with ⟨hnone, -⟩ | ⟨parts, after, hafter, hread, hload⟩
    · rw [hparts] at hnone
      cases hnone
    · rw [hparts] at hread
      obtain ⟨rfl, hrest⟩ := Prod.mk.inj (Option.some.inj hread)
      have hend : after = (publicationBytes (partsOf model scratch root)).length := by
        have hle := List.drop_eq_nil_iff.mp hrest.symm
        omega
      refine ⟨⟨⟨publicationBytes (partsOf model scratch root), after, true⟩,
        storeLayers (partsOf model scratch root).layers ∅,
        (publishedGenerations model scratch).foldl adoptGeneration hydrated, root⟩, ?_,
        by rw [← hend], rfl, hstorage, hcurrent⟩
      rw [hload, loadParts, hhydrate]
      exact findUiRoot_of_live hfound _
  case torn =>
    intro torn missing hmissing hbytes
    have htorn := torn_noParts hfits hgenerations hmissing hbytes
    rcases tryLoad_cases loader torn (fun _ => none) ∅ with
      ⟨-, hnull⟩ | ⟨parts, after, -, hread, -⟩
    · exact hnull
    · rw [htorn] at hread
      cases hread

/-- What is read back fits: a reader stores fewer than 2^32 layers, of fewer than 2^32
bytes each. -/
theorem fits_of_readsBack (hstored : ∀ object ∈ scratch.live, WellStored object.2)
    {bytes : Bytes} (h : ReadsBack loader model (partsOf model scratch root) bytes) :
    FitsIn32Bits (partsOf model scratch root) := by
  obtain ⟨loaded, hloaded, -, -, hexact, -⟩ := h.loads
  rcases tryLoad_cases loader bytes (fun _ => none) ∅ with
    ⟨-, stage, hload⟩ | ⟨parts, after, -, hread, hload⟩
  · rw [hload] at hloaded
    cases hloaded
  have hfits := publicationParts_fit hread
  have hstorage : loaded.storage = storeLayers parts.layers ∅ := by
    rw [hload, loadParts] at hloaded
    obtain ⟨hydrated, -, hfind⟩ := except_bind_eq_ok_iff.mp hloaded
    rw [findUiRoot] at hfind
    split at hfind
    case isTrue => rw [← Except.ok.inj hfind]
    case isFalse => cases hfind
  -- Every published layer is one of the layers that were read.
  have hsubset : ∀ layer ∈ (partsOf model scratch root).layers, layer ∈ parts.layers := by
    intro layer hlayer
    have hlookup := (hexact layer.query layer.data).mpr hlayer
    rw [hstorage] at hlookup
    rcases lookup_storeLayers hlookup with hmem | hempty
    · exact hmem
    · rw [AList.lookup_empty] at hempty
      cases hempty
  constructor
  case layerSizes => exact fun layer hlayer => hfits.layerSizes layer (hsubset layer hlayer)
  case layerCount =>
    have hdistinct : (partsOf model scratch root).layers.Nodup :=
      (nodup_publishedLayers hstored).of_map _
    have hle := (List.subperm_of_subset hdistinct hsubset).length_le
    exact Nat.lt_of_le_of_lt hle hfits.layerCount

/-- The writer's bytes are those of the published parts. -/
theorem serializeInitialPublication_bytes {cls : NodeClass σ β ε} {saver : ModelSaver σ β ε}
    {domain current : ModelDomain σ β ε} {root : ObjId} {bytes : Bytes}
    (h : serializeInitialPublication cls saver domain root [] = .ok (current, bytes)) :
    bytes = publicationBytes (partsOf current (saver.saveMaterialized current root) root) := by
  obtain ⟨ensured, -, h⟩ := except_bind_eq_ok_iff.mp h
  obtain ⟨rfl, rfl⟩ := Prod.mk.inj (Except.ok.inj h)
  rw [serializeObjectGraphToBuffer_eq]
  rfl

/-- No input makes a load access a byte outside it.  An initial publication is read back,
and gives a null result without its end, exactly if its layers are fewer than 2^32 and are
of fewer than 2^32 bytes each. -/
theorem initialPublication_readsBack_iff (cls : NodeClass σ β ε) (saver : ModelSaver σ β ε)
    (loader : UiLoader ε φ) (domain current : ModelDomain σ β ε) (root : ObjId)
    (bytes : Bytes)
    (hwritten : serializeInitialPublication cls saver domain root [] = .ok (current, bytes))
    (hgraph : MirrorsGraph loader current
      (partsOf current (saver.saveMaterialized current root) root)) :
    (∀ input uiDomain storage, tryLoadInitialPublication loader ⟨input, 0, true⟩ uiDomain
        storage ≠ .error .readPastEnd) ∧
      (ReadsBack loader current (partsOf current (saver.saveMaterialized current root) root)
          bytes ↔
        FitsIn32Bits (partsOf current (saver.saveMaterialized current root) root)) := by
  have hstored := saver.wellStored current root
  refine ⟨tryLoad_withinInput loader, fits_of_readsBack hstored, ?_⟩
  intro hfits
  rw [serializeInitialPublication_bytes hwritten]
  exact readsBack_of_fits hstored hgraph hfits

section Documents

/-- Nodes without Events. -/
def documentClass : NodeClass Unit Unit Unit where
  canApplyTo _ _ := true
  applyTo fields _ _ := .ok fields
  saveBase _ := ()
  loadBase fields _ := fields
  matchesSharedMetadata _ _ _ := true

/-- A document, at its third generation, and a label that is no Node. -/
def documentDomain : ModelDomain Unit Unit Unit := fun id =>
  if id = ⟨7⟩ then
    some (.node { objId := ⟨7⟩, classId := 0x302e84de, base := .empty, journal := [],
                  fields := (), appliedJournalSize := some 0, generation := 3 })
  else if id = ⟨9⟩ then some .other
  else none

/-- The layers of both, where the document's is of the given bytes. -/
def documentScratch (data : Bytes) : RamDomainStorage :=
  AList.insert (⟨7⟩ : ObjId) (some [(0x302e84de, [(0, data)])])
    ((∅ : RamDomainStorage).insert ⟨9⟩ (some [(0x0f06f801, [(0, [4])])]))

theorem documentScratch_live (data : Bytes) : (documentScratch data).live =
    [(⟨7⟩, [(0x302e84de, [(0, data)])]), (⟨9⟩, [(0x0f06f801, [(0, [4])])])] := rfl

/-- The save of a Domain of these two objects. -/
def documentSaver (data : Bytes) : ModelSaver Unit Unit Unit where
  savePersistent _ _ := documentScratch data
  saveMaterialized _ _ := documentScratch data
  wellStored _ _ object hobject := by
    rw [documentScratch_live] at hobject
    rcases List.mem_pair.mp hobject with rfl | rfl
    · exact ⟨by simp, by simp, by simp⟩
    · exact ⟨by simp, by simp, by simp⟩

/-- The Domain after `EnsureCurrentGeneration`. -/
def currentDocument : ModelDomain Unit Unit Unit :=
  Function.update documentDomain ⟨7⟩ (documentDomain ⟨7⟩)

/-- What is published of them. -/
def documentParts (data : Bytes) : PublicationParts :=
  partsOf currentDocument ((documentSaver data).saveMaterialized currentDocument ⟨7⟩) ⟨7⟩

def documentBytes (data : Bytes) : Bytes :=
  serializeObjectGraphToBuffer currentDocument
    ((documentSaver data).saveMaterialized currentDocument ⟨7⟩) (nativeU32Bytes 7)

theorem documentParts_layers (data : Bytes) : (documentParts data).layers =
    [⟨⟨⟨7⟩, 0x302e84de, 0⟩, data⟩, ⟨⟨⟨9⟩, 0x0f06f801, 0⟩, [4]⟩] := rfl

/-- A loader that makes an object of what is stored: a Node, if it has a Node's layer. -/
def documentLoader : UiLoader Unit Unit where
  loadRoot storage domain id :=
    if (domain id).isSome then (domain, true)
    else if storage.keys.any fun query => decide (query.id = id) then
      (Function.update domain id (some ⟨(),
        if (storage.lookup ⟨id, 0x302e84de, 0⟩).isSome then some {} else none⟩), true)
    else (domain, false)
  loadObject _ domain id := (domain, (domain id).isSome)

theorem documentLoader_mirrors (data : Bytes) :
    MirrorsGraph documentLoader currentDocument (documentParts data) where
  rootPublished := ⟨_, List.mem_cons_self .., rfl⟩
  findsLive storage domain id hlive := if_pos hlive
  loadObject storage domain id _ hdomain hlive := ⟨hlive, hdomain, hlive, fun _ h => h⟩
  loadRoot storage domain id hstorage hdomain hid := by
    by_cases hlive : (domain id).isSome
    · rw [documentLoader]
      simp only [hlive, if_true]
      exact ⟨rfl, hdomain, hlive, fun _ h => h⟩
    · have hkey : (storage.keys.any fun query => decide (query.id = id)) = true := by
        obtain ⟨layer, hlayer, hquery⟩ := hid
        have hlookup := (hstorage layer.query layer.data).mpr hlayer
        have hmem : layer.query ∈ storage :=
          AList.lookup_isSome.mp (by rw [hlookup]; rfl)
        rw [List.any_eq_true]
        exact ⟨layer.query, AList.mem_keys.mp hmem, decide_eq_true hquery⟩
      have hnode : (storage.lookup ⟨id, 0x302e84de, 0⟩).isSome ↔
          (currentDocument.node? id).isSome := by
        have hlayers := fun data' => hstorage ⟨id, 0x302e84de, 0⟩ data'
        rw [documentParts_layers] at hlayers
        obtain ⟨layer, hlayer, rfl⟩ := hid
        rw [documentParts_layers] at hlayer
        rcases List.mem_pair.mp hlayer with rfl | rfl
        · rw [(hlayers data).mpr (List.mem_cons_self ..)]
          exact ⟨fun _ => rfl, fun _ => rfl⟩
        · rw [Option.isSome_iff_exists]
          simp only [hlayers]
          simp [currentDocument, ModelDomain.node?, documentDomain, Function.update]
      rw [documentLoader]
      simp only [hlive, Bool.false_eq_true, if_false, hkey, if_true]
      refine ⟨rfl, ?_, by simp, ?_⟩
      · intro other object hobject
        change Function.update domain id _ other = some object at hobject
        by_cases hother : other = id
        · rw [hother, Function.update_self] at hobject
          rw [hother, ← Option.some.inj hobject]
          refine ⟨hid, ?_⟩
          rw [← hnode]
          split <;> simp_all
        · rw [Function.update_of_ne hother] at hobject
          exact hdomain other object hobject
      · intro other hother
        show (Function.update domain id _ other).isSome
        by_cases hsame : other = id
        · rw [hsame, Function.update_self]
          rfl
        · rw [Function.update_of_ne hsame]
          exact hother

/-- A document of three bytes is read back. -/
theorem document_readsBack :
    ReadsBack documentLoader currentDocument (documentParts [1, 2, 3])
      (documentBytes [1, 2, 3]) :=
  (initialPublication_readsBack_iff documentClass (documentSaver [1, 2, 3]) documentLoader
    documentDomain currentDocument ⟨7⟩ (documentBytes [1, 2, 3]) rfl
    (documentLoader_mirrors [1, 2, 3])).2.mpr (by decide)

/-- A document of 2^32 bytes is published as one of no bytes. -/
theorem longDocument_notReadBack :
    serializeInitialPublication documentClass (documentSaver (List.replicate (2 ^ 32) 0))
        documentDomain ⟨7⟩ [] =
      .ok (currentDocument, documentBytes (List.replicate (2 ^ 32) 0)) ∧
    MirrorsGraph documentLoader currentDocument
      (documentParts (List.replicate (2 ^ 32) 0)) ∧
    ¬ReadsBack documentLoader currentDocument (documentParts (List.replicate (2 ^ 32) 0))
      (documentBytes (List.replicate (2 ^ 32) 0)) := by
  generalize hlong : List.replicate (2 ^ 32) (0 : UInt8) = data
  refine ⟨rfl, documentLoader_mirrors data, ?_⟩
  intro hreads
  have hfits := fits_of_readsBack ((documentSaver data).wellStored currentDocument ⟨7⟩) hreads
  have hsize := hfits.layerSizes ⟨⟨⟨7⟩, 0x302e84de, 0⟩, data⟩ (List.mem_cons_self ..)
  rw [← hlong, List.length_replicate] at hsize
  exact Nat.lt_irrefl _ hsize

end Documents

end RoundTrip

end AppTraverse
