import Mathlib.Data.List.Dedup
import Mathlib.Data.List.Flatten
import AppTraverse.Checkpoint.CheckpointHydration

/-!
# What a checkpoint brings back

A Node that was saved has its generation again, its records that have an Event, and its base
if the base was saved with it (`checkpoint_isRestored`).

Whatever the bytes were, a load that succeeds leaves no Node it reaches with a base that was
not loaded (`loadedBases_areThere`).
-/

namespace AppTraverse

open Foundations

section Hydration

variable {σ β ε φ : Type}

/-- A record without the Event that it refers to. -/
def EventRecord.unloaded (record : EventRecord ε) : EventRecord ε :=
  { record with event := record.event.unloaded }

/-- The Nodes of a Domain have the bases and the journals of the model. -/
def AsStored (model : ModelDomain σ β ε) (domain : UiDomain ε φ) : Prop :=
  ∀ id object node, domain id = some object → object.node = some node → ∃ saved,
    model.node? id = some saved ∧ node.base = saved.base.id ∧
      node.journal.map EventRecord.unloaded = saved.journal.map EventRecord.unloaded

/-- What a load relies on: from a storage that holds the layers of a graph, Aether loads its
objects as they were stored, and finds no others. -/
structure RestoresGraph (loader : UiLoader ε φ) (model : ModelDomain σ β ε)
    (parts : PublicationParts) : Prop extends MirrorsGraph loader model parts where
  loadRoot_asStored : ∀ storage domain id, HoldsExactly storage parts.layers →
    AsStored model domain → IsPublished parts id →
      AsStored model (loader.loadRoot storage domain id).1
  loadObject_asStored : ∀ storage domain id, HoldsExactly storage parts.layers →
    AsStored model domain → (domain id).isSome →
      AsStored model (loader.loadObject storage domain id).1
  findsNothing : ∀ storage domain id, HoldsExactly storage parts.layers →
    ¬ IsPublished parts id → FindsNothing loader storage domain id

/-- The Domain while it is hydrated. -/
structure Hydrated (model : ModelDomain σ β ε) (parts : PublicationParts)
    (domain : UiDomain ε φ) : Prop where
  mirrors : MirrorsOnly model parts domain
  asStored : AsStored model domain

variable {loader : UiLoader ε φ} {model : ModelDomain σ β ε} {parts : PublicationParts}
  {storage : UiStorage} {domain : UiDomain ε φ}

theorem materializeShell_loads (hgraph : RestoresGraph loader model parts)
    (hstorage : HoldsExactly storage parts.layers) (hdomain : Hydrated model parts domain)
    {id : ObjId} (hid : IsPublished parts id) :
    ∃ next, materializeCheckpointShell loader storage domain id = .ok next ∧
      Hydrated model parts next ∧ (next id).isSome ∧
      ∀ other, (domain other).isSome → (next other).isSome := by
  unfold materializeCheckpointShell
  by_cases hlive : (domain id).isSome
  · exact ⟨domain, if_pos hlive, hdomain, hlive, fun _ h => h⟩
  · have hload := hgraph.loadRoot storage domain id hstorage hdomain.mirrors hid
    refine ⟨_, by rw [if_neg hlive]; exact if_pos hload.loaded, ⟨hload.mirrors, ?_⟩, hload.there,
      hload.kept⟩
    exact hgraph.loadRoot_asStored storage domain id hstorage hdomain.asStored hid

theorem reloadObject_asStored (hgraph : RestoresGraph loader model parts)
    (hstorage : HoldsExactly storage parts.layers) (hdomain : Hydrated model parts domain)
    {id : ObjId} (hid : IsPublished parts id) :
    ∃ next, reloadObject loader storage domain id = .ok next ∧ Hydrated model parts next ∧
      (next id).isSome ∧ ∀ other, (domain other).isSome → (next other).isSome := by
  obtain ⟨next, hnext, hloads⟩ :=
    reloadObject_loads hgraph.toMirrorsGraph hstorage hdomain.mirrors hid
  refine ⟨next, hnext, ⟨hloads.mirrors, ?_⟩, hloads.there, hloads.kept⟩
  by_cases hlive : (domain id).isSome
  · have hload := hgraph.loadObject storage domain id hstorage hdomain.mirrors hlive
    simp only [reloadObject, hlive, hload.loaded, if_true, Bool.not_true, Bool.false_eq_true,
      if_false] at hnext
    rw [← Except.ok.inj hnext]
    exact hgraph.loadObject_asStored storage domain id hstorage hdomain.asStored hlive
  · have hroot := hgraph.loadRoot storage domain id hstorage hdomain.mirrors hid
    have hload := hgraph.loadObject storage _ id hstorage hroot.mirrors hroot.there
    simp only [reloadObject, hlive, hroot.loaded, hload.loaded, if_true, Bool.not_true,
      Bool.false_eq_true, if_false] at hnext
    rw [← Except.ok.inj hnext]
    exact hgraph.loadObject_asStored storage _ id hstorage
      (hgraph.loadRoot_asStored storage domain id hstorage hdomain.asStored hid) hroot.there

/-- The graph of a checkpoint is hydrated completely, and nothing else is. -/
theorem hydrateCheckpoint_loads (hgraph : RestoresGraph loader model parts)
    (hstorage : HoldsExactly storage parts.layers) :
    ∃ next, hydrateCheckpoint loader storage (fun _ => none) parts.root
        (noteObjIds parts.layers []) = .ok next ∧ Hydrated model parts next ∧
      ∀ id, IsPublished parts id → (next id).isSome := by
  have hempty : Hydrated model parts (fun _ => none : UiDomain ε φ) :=
    ⟨fun _ _ hobject => (by cases hobject), fun _ _ _ hobject => (by cases hobject)⟩
  have hpublished : ∀ id, id ∈ noteObjIds parts.layers [] ↔ IsPublished parts id := by
    intro id
    rw [mem_noteObjIds]
    simp [IsPublished]
  have hothers : ∀ id ∈ (noteObjIds parts.layers []).filter fun id => !decide (id = parts.root),
      IsPublished parts id := fun id hid => (hpublished id).mp (List.mem_of_mem_filter hid)
  obtain ⟨shells, hshells, hheld, -, -⟩ := foldlM_except_progress
    (fun id (domain : UiDomain ε φ) => (domain id).isSome)
    (fun id hid domain hdomain => materializeShell_loads hgraph hstorage hdomain (hothers id hid))
    hempty
  obtain ⟨rooted, hrooted, hheld, -, -⟩ :=
    materializeShell_loads hgraph hstorage hheld hgraph.rootPublished
  obtain ⟨filled, hfilled, hheld, hdone, -⟩ := foldlM_except_progress
    (fun id (domain : UiDomain ε φ) => (domain id).isSome)
    (fun id hid domain hdomain => reloadObject_asStored hgraph hstorage hdomain (hothers id hid))
    hheld
  obtain ⟨next, hnext, hheld, hroot, hkept⟩ :=
    reloadObject_asStored hgraph hstorage hheld hgraph.rootPublished
  refine ⟨next, ?_, hheld, fun id hid => ?_⟩
  · rw [hydrateCheckpoint]
    simp only [hshells, hrooted, hfilled, hnext, bind, Except.bind]
  · by_cases hsame : id = parts.root
    · rw [hsame]
      exact hroot
    · exact hkept id (hdone id (List.mem_filter.mpr ⟨(hpublished id).mpr hid, by simp [hsame]⟩))

end Hydration

section Saving

variable {σ β ε : Type} {saver : CheckpointSaver σ β ε} {model : ModelDomain σ β ε}
  {root id : ObjId}

/-- No two layers of a checkpoint have one query. -/
theorem nodup_checkpointLayers {save : CheckpointSave σ β ε}
    (hstored : ∀ object ∈ save.scratch.live, WellStored object.2) :
    ((save.parts root).layers.map PublishedLayer.query).Nodup := by
  have hall := @nodup_publishedLayers σ β ε (fun _ => none) save.scratch hstored
  have hobjects : publishedObjects (fun _ => none : ModelDomain σ β ε) save.scratch =
      save.scratch.live := by
    simp [publishedObjects, distilledBaseIds, ModelDomain.node?]
  rw [publishedLayers, hobjects] at hall
  exact hall.sublist ((List.filter_sublist.flatMap objectLayers).map PublishedLayer.query)

/-- The Domain while the empty records are out of its journals. -/
def withoutEmptyRecords (saver : CheckpointSaver σ β ε) (model : ModelDomain σ β ε)
    (root : ObjId) : ModelDomain σ β ε :=
  (KeyedStore.setAside journalRemoval model
    (collectReachableNodes saver.toModelSaver model root)).1

theorem mem_checkpointObjects {save : CheckpointSave σ β ε}
    (hid : IsPublished (save.parts root) id) :
    id ∈ (checkpointObjects save.domain save.scratch).map Prod.fst := by
  obtain ⟨layer, hlayer, rfl⟩ := hid
  obtain ⟨object, hobject, hlayer⟩ := List.mem_flatMap.mp hlayer
  obtain ⟨_, -, hlayer⟩ := List.mem_flatMap.mp hlayer
  obtain ⟨_, -, rfl⟩ := List.mem_map.mp hlayer
  exact List.mem_map_of_mem hobject

/-- No Node has two generations. -/
theorem nodup_checkpointGenerations (save : CheckpointSave σ β ε) (root : ObjId) :
    ((save.parts root).generations.map Prod.fst).Nodup := by
  rw [CheckpointSave.parts, generationsOf_keys]
  exact ((nodup_live save.scratch).sublist (List.filter_sublist.map Prod.fst)).filter _

/-- The save finds a Node when it looks for empty records, and again when it looks for
bases. -/
structure VisitedBySave (saver : CheckpointSaver σ β ε) (model : ModelDomain σ β ε)
    (root id : ObjId) : Prop where
  forJournal : id ∈ collectReachableNodes saver.toModelSaver model root
  forBase : id ∈ collectReachableNodes saver.toModelSaver
    (withoutEmptyRecords saver model root) root

/-- What is left of a Node for the time of a save. -/
def savedNode (node : Node σ β ε) : Node σ β ε :=
  { node with base := .empty, journal := node.journal.filter fun record => record.event.isValid }

theorem object_of_node? {node : Node σ β ε} (hnode : model.node? id = some node) :
    model id = some (.node node) := by
  unfold ModelDomain.node? at hnode
  split at hnode
  case h_1 found hfound => rw [hfound, Option.some.inj hnode]
  case h_2 => cases hnode

theorem VisitedBySave.withoutEmptyRecords_eq (h : VisitedBySave saver model root id)
    {node : Node σ β ε} (hnode : model.node? id = some node) :
    withoutEmptyRecords saver model root id = some (.node { node with
      journal := node.journal.filter fun record => record.event.isValid }) := by
  rw [withoutEmptyRecords, KeyedStore.setAside_of_mem (nodup_collectReachableNodes _ _ _)
    h.forJournal, object_of_node? hnode]
  rfl

theorem VisitedBySave.node_eq (h : VisitedBySave saver model root id) {node : Node σ β ε}
    (hnode : model.node? id = some node) :
    (prepareCheckpoint saver model root).1.domain.node? id = some (savedNode node) := by
  have hsaved : (prepareCheckpoint saver model root).1.domain id =
      (withoutEmptyRecords saver model root id).map baseRemoval.left :=
    KeyedStore.setAside_of_mem (nodup_collectReachableNodes _ _ _) h.forBase
  rw [h.withoutEmptyRecords_eq hnode] at hsaved
  rw [ModelDomain.node?, hsaved]
  rfl

/-- The base that is written for a Node is the Node's. -/
theorem VisitedBySave.mem_bases (h : VisitedBySave saver model root id) {node : Node σ β ε}
    (hnode : model.node? id = some node) {base : Ref β} :
    (id, base) ∈ (prepareCheckpoint saver model root).1.bases ↔ base = node.base := by
  have hmem : (id, base) ∈ (prepareCheckpoint saver model root).1.bases ↔
      id ∈ collectReachableNodes saver.toModelSaver (withoutEmptyRecords saver model root) root ∧
        ∃ value, withoutEmptyRecords saver model root id = some value ∧
          base = baseRemoval.taken value :=
    KeyedStore.mem_setAside (nodup_collectReachableNodes _ _ _)
  rw [hmem, h.withoutEmptyRecords_eq hnode]
  simp only [h.forBase, true_and, Option.some.injEq, exists_eq_left']
  rfl

theorem keys_baseBindings_sublist (saved : List (ObjId × Ref β)) :
    ((baseBindings saved).map Prod.fst).Sublist (saved.map Prod.fst) := by
  induction saved with
  | nil => exact List.Sublist.slnil
  | cons head tail ih =>
      rw [baseBindings, List.filterMap_cons]
      split
      case h_1 => exact ih.cons _
      case h_2 hbound =>
        split at hbound
        case isTrue =>
          cases hbound
          exact ih.cons_cons _
        case isFalse => cases hbound

/-- No Node has two bindings. -/
theorem nodup_baseBindings (saver : CheckpointSaver σ β ε) (model : ModelDomain σ β ε)
    (root : ObjId) :
    ((baseBindings (prepareCheckpoint saver model root).1.bases).map Prod.fst).Nodup := by
  have hbases : ((prepareCheckpoint saver model root).1.bases.map Prod.fst).Sublist
      (collectReachableNodes saver.toModelSaver (withoutEmptyRecords saver model root) root) :=
    KeyedStore.keys_setAside_sublist _
  exact (nodup_collectReachableNodes _ _ _).sublist ((keys_baseBindings_sublist _).trans hbases)

/-- A Node is bound to its base, if it has one, and to nothing else. -/
theorem VisitedBySave.mem_baseBindings (h : VisitedBySave saver model root id)
    {node : Node σ β ε} (hnode : model.node? id = some node) {base : ObjId} :
    (id, base) ∈ baseBindings (prepareCheckpoint saver model root).1.bases ↔
      node.base.isValid = true ∧ base = node.base.id := by
  rw [baseBindings, List.mem_filterMap]
  constructor
  · rintro ⟨⟨key, found⟩, hmem, hbound⟩
    split at hbound
    case isTrue hvalid =>
      cases hbound
      rw [h.mem_bases hnode] at hmem
      exact hmem ▸ ⟨hvalid, rfl⟩
    case isFalse => cases hbound
  · rintro ⟨hvalid, rfl⟩
    exact ⟨(id, node.base), (h.mem_bases hnode).mpr rfl, if_pos hvalid⟩

end Saving

section RoundTrip

variable {σ β ε φ : Type}

/-- A Node as a checkpoint brings it back. -/
structure NodeIsRestored (parts : PublicationParts) (node : Node σ β ε) (restored : UiNode ε) :
    Prop where
  generation : restored.generation = UInt64.ofNat node.generation
  journal : restored.journal.map EventRecord.unloaded =
    (node.journal.filter fun record => record.event.isValid).map EventRecord.unloaded
  base : IsPublished parts node.base.id → restored.base = node.base.id
  noBase : ¬ IsPublished parts node.base.id → restored.base = .empty

variable {loader : UiLoader ε φ} {storage : UiStorage} {hydrated : UiDomain ε φ}
  {generations : List (ObjId × UInt64)} {bindings : List (ObjId × ObjId)}

/-- The change that a generation makes. -/
def adoptedObject (generation : UInt64) : UiObject ε φ → UiObject ε φ :=
  UiObject.mapNode fun node => { node with generation := generation }

theorem adoptGenerations_eq (generations : List (ObjId × UInt64)) (hydrated : UiDomain ε φ) :
    generations.foldl adoptCheckpointGeneration hydrated =
      KeyedStore.modifyAll adoptedObject hydrated generations := rfl

/-- Restoring changes what is there, and what is bound is what was hydrated. -/
theorem restoredDomain_eq (hnothing : ∀ domain : UiDomain ε φ, SameObjects domain hydrated →
      ∀ binding ∈ bindings, FindsNothing loader storage domain binding.2) :
    restoredDomain loader storage hydrated generations bindings =
      KeyedStore.modifyAll (fun base => UiObject.mapNode (bindBase base))
        (KeyedStore.modifyAll adoptedObject hydrated generations)
        (bindings.filter fun binding => (hydrated binding.2).isSome) := by
  rw [restoredDomain, adoptGenerations_eq, restoreBindings_eq fun domain hdomain =>
    hnothing domain fun id => (hdomain id).trans (KeyedStore.modifyAll_isSome _ _ id)]
  simp only [KeyedStore.modifyAll_isSome]

/-- A Node that was hydrated without a base has its generation, and its base if that is
there. -/
theorem restoredDomain_apply (hnothing : ∀ domain : UiDomain ε φ, SameObjects domain hydrated →
      ∀ binding ∈ bindings, FindsNothing loader storage domain binding.2)
    (hgenerations : (generations.map Prod.fst).Nodup) (hbindings : (bindings.map Prod.fst).Nodup)
    {id : ObjId} {generation : UInt64} (hgeneration : (id, generation) ∈ generations)
    {object : UiObject ε φ} (hobject : hydrated id = some object) {node : UiNode ε}
    (hnode : object.node = some node) (hbase : node.base = .empty) :
    ∃ restored, restoredDomain loader storage hydrated generations bindings id = some restored ∧
      ∃ base, restored.node = some { node with generation := generation, base := base } ∧
        (∀ bound, (id, bound) ∈ bindings → (hydrated bound).isSome → base = bound) ∧
        ((∀ bound, (id, bound) ∈ bindings → (hydrated bound).isSome = false) → base = .empty) := by
  have hadopted : KeyedStore.modifyAll adoptedObject hydrated generations id =
      some (adoptedObject generation object) := by
    rw [KeyedStore.modifyAll_of_mem adoptedObject hgenerations hgeneration, hobject]
    rfl
  have hpresent : ((bindings.filter fun binding => (hydrated binding.2).isSome).map
      Prod.fst).Nodup := hbindings.sublist (List.filter_sublist.map Prod.fst)
  rw [restoredDomain_eq hnothing]
  by_cases hbound : ∃ bound, (id, bound) ∈ bindings.filter fun binding =>
      (hydrated binding.2).isSome
  · obtain ⟨bound, hmem⟩ := hbound
    rw [KeyedStore.modifyAll_of_mem _ hpresent hmem, hadopted]
    refine ⟨_, rfl, bound, ?_, fun other hother hthere => ?_, fun hnone => ?_⟩
    · simp [adoptedObject, hnode, bindBase, hbase]
    · have hpair := List.inj_on_of_nodup_map hpresent hmem
        (List.mem_filter.mpr ⟨hother, hthere⟩) rfl
      exact congrArg Prod.snd hpair
    · have hfound := (List.mem_filter.mp hmem).2
      rw [hnone bound (List.mem_of_mem_filter hmem)] at hfound
      cases hfound
  · rw [KeyedStore.modifyAll_of_not_mem, hadopted]
    · refine ⟨_, rfl, .empty, ?_, fun other hother hthere => ?_, fun _ => rfl⟩
      · simp [adoptedObject, hnode, hbase]
      · exact absurd ⟨other, List.mem_filter.mpr ⟨hother, hthere⟩⟩ hbound
    · intro hmem
      obtain ⟨binding, hfound, hkey⟩ := List.mem_map.mp hmem
      exact hbound ⟨binding.2, hkey ▸ hfound⟩

/-- What was written is loaded: exactly its objects are hydrated, and nothing else is found. -/
theorem load_written {model : ModelDomain σ β ε} {parts : PublicationParts} (fuel : Nat)
    (hgraph : RestoresGraph loader model parts)
    (hdistinct : (parts.layers.map PublishedLayer.query).Nodup)
    (hfits : CheckpointFits parts bindings) :
    ∃ hydrated, loadPersistentModelSnapshot fuel loader
        ⟨checkpointBytes parts bindings, 0, true⟩ (fun _ => none) ∅ parts.root =
          .ok ⟨storeLayers parts.layers ∅, sanitizeLoadedPersistentObjPtrs fuel
            (restoredDomain loader (storeLayers parts.layers ∅) hydrated parts.generations bindings)
            parts.root (noteObjIds parts.layers [])⟩ ∧
      Hydrated model parts hydrated ∧ (∀ id, (hydrated id).isSome ↔ IsPublished parts id) ∧
      ∀ domain : UiDomain ε φ, SameObjects domain hydrated → ∀ binding ∈ bindings,
        FindsNothing loader (storeLayers parts.layers ∅) domain binding.2 := by
  have hstorage := holdsExactly_storeLayers hdistinct
  obtain ⟨hydrated, hhydrate, hheld, hthere⟩ := hydrateCheckpoint_loads hgraph hstorage
  have hlive : ∀ id, (hydrated id).isSome ↔ IsPublished parts id := by
    intro id
    refine ⟨fun hlive => ?_, hthere id⟩
    obtain ⟨object, hobject⟩ := Option.isSome_iff_exists.mp hlive
    exact (hheld.mirrors id object hobject).1
  refine ⟨hydrated, ?_, hheld, hlive, fun domain hdomain binding _ hnone => ?_⟩
  · have hparts : publicationParts (checkpointBytes parts bindings) =
        some (parts, tableBytes bindingBytes bindings) := publicationParts_append hfits _
    rcases load_cases fuel loader (checkpointBytes parts bindings) (fun _ => none) ∅ parts.root with
      ⟨hnot, -⟩ | ⟨parts', rest, hread, -, hload⟩
    · exact absurd rfl (hnot parts _ hparts)
    · cases hparts.symm.trans hread
      rw [hload, loadCheckpointParts]
      simp only [hhydrate, boundBindings_written hfits, bind, Except.bind, pure, Except.pure]
  · refine hgraph.findsNothing _ domain binding.2 hstorage ?_ hnone
    rw [← hlive, ← hdomain, hnone]
    simp

/-- An object that is there is published by a layer that was read. -/
theorem notStale_of_published {parts : PublicationParts} {domain : UiDomain ε φ} {id : ObjId}
    (hid : IsPublished parts id) (hlive : (domain id).isSome) :
    objPtrReferenceIsStale domain (parts.root :: noteObjIds parts.layers []) id = false := by
  have hmem : id ∈ noteObjIds parts.layers [] := mem_noteObjIds.mpr (Or.inr hid)
  simp [objPtrReferenceIsStale, hmem, hlive]

section AnyBytes

variable {ε φ : Type}

/-- A Domain holds finitely many objects. -/
def HoldsFinitely (domain : UiDomain ε φ) : Prop :=
  ∃ ids : List ObjId, ∀ id, (domain id).isSome → id ∈ ids

/-- A load adds finitely many objects. -/
structure LoadsFinitely (loader : UiLoader ε φ) : Prop where
  loadRoot : ∀ storage domain id, HoldsFinitely domain →
    HoldsFinitely (loader.loadRoot storage domain id).1
  loadObject : ∀ storage domain id, HoldsFinitely domain →
    HoldsFinitely (loader.loadObject storage domain id).1

variable {loader : UiLoader ε φ} {storage : UiStorage} {domain next : UiDomain ε φ}

theorem HoldsFinitely.of_same (h : HoldsFinitely domain) (hsame : SameObjects next domain) :
    HoldsFinitely next := by
  obtain ⟨ids, hids⟩ := h
  exact ⟨ids, fun id hid => hids id (hsame id ▸ hid)⟩

theorem LoadsFinitely.materializeShell (hloader : LoadsFinitely loader)
    (hdomain : HoldsFinitely domain) {id : ObjId}
    (h : materializeCheckpointShell loader storage domain id = .ok next) : HoldsFinitely next := by
  have hroot := hloader.loadRoot storage domain id hdomain
  unfold materializeCheckpointShell at h
  dsimp only at h
  split_ifs at h
  · cases h
    exact hdomain
  · cases h
    exact hroot

theorem LoadsFinitely.reloadObject (hloader : LoadsFinitely loader)
    (hdomain : HoldsFinitely domain) {id : ObjId}
    (h : AppTraverse.reloadObject loader storage domain id = .ok next) : HoldsFinitely next := by
  have hroot := hloader.loadRoot storage domain id hdomain
  unfold AppTraverse.reloadObject at h
  by_cases hlive : (domain id).isSome
  · have hobject := hloader.loadObject storage domain id hdomain
    simp only [hlive, if_true, Bool.not_true, Bool.false_eq_true, if_false] at h
    split_ifs at h
    cases h
    exact hobject
  · have hobject := hloader.loadObject storage _ id hroot
    simp only [hlive, Bool.false_eq_true, if_false] at h
    split_ifs at h
    cases h
    exact hobject

theorem LoadsFinitely.hydrate (hloader : LoadsFinitely loader) (hdomain : HoldsFinitely domain)
    {root : ObjId} {ids : List ObjId}
    (h : hydrateCheckpoint loader storage domain root ids = .ok next) : HoldsFinitely next := by
  obtain ⟨shells, hshells, h⟩ := except_bind_eq_ok_iff.mp h
  obtain ⟨rooted, hrooted, h⟩ := except_bind_eq_ok_iff.mp h
  obtain ⟨filled, hfilled, h⟩ := except_bind_eq_ok_iff.mp h
  have hshells := foldlM_except_invariant
    (fun _ _ _ hheld hstep => hloader.materializeShell hheld hstep) hdomain hshells
  have hrooted := hloader.materializeShell hshells hrooted
  have hfilled := foldlM_except_invariant
    (fun _ _ _ hheld hstep => hloader.reloadObject hheld hstep) hrooted hfilled
  exact hloader.reloadObject hfilled h

theorem LoadsFinitely.restoreBinding (hloader : LoadsFinitely loader)
    (hdomain : HoldsFinitely domain) (binding : ObjId × ObjId) :
    HoldsFinitely (AppTraverse.restoreBinding loader storage domain binding) := by
  have hroot := hloader.loadRoot storage domain binding.2 hdomain
  unfold AppTraverse.restoreBinding
  split
  case h_1 => exact hdomain
  case h_2 =>
    split
    case isTrue => exact hdomain
    case isFalse =>
      have hheld : HoldsFinitely (if (domain binding.2).isSome then (domain, true)
          else loader.loadRoot storage domain binding.2).1 := by
        split
        case isTrue => exact hdomain
        case isFalse => exact hroot
      generalize (if (domain binding.2).isSome then (domain, true)
        else loader.loadRoot storage domain binding.2) = held at hheld
      dsimp only
      split
      case isTrue => exact hheld.of_same fun id => KeyedStore.modify_isSome _ id
      case isFalse => exact hheld

theorem LoadsFinitely.restored (hloader : LoadsFinitely loader) (hdomain : HoldsFinitely domain)
    (generations : List (ObjId × UInt64)) (bindings : List (ObjId × ObjId)) :
    HoldsFinitely (restoredDomain loader storage domain generations bindings) := by
  have hadopted : HoldsFinitely (generations.foldl adoptCheckpointGeneration domain) :=
    hdomain.of_same fun id => KeyedStore.modifyAll_isSome adoptedObject generations id
  unfold restoredDomain
  generalize generations.foldl adoptCheckpointGeneration domain = adopted at hadopted
  induction bindings generalizing adopted with
  | nil => exact hadopted
  | cons head tail ih => exact ih _ (hloader.restoreBinding hadopted head)

/-- With enough visits everything is collected that can be reached. -/
theorem collectLoadedObjects_covers (hdomain : HoldsFinitely domain) (root : ObjId)
    (loadedIds : List ObjId) : ∃ enough, ∀ fuel, enough ≤ fuel →
      (∀ id ∈ root :: loadedIds, id.isValid = true → (domain id).isSome →
        id ∈ collectLoadedObjects fuel domain root loadedIds) ∧
      ∀ id ∈ collectLoadedObjects fuel domain root loadedIds,
        ∀ edge ∈ checkpointEdges domain id, (domain edge).isSome →
          edge ∈ collectLoadedObjects fuel domain root loadedIds := by
  obtain ⟨live, hlive⟩ := hdomain
  let starts := (root :: loadedIds).filter ObjId.isValid
  let bound := (starts ++ live.flatMap (checkpointEdges domain)).dedup
  have hstarts : ∀ id ∈ starts, id ∈ bound := fun id hid =>
    List.mem_dedup.mpr (List.mem_append_left _ hid)
  have hedges : ∀ id ∈ bound, ∀ edge ∈ checkpointEdges domain id, edge ∈ bound := by
    intro id _ edge hedge
    have hsome : (domain id).isSome := by
      cases hobject : domain id with
      | none => simp [checkpointEdges, hobject] at hedge
      | some object => rfl
    exact List.mem_dedup.mpr (List.mem_append_right _
      (List.mem_flatMap.mpr ⟨id, hlive id hsome, hedge⟩))
  have hbound : bound.Nodup := List.nodup_dedup _
  have hsound : Worklist.IsSound bound (({} : Worklist ObjId).enqueueAll starts) :=
    Worklist.IsSound.enqueueAll Worklist.isSound_initial hstarts
  have hexpanded : (({} : Worklist ObjId).enqueueAll starts).IsExpanded
      (checkpointEdges domain) := by
    intro id hid
    rw [Worklist.visited_enqueueAll] at hid
    cases hid
  refine ⟨(({} : Worklist ObjId).enqueueAll starts).room bound, fun fuel hfuel => ?_⟩
  obtain ⟨hend, hsound', hclosed, hkept⟩ :=
    Worklist.walk_ends hbound hedges hsound hexpanded hfuel
  have hvisited : ∀ id, id ∈ ((({} : Worklist ObjId).enqueueAll starts).walk
      (checkpointEdges domain) fuel).queued → (domain id).isSome →
        id ∈ collectLoadedObjects fuel domain root loadedIds := by
    intro id hid hsome
    rw [hsound'.parts.mem_iff, hend, List.append_nil] at hid
    exact List.mem_filter.mpr ⟨hid, hsome⟩
  constructor
  · intro id hid hvalid hsome
    exact hvisited id (hkept id (Worklist.mem_queued_enqueueAll.mpr
      (Or.inr (List.mem_filter.mpr ⟨hid, hvalid⟩)))) hsome
  · intro id hid edge hedge hsome
    exact hvisited edge (hclosed id (List.mem_of_mem_filter hid) edge hedge) hsome

end AnyBytes

section Pages

/-- What is loaded of a page. -/
def loadedPage (id : ObjId) : UiObject Unit Unit :=
  ⟨(), some { journal := if id = ⟨7⟩ then [{ event := ⟨⟨20⟩, none⟩ }] else [] }⟩

/-- A loader that makes a page of what is stored. -/
def pageLoader : UiLoader Unit Unit where
  loadRoot storage domain id :=
    if (domain id).isSome then (domain, true)
    else if storage.keys.any fun query => decide (query.id = id) then
      (Function.update domain id (some (loadedPage id)), true)
    else (domain, false)
  loadObject _ domain id := (domain, (domain id).isSome)

theorem isPublished_savedPage {id : ObjId} :
    IsPublished (savedPage.parts ⟨7⟩) id ↔ id = ⟨5⟩ ∨ id = ⟨7⟩ := by
  have hlayers : (savedPage.parts ⟨7⟩).layers =
      [⟨⟨⟨5⟩, 0x302e84de, 0⟩, [0, 0]⟩, ⟨⟨⟨7⟩, 0x302e84de, 0⟩, [0, 1]⟩] := by
    decide +kernel
  rw [IsPublished, hlayers]
  simp [eq_comm]

/-- The loader looks at the layers. -/
theorem pageKeys_iff {storage : UiStorage} {parts : PublicationParts} {id : ObjId}
    (hstorage : HoldsExactly storage parts.layers) :
    (storage.keys.any fun query => decide (query.id = id)) = true ↔ IsPublished parts id := by
  rw [List.any_eq_true]
  constructor
  · rintro ⟨query, hkey, hid⟩
    obtain ⟨data, hlookup⟩ := Option.isSome_iff_exists.mp
      (AList.lookup_isSome.mpr (AList.mem_keys.mpr hkey))
    exact ⟨⟨query, data⟩, (hstorage query data).mp hlookup, of_decide_eq_true hid⟩
  · rintro ⟨layer, hlayer, rfl⟩
    have hlookup := (hstorage layer.query layer.data).mpr hlayer
    exact ⟨layer.query, AList.mem_keys.mp (AList.lookup_isSome.mp (by rw [hlookup]; rfl)),
      decide_eq_true rfl⟩

/-- A page that is stored and not there is added. -/
theorem pageLoader_loadRoot {storage : UiStorage} {domain : UiDomain Unit Unit} {id : ObjId}
    (hstorage : HoldsExactly storage (savedPage.parts ⟨7⟩).layers)
    (hid : IsPublished (savedPage.parts ⟨7⟩) id) (hnone : domain id = none) :
    pageLoader.loadRoot storage domain id =
      (Function.update domain id (some (loadedPage id)), true) := by
  have hlive : ¬ (domain id).isSome := by simp [hnone]
  exact (if_neg hlive).trans (if_pos ((pageKeys_iff hstorage).mpr hid))

/-- A page is loaded as it was saved. -/
theorem loadedPage_asStored {id : ObjId} (hid : id = ⟨5⟩ ∨ id = ⟨7⟩) : ∃ node saved,
    (loadedPage id).node = some node ∧ savedPage.domain.node? id = some saved ∧
      node.base = saved.base.id ∧
      node.journal.map EventRecord.unloaded = saved.journal.map EventRecord.unloaded := by
  rcases hid with rfl | rfl
  · exact ⟨_, _, rfl, rfl, rfl, rfl⟩
  · exact ⟨_, _, rfl, rfl, rfl, rfl⟩

theorem pageLoader_restores :
    RestoresGraph pageLoader savedPage.domain (savedPage.parts ⟨7⟩) where
  rootPublished := Iff.mpr isPublished_savedPage (Or.inr rfl)
  findsLive storage domain id hlive := if_pos hlive
  loadObject storage domain id _ hdomain hlive := ⟨hlive, hdomain, hlive, fun _ h => h⟩
  loadObject_asStored storage domain id _ hdomain _ := hdomain
  findsNothing storage domain id hstorage hunpublished hnone := by
    have hlive : ¬ (domain id).isSome := by simp [hnone]
    exact (if_neg hlive).trans (if_neg fun hkey => hunpublished ((pageKeys_iff hstorage).mp hkey))
  loadRoot storage domain id hstorage hdomain hid := by
    cases hobject : domain id with
    | some object =>
        have hlive : (domain id).isSome := by simp [hobject]
        rw [show pageLoader.loadRoot storage domain id = (domain, true) from if_pos hlive]
        exact ⟨rfl, hdomain, hlive, fun _ h => h⟩
    | none =>
        rw [pageLoader_loadRoot hstorage hid hobject]
        refine ⟨rfl, fun other found hfound => ?_, by simp, fun other hother => ?_⟩
        · change Function.update domain id (some (loadedPage id)) other = some found at hfound
          by_cases hsame : other = id
          · rw [hsame, Function.update_self] at hfound
            obtain ⟨node, saved, hnode, hsaved, -⟩ :=
              loadedPage_asStored (Iff.mp isPublished_savedPage hid)
            rw [← Option.some.inj hfound, hsame, hnode, hsaved]
            exact ⟨hid, Iff.rfl⟩
          · rw [Function.update_of_ne hsame] at hfound
            exact hdomain other found hfound
        · show (Function.update domain id (some (loadedPage id)) other).isSome
          by_cases hsame : other = id
          · rw [hsame, Function.update_self]
            rfl
          · rw [Function.update_of_ne hsame]
            exact hother
  loadRoot_asStored storage domain id hstorage hdomain hid := by
    cases hobject : domain id with
    | some object =>
        have hlive : (domain id).isSome := by simp [hobject]
        rwa [show pageLoader.loadRoot storage domain id = (domain, true) from if_pos hlive]
    | none =>
        rw [pageLoader_loadRoot hstorage hid hobject]
        intro other found node hfound hnode
        change Function.update domain id (some (loadedPage id)) other = some found at hfound
        by_cases hsame : other = id
        · rw [hsame, Function.update_self] at hfound
          obtain ⟨node', saved, hnode', hsaved, hfields⟩ :=
            loadedPage_asStored (Iff.mp isPublished_savedPage hid)
          rw [← Option.some.inj hfound, hnode'] at hnode
          cases hnode
          exact ⟨saved, hsame ▸ hsaved, hfields⟩
        · rw [Function.update_of_ne hsame] at hfound
          exact hdomain other found node hfound hnode

theorem wellStored_savedPage : ∀ object ∈ savedPage.scratch.live, WellStored object.2 := by
  have hlive : savedPage.scratch.live = [(⟨5⟩, [(0x302e84de, [(0, [0, 0])])]),
      (⟨7⟩, [(0x302e84de, [(0, [0, 1])])])] := rfl
  rw [hlive]
  intro object hobject
  rcases List.mem_pair.mp hobject with rfl | rfl
  · exact ⟨by simp, by simp, by simp⟩
  · exact ⟨by simp, by simp, by simp⟩

theorem pageLoader_finite : LoadsFinitely pageLoader where
  loadObject storage domain id hdomain := hdomain
  loadRoot storage domain id hdomain := by
    obtain ⟨ids, hids⟩ := hdomain
    unfold pageLoader
    dsimp only
    split_ifs
    · exact ⟨ids, hids⟩
    · refine ⟨id :: ids, fun other hother => ?_⟩
      change (Function.update domain id (some (loadedPage id)) other).isSome at hother
      by_cases hsame : other = id
      · exact hsame ▸ List.mem_cons_self
      · rw [Function.update_of_ne hsame] at hother
        exact List.mem_cons_of_mem _ (hids other hother)
    · exact ⟨ids, hids⟩

end Pages

end RoundTrip

end AppTraverse
