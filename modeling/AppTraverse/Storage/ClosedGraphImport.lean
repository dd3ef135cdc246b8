import AppTraverse.Storage.LinkedObjects

/-!
# Importing a closed Event graph

`ImportClosedEventGraph` gives every object of a validated payload an id of the receiver,
adds the objects to the receiver's Domain and saves them, remapping their references on
the way.  The import is a copy when a remapped reference is not remapped again: when the
new id of a reference that is written twice is not the id of another payload object.
-/

namespace AppTraverse

open Foundations

/-- The receiver: what its Domain resolves, and what its storage holds. -/
structure Receiver where
  domain : ObjId → Option LinkedObject
  storage : ObjId → List StoredLayer

namespace Receiver

/-- The Domain or the storage knows the id. -/
def isOccupied (receiver : Receiver) (id : ObjId) : Bool :=
  (receiver.domain id).isSome || !(receiver.storage id).isEmpty

/-- `AllocateUniqueReceiverObjId` accepts the id, as far as the receiver goes. -/
def isFree (receiver : Receiver) (id : ObjId) : Bool :=
  id.isValid && !receiver.isOccupied id

/-- `Domain::AddObject`. -/
def addObject (receiver : Receiver) (entry : ObjId × LinkedObject) : Receiver :=
  { receiver with domain := Function.update receiver.domain entry.1 (some entry.2) }

/-- `DomainGraph::SaveRoot` through the remapping storage: the live object changes, and
its layers are written. -/
def saveRoot (mapping : List (ObjId × ObjId)) (saved : Receiver × Bool)
    (entry : ObjId × LinkedObject) : Receiver × Bool :=
  let layers := saveLayers mapping entry.2.links entry.2.layers
  ({ domain := Function.update saved.1.domain entry.1
        (some { entry.2 with links := layers.1 })
     storage := Function.update saved.1.storage entry.1 layers.2.1 },
    saved.2 && layers.2.2)

end Receiver

/-- The objects that Aether loads from a payload. -/
def payloadObjects (load : Layers → Option LinkedObject) (parsed : RamDomainStorage) :
    Option (List (ObjId × LinkedObject)) :=
  parsed.live.mapM fun stored => (load stored.2).map (stored.1, ·)

/-- What `ImportClosedEventGraph` returns and leaves: the id of the imported Event, or
null, and the receiver. -/
structure ClosedImport where
  event : Option ObjId
  receiver : Receiver

section Import

variable {α ε : Type} (aether : Aether α ε) (load : Layers → Option LinkedObject)

/-- `ValidateClosedEventGraphStorage` for any Event class. -/
def acceptsClosedGraph (parsed : RamDomainStorage) (rootEventId : ObjId) : Bool :=
  validateClosedEventGraphStorage aether
    (fun layers => (load layers).map LinkedObject.objectLinks) parsed rootEventId 0

/-- `ImportClosedEventGraph`.  `generated` are the ids that `ObjId::GenerateUnique` offers
during the call; the call does not return before it has found an id for each object. -/
def importClosedEventGraph (parsed : RamDomainStorage) (rootEventId : ObjId)
    (receiver : Receiver) (reserved generated : List ObjId) : Except Fault ClosedImport :=
  if !acceptsClosedGraph aether load parsed rootEventId then
    .ok ⟨none, receiver⟩
  else
    match drawNames receiver.isFree (parsed.live.map Prod.fst) reserved generated with
    | none => .error .noUniqueId
    | some mapping =>
        match payloadObjects load parsed with
        | none => .ok ⟨none, receiver⟩
        | some objects =>
            let loaded := objects.map fun entry => (newIdOf mapping entry.1, entry.2)
            let added := loaded.foldl Receiver.addObject receiver
            let saved := loaded.foldl (Receiver.saveRoot mapping) (added, true)
            if saved.2 then
              .ok ⟨mapping.lookup rootEventId, saved.1⟩
            else
              .ok ⟨none, saved.1⟩

end Import

/-- The live image of an object: its class, its scalars, and the image of every
reference. -/
structure IsImage (mapping : List (ObjId × ObjId)) (object image : LinkedObject) : Prop where
  classId : image.classId = object.classId
  layers : image.layers = object.layers
  links : ∀ field ∈ object.fields.map Prod.fst,
    image.links field = imageLink mapping field (object.links field)

/-- The receiver got an isomorphic copy of the objects, and nothing else changed. -/
structure IsCopied (objects : List (ObjId × LinkedObject)) (mapping : List (ObjId × ObjId))
    (reserved : List ObjId) (receiver receiver' : Receiver) : Prop where
  keys : mapping.map Prod.fst = objects.map Prod.fst
  distinct : (mapping.map Prod.snd).Nodup
  fresh : ∀ newId ∈ mapping.map Prod.snd,
    newId.isValid = true ∧ newId ∉ reserved ∧ receiver.isOccupied newId = false
  closed : ∀ entry ∈ objects, ∀ index, .sharedPtr index ∈ entry.2.fields.map Prod.fst →
    (entry.2.links (.sharedPtr index)).isValid = true →
      entry.2.links (.sharedPtr index) ∈ objects.map Prod.fst
  copied : ∀ entry ∈ objects, ∀ newId, mapping.lookup entry.1 = some newId →
    (∃ image, receiver'.domain newId = some image ∧ IsImage mapping entry.2 image) ∧
      receiver'.storage newId = storedImage mapping entry.2
  kept : ∀ id ∉ mapping.map Prod.snd,
    receiver'.domain id = receiver.domain id ∧ receiver'.storage id = receiver.storage id

/-- An import is an isomorphic copy of the payload, or nothing. -/
def ImportsCopyOrNothing {α ε : Type} (aether : Aether α ε)
    (load : Layers → Option LinkedObject) (parsed : RamDomainStorage) (rootEventId : ObjId)
    (receiver : Receiver) (reserved generated : List ObjId) : Prop :=
  ∀ outcome,
    importClosedEventGraph aether load parsed rootEventId receiver reserved generated =
      .ok outcome →
    (outcome.event = none → outcome.receiver = receiver) ∧
      ∀ event, outcome.event = some event →
        ∃ objects mapping, payloadObjects load parsed = some objects ∧
          mapping.lookup rootEventId = some event ∧
          IsCopied objects mapping reserved receiver outcome.receiver

/-- No reference that is written twice gets a new id that another payload object has.
`offers` are the new ids in order. -/
def NoSecondRemap (objects : List (ObjId × LinkedObject)) (offers : List ObjId) : Prop :=
  ∀ entry ∈ objects, ∀ index, 1 < (entry.2.fields.map Prod.fst).count (.sharedPtr index) →
    ∀ newId, ((objects.map Prod.fst).zip offers).lookup (entry.2.links (.sharedPtr index)) =
        some newId →
      newId ∈ objects.map Prod.fst → newId = entry.2.links (.sharedPtr index)

section Accepted

variable {α ε : Type} {aether : Aether α ε} {load : Layers → Option LinkedObject}
  {parsed : RamDomainStorage} {rootEventId : ObjId}

/-- What a validation guarantees about the objects of a payload. -/
structure AcceptedGraph (load : Layers → Option LinkedObject) (parsed : RamDomainStorage)
    (rootEventId : ObjId) (objects : List (ObjId × LinkedObject)) : Prop where
  objects_eq : payloadObjects load parsed = some objects
  keys : objects.map Prod.fst = parsed.live.map Prod.fst
  distinct : (objects.map Prod.fst).Nodup
  valid : ∀ id ∈ objects.map Prod.fst, id.isValid = true
  root : rootEventId ∈ objects.map Prod.fst
  closed : ∀ entry ∈ objects, ∀ index, .sharedPtr index ∈ entry.2.fields.map Prod.fst →
    (entry.2.links (.sharedPtr index)).isValid = true →
      entry.2.links (.sharedPtr index) ∈ objects.map Prod.fst

/-- An object is stored once. -/
theorem nodup_live (parsed : RamDomainStorage) : (parsed.live.map Prod.fst).Nodup := by
  have hsublist : (parsed.live.map Prod.fst).Sublist (parsed.entries.map Sigma.fst) := by
    unfold RamDomainStorage.live
    induction parsed.entries with
    | nil => exact List.Sublist.slnil
    | cons entry rest ih =>
        rw [List.filterMap_cons, List.map_cons]
        cases entry.2 with
        | none => exact ih.cons _
        | some layers => exact ih.cons_cons _
  exact parsed.keys_nodup.sublist hsublist

theorem mem_live_of_mostDerived {id : ObjId} {classId : ClassId}
    (h : mostDerivedClassId? aether parsed id = some classId) :
    id ∈ parsed.live.map Prod.fst := by
  obtain ⟨layers, hlayers, -⟩ := Option.bind_eq_some_iff.mp h
  exact List.mem_map_of_mem (RamDomainStorage.mem_live_iff.mpr hlayers)

theorem isValid_of_validateStoredClassChain {id : ObjId} {layers : Layers}
    {info : StoredClassChainInfo}
    (h : validateStoredClassChain aether id layers = some info) : id.isValid = true := by
  unfold validateStoredClassChain at h
  split at h
  case isTrue => cases h
  case isFalse hvalid =>
    simp only [Bool.or_eq_true, not_or, Bool.not_eq_true', Bool.not_eq_false] at hvalid
    exact hvalid.1

/-- The objects of a payload are loaded from its live entries, in order. -/
theorem keys_of_payloadObjects {objects : List (ObjId × LinkedObject)}
    (h : payloadObjects load parsed = some objects) :
    objects.map Prod.fst = parsed.live.map Prod.fst := by
  have hrelated : ∀ stored loaded, List.Forall₂ (fun (entry : ObjId × Layers) object =>
      (load entry.2).map (entry.1, ·) = some object) stored loaded →
      loaded.map Prod.fst = stored.map Prod.fst := by
    intro stored loaded hloaded
    induction hloaded with
    | nil => rfl
    | cons hhead _ ih =>
        obtain ⟨object, -, rfl⟩ := Option.map_eq_some_iff.mp hhead
        rw [List.map_cons, List.map_cons, ih]
  exact hrelated _ _ (mapM_option_eq_some_iff.mp h)

theorem mem_of_payloadObjects {objects : List (ObjId × LinkedObject)}
    (h : payloadObjects load parsed = some objects) {entry : ObjId × LinkedObject}
    (hentry : entry ∈ objects) :
    ∃ stored ∈ parsed.live, load stored.2 = some entry.2 := by
  obtain ⟨stored, hstored, hload⟩ :=
    forall₂_exists_of_mem_right (mapM_option_eq_some_iff.mp h) hentry
  obtain ⟨object, hobject, rfl⟩ := Option.map_eq_some_iff.mp hload
  exact ⟨stored, hstored, hobject⟩

theorem acceptedGraph_of_accepts (h : acceptsClosedGraph aether load parsed rootEventId = true) :
    ∃ objects, AcceptedGraph load parsed rootEventId objects := by
  unfold acceptsClosedGraph validateClosedEventGraphStorage at h
  split at h
  case isTrue => cases h
  case isFalse hroot =>
  rw [Bool.or_eq_true, not_or, Option.isNone_iff_eq_none] at hroot
  split at h
  case h_1 => cases h
  case h_2 chains hchains =>
  split at h
  case h_1 => cases h
  case h_2 root hfound =>
  split at h
  case isTrue => cases h
  case isFalse =>
  split at h
  case isTrue => cases h
  case isFalse =>
  rw [List.all_eq_true] at h
  have hloads : ∀ stored ∈ parsed.live, ∃ object, load stored.2 = some object ∧
      linksAccepted aether parsed object.objectLinks = true := by
    intro stored hstored
    have haccepted := h stored hstored
    cases hload : load stored.2 with
    | none => simp [hload] at haccepted
    | some object => exact ⟨object, rfl, by simpa [hload] using haccepted⟩
  obtain ⟨objects, hobjects⟩ : ∃ objects, payloadObjects load parsed = some objects := by
    refine exists_mapM_option fun stored hstored => ?_
    obtain ⟨object, hload, -⟩ := hloads stored hstored
    exact ⟨(stored.1, object), by rw [hload]; rfl⟩
  have hkeys := keys_of_payloadObjects hobjects
  have hentry : ∀ entry ∈ objects, linksAccepted aether parsed entry.2.objectLinks = true := by
    intro entry hmem
    obtain ⟨stored, hstored, hload⟩ := mem_of_payloadObjects hobjects hmem
    obtain ⟨object, hobject, haccepted⟩ := hloads stored hstored
    rw [hobject] at hload
    rwa [Option.some.inj hload] at haccepted
  refine ⟨objects, hobjects, hkeys, hkeys ▸ nodup_live parsed, ?_, ?_, ?_⟩
  · intro id hid
    rw [hkeys] at hid
    obtain ⟨stored, hstored, rfl⟩ := List.mem_map.mp hid
    obtain ⟨info, -, hchain⟩ :=
      forall₂_exists_of_mem_left (mapM_option_eq_some_iff.mp hchains) hstored
    exact isValid_of_validateStoredClassChain hchain
  · rw [hkeys]
    obtain ⟨layers, hlayers⟩ := Option.ne_none_iff_exists'.mp hroot.2
    exact List.mem_map_of_mem (RamDomainStorage.mem_live_iff.mpr hlayers)
  · intro entry hmem index hindex hvalid
    obtain ⟨field, hfield, hsame⟩ := List.mem_map.mp hindex
    have hall := hentry entry hmem
    rw [linksAccepted, Bool.and_eq_true, List.all_eq_true, List.all_eq_true] at hall
    have hshared := hall.2 (field.2, entry.2.links (.sharedPtr index))
      (List.mem_filterMap.mpr ⟨field, hfield, by rw [hsame]⟩)
    rw [hvalid, Bool.not_true, Bool.false_or] at hshared
    rw [hkeys]
    split at hshared
    case h_1 => cases hshared
    case h_2 mostDerived hderived => exact mem_live_of_mostDerived hderived

end Accepted

section Renaming

variable {objects : List (ObjId × LinkedObject)} {mapping : List (ObjId × ObjId)}

/-- Every object of a payload has a new id, and no two have one. -/
structure IsRenaming (objects : List (ObjId × LinkedObject))
    (mapping : List (ObjId × ObjId)) : Prop where
  keys : mapping.map Prod.fst = objects.map Prod.fst
  keysDistinct : (objects.map Prod.fst).Nodup
  keysValid : ∀ id ∈ objects.map Prod.fst, id.isValid = true
  distinct : (mapping.map Prod.snd).Nodup
  valid : ∀ newId ∈ mapping.map Prod.snd, newId.isValid = true

namespace IsRenaming

variable (h : IsRenaming objects mapping)

include h

theorem lookup_newIdOf {id : ObjId} (hid : id ∈ objects.map Prod.fst) :
    mapping.lookup id = some (newIdOf mapping id) := by
  rw [← h.keys] at hid
  obtain ⟨newId, hnew⟩ := exists_lookup_of_mem hid
  rw [newIdOf, hnew]
  rfl

theorem newIdOf_mem {id : ObjId} (hid : id ∈ objects.map Prod.fst) :
    newIdOf mapping id ∈ mapping.map Prod.snd :=
  List.mem_map_of_mem (mem_of_lookup_eq_some (h.lookup_newIdOf hid))

theorem newIdOf_injective {id other : ObjId} (hid : id ∈ objects.map Prod.fst)
    (hother : other ∈ objects.map Prod.fst)
    (hsame : newIdOf mapping id = newIdOf mapping other) : id = other :=
  key_eq_of_lookup_eq h.distinct (h.lookup_newIdOf hid) (hsame ▸ h.lookup_newIdOf hother)

theorem lookup_eq_none {id : ObjId} (hid : id ∉ objects.map Prod.fst) :
    mapping.lookup id = none := by
  cases hlookup : mapping.lookup id with
  | none => rfl
  | some newId =>
      rw [← h.keys] at hid
      exact absurd (List.mem_map_of_mem (mem_of_lookup_eq_some hlookup)) hid

/-- The first remapping of a reference to a payload object is the image of its target. -/
theorem remapped_sharedPtr {id : ObjId} (index : Nat) (hid : id ∈ objects.map Prod.fst) :
    handlePointerRemap mapping (.sharedPtr index) id = some (newIdOf mapping id) := by
  rw [handlePointerRemap, if_neg (by simp [h.keysValid id hid]), h.lookup_newIdOf hid]

/-- A second remapping leaves a reference to a payload object as it is exactly when its
new id is its own or that of no payload object. -/
theorem remapped_newIdOf_iff {id : ObjId} (index : Nat) (hid : id ∈ objects.map Prod.fst) :
    handlePointerRemap mapping (.sharedPtr index) (newIdOf mapping id) =
        some (newIdOf mapping id) ↔
      (newIdOf mapping id ∈ objects.map Prod.fst → newIdOf mapping id = id) := by
  have hvalid := h.valid _ (h.newIdOf_mem hid)
  by_cases hkey : newIdOf mapping id ∈ objects.map Prod.fst
  · rw [h.remapped_sharedPtr index hkey]
    constructor
    · intro hsame _
      exact h.newIdOf_injective hkey hid (Option.some.inj hsame)
    · intro hsame
      exact congrArg some (congrArg (newIdOf mapping) (hsame hkey))
  · rw [handlePointerRemap, if_neg (by simp [hvalid]), h.lookup_eq_none hkey]
    simp only [if_pos (h.newIdOf_mem hid), true_iff]
    exact fun hmem => absurd hmem hkey

end IsRenaming

end Renaming

end AppTraverse
