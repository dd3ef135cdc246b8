import AppTraverse.Storage.ClosedGraphImport

/-!
# When the import of a closed Event graph is a copy

`saveRoot` of one loaded object writes only that object, so a whole import is decided
object by object: what is stored for an object is its image exactly when no reference of
it that is written twice is remapped twice (`savedAsImage_iff`).
-/

namespace AppTraverse

open Foundations

section Saves

variable {mapping : List (ObjId × ObjId)} {loaded : List (ObjId × LinkedObject)} {id : ObjId}

theorem domain_foldl_addObject {receiver : Receiver} (h : id ∉ loaded.map Prod.fst) :
    (loaded.foldl Receiver.addObject receiver).domain id = receiver.domain id := by
  induction loaded generalizing receiver with
  | nil => rfl
  | cons entry rest ih =>
      rw [List.map_cons, List.mem_cons, not_or] at h
      rw [List.foldl_cons, ih h.2]
      exact Function.update_of_ne h.1 _ _

theorem storage_foldl_addObject {receiver : Receiver} :
    (loaded.foldl Receiver.addObject receiver).storage = receiver.storage := by
  induction loaded generalizing receiver with
  | nil => rfl
  | cons entry rest ih =>
      rw [List.foldl_cons, ih]
      rfl

/-- An object that is not saved is left alone. -/
theorem kept_foldl_saveRoot {saved : Receiver × Bool} (h : id ∉ loaded.map Prod.fst) :
    (loaded.foldl (Receiver.saveRoot mapping) saved).1.domain id = saved.1.domain id ∧
      (loaded.foldl (Receiver.saveRoot mapping) saved).1.storage id = saved.1.storage id := by
  induction loaded generalizing saved with
  | nil => exact ⟨rfl, rfl⟩
  | cons entry rest ih =>
      rw [List.map_cons, List.mem_cons, not_or] at h
      rw [List.foldl_cons]
      obtain ⟨hdomain, hstorage⟩ := @ih (Receiver.saveRoot mapping saved entry) h.2
      exact ⟨hdomain.trans (Function.update_of_ne h.1 _ _),
        hstorage.trans (Function.update_of_ne h.1 _ _)⟩

/-- A saved object is what `saveLayers` leaves and stores of it. -/
theorem saved_foldl_saveRoot {saved : Receiver × Bool} (hdistinct : (loaded.map Prod.fst).Nodup)
    {entry : ObjId × LinkedObject} (hentry : entry ∈ loaded) :
    (loaded.foldl (Receiver.saveRoot mapping) saved).1.domain entry.1 =
        some { entry.2 with links := (saveLayers mapping entry.2.links entry.2.layers).1 } ∧
      (loaded.foldl (Receiver.saveRoot mapping) saved).1.storage entry.1 =
        (saveLayers mapping entry.2.links entry.2.layers).2.1 := by
  induction loaded generalizing saved with
  | nil => cases hentry
  | cons first rest ih =>
      rw [List.map_cons, List.nodup_cons] at hdistinct
      rw [List.foldl_cons]
      obtain rfl | hrest := List.mem_cons.mp hentry
      · obtain ⟨hdomain, hstorage⟩ :=
          @kept_foldl_saveRoot mapping rest entry.1 (Receiver.saveRoot mapping saved entry)
            hdistinct.1
        exact ⟨hdomain.trans (Function.update_self _ _ _),
          hstorage.trans (Function.update_self _ _ _)⟩
      · exact ih hdistinct.2 hrest

/-- No save fails when none of the objects fails. -/
theorem foldl_saveRoot_succeeds {saved : Receiver × Bool} (hsaved : saved.2 = true)
    (h : ∀ entry ∈ loaded, (saveLayers mapping entry.2.links entry.2.layers).2.2 = true) :
    (loaded.foldl (Receiver.saveRoot mapping) saved).2 = true := by
  induction loaded generalizing saved with
  | nil => exact hsaved
  | cons entry rest ih =>
      rw [List.foldl_cons]
      refine ih ?_ fun other hother => h other (List.mem_cons_of_mem _ hother)
      show (saved.2 && (saveLayers mapping entry.2.links entry.2.layers).2.2) = true
      rw [hsaved, h entry List.mem_cons_self]
      rfl

end Saves

section Objects

variable {load : Layers → Option LinkedObject} {parsed : RamDomainStorage}
  {rootEventId : ObjId} {objects : List (ObjId × LinkedObject)}
  {mapping : List (ObjId × ObjId)} {entry : ObjId × LinkedObject}

/-- A reference of a payload object is local, empty, or one to a payload object. -/
theorem AcceptedGraph.link_cases (haccepted : AcceptedGraph load parsed rootEventId objects)
    (hentry : entry ∈ objects) {field : LinkField}
    (hfield : field ∈ entry.2.fields.map Prod.fst) :
    (∃ index, field = .localPtr index) ∨
      ∃ index, field = .sharedPtr index ∧
        ((entry.2.links field).isValid = false ∨
          entry.2.links field ∈ objects.map Prod.fst) := by
  cases field with
  | localPtr index => exact Or.inl ⟨index, rfl⟩
  | sharedPtr index =>
      refine Or.inr ⟨index, rfl, ?_⟩
      cases hvalid : (entry.2.links (.sharedPtr index)).isValid with
      | false => exact Or.inl rfl
      | true => exact Or.inr (haccepted.closed entry hentry index hfield hvalid)

variable (haccepted : AcceptedGraph load parsed rootEventId objects)
  (hrenaming : IsRenaming objects mapping)

include haccepted hrenaming

/-- Every reference of a payload object can be remapped, and becomes its image. -/
theorem link_remapped (hentry : entry ∈ objects) {field : LinkField}
    (hfield : field ∈ entry.2.fields.map Prod.fst) :
    handlePointerRemap mapping field (entry.2.links field) =
      some (imageLink mapping field (entry.2.links field)) := by
  obtain ⟨index, rfl⟩ | ⟨index, rfl, hvalid | htarget⟩ :=
    haccepted.link_cases hentry hfield
  · rfl
  · have hkey : entry.2.links (.sharedPtr index) ∉ objects.map Prod.fst := by
      intro hkey
      rw [haccepted.valid _ hkey] at hvalid
      cases hvalid
    rw [handlePointerRemap, if_pos (by simp [hvalid]), imageLink, newIdOf,
      hrenaming.lookup_eq_none hkey]
    rfl
  · exact hrenaming.remapped_sharedPtr index htarget

theorem isRemappable_link (hentry : entry ∈ objects) {field : LinkField}
    (hfield : field ∈ entry.2.fields.map Prod.fst) :
    IsRemappable mapping field (entry.2.links field) := by
  rw [IsRemappable, link_remapped haccepted hrenaming hentry hfield]
  rfl

theorem remapped_link (hentry : entry ∈ objects) {field : LinkField}
    (hfield : field ∈ entry.2.fields.map Prod.fst) :
    remapped mapping field (entry.2.links field) =
      imageLink mapping field (entry.2.links field) := by
  rw [remapped, link_remapped haccepted hrenaming hentry hfield]
  rfl

/-- A reference that is remapped again stays as it is unless its new id is the id of
another payload object. -/
theorem remapped_twice_iff (hentry : entry ∈ objects) {field : LinkField}
    (hfield : field ∈ entry.2.fields.map Prod.fst) :
    remapped mapping field (remapped mapping field (entry.2.links field)) =
        remapped mapping field (entry.2.links field) ↔
      ∀ index, field = .sharedPtr index → ∀ newId,
        mapping.lookup (entry.2.links field) = some newId →
          newId ∈ objects.map Prod.fst → newId = entry.2.links field := by
  rw [remapped_link haccepted hrenaming hentry hfield]
  obtain ⟨index, rfl⟩ | ⟨index, rfl, hvalid | htarget⟩ :=
    haccepted.link_cases hentry hfield
  · simp [imageLink, remapped, handlePointerRemap]
  · have hkey : entry.2.links (.sharedPtr index) ∉ objects.map Prod.fst := by
      intro hkey
      rw [haccepted.valid _ hkey] at hvalid
      cases hvalid
    have hnone := hrenaming.lookup_eq_none hkey
    simp [imageLink, newIdOf, hnone, remapped, handlePointerRemap, ObjId.empty, ObjId.isValid]
  · have hlookup := hrenaming.lookup_newIdOf htarget
    have hsecond := hrenaming.remapped_newIdOf_iff index htarget
    have hagain := handlePointerRemap_eq
      (isRemappable_remapped (isRemappable_link haccepted hrenaming hentry hfield))
    rw [remapped_link haccepted hrenaming hentry hfield] at hagain
    simp only [imageLink] at hagain ⊢
    rw [hagain, Option.some.injEq] at hsecond
    rw [hsecond]
    constructor
    · rintro hsame _ - newId hnew hmem
      rw [hlookup] at hnew
      obtain rfl := Option.some.inj hnew
      exact hsame hmem
    · intro hsame hmem
      exact hsame index rfl _ hlookup hmem

/-- What is stored for an object after its save, whatever it is compared with. -/
theorem saveLayers_object (hentry : entry ∈ objects) (value : LinkField → ObjId) :
    (saveLayers mapping entry.2.links entry.2.layers).1 =
        (visitInPlace (remapped mapping) entry.2.links (entry.2.fields.map Prod.fst)).1 ∧
      (saveLayers mapping entry.2.links entry.2.layers).2.2 = true ∧
      ((saveLayers mapping entry.2.links entry.2.layers).2.1 =
          layersWith value entry.2.layers ↔
        (visitInPlace (remapped mapping) entry.2.links (entry.2.fields.map Prod.fst)).2 =
          (entry.2.fields.map Prod.fst).map value) :=
  saveLayers_spec (fun _ hfield => isRemappable_link haccepted hrenaming hentry hfield) value

theorem map_imageLink_eq (hentry : entry ∈ objects) :
    (entry.2.fields.map Prod.fst).map
        (fun field => imageLink mapping field (entry.2.links field)) =
      (entry.2.fields.map Prod.fst).map
        fun field => remapped mapping field (entry.2.links field) :=
  List.map_congr_left fun _ hfield =>
    (remapped_link haccepted hrenaming hentry hfield).symm

/-- No reference of the object that is written twice gets a new id that another payload
object has. -/
theorem idempotent_iff (hentry : entry ∈ objects) :
    (∀ field, 1 < (entry.2.fields.map Prod.fst).count field →
        remapped mapping field (remapped mapping field (entry.2.links field)) =
          remapped mapping field (entry.2.links field)) ↔
      ∀ index, 1 < (entry.2.fields.map Prod.fst).count (.sharedPtr index) →
        ∀ newId, mapping.lookup (entry.2.links (.sharedPtr index)) = some newId →
          newId ∈ objects.map Prod.fst → newId = entry.2.links (.sharedPtr index) := by
  have hvisited : ∀ field, 1 < (entry.2.fields.map Prod.fst).count field →
      field ∈ entry.2.fields.map Prod.fst := fun field hcount =>
    List.count_pos_iff.mp (by omega)
  constructor
  · intro hstable index hcount
    exact (remapped_twice_iff haccepted hrenaming hentry (hvisited _ hcount)).mp
      (hstable _ hcount) index rfl
  · intro hnone field hcount
    refine (remapped_twice_iff haccepted hrenaming hentry (hvisited _ hcount)).mpr ?_
    rintro index rfl
    exact hnone index hcount

/-- If the object is stored as any relabelling of its references, no reference of it is
remapped twice. -/
theorem idempotent_of_stored (hentry : entry ∈ objects) {value : LinkField → ObjId}
    (hstored : (saveLayers mapping entry.2.links entry.2.layers).2.1 =
      layersWith value entry.2.layers) (field : LinkField)
    (hcount : 1 < (entry.2.fields.map Prod.fst).count field) :
    remapped mapping field (remapped mapping field (entry.2.links field)) =
      remapped mapping field (entry.2.links field) := by
  obtain ⟨-, -, hlayers⟩ := saveLayers_object haccepted hrenaming hentry value
  exact emitted_eq_map_iff.mp (emitted_eq_map_of_eq_map (hlayers.mp hstored)) field hcount

/-- If no reference of the object is remapped twice, it is stored as its image, and it
becomes its image. -/
theorem image_of_idempotent (hentry : entry ∈ objects)
    (hstable : ∀ field, 1 < (entry.2.fields.map Prod.fst).count field →
      remapped mapping field (remapped mapping field (entry.2.links field)) =
        remapped mapping field (entry.2.links field)) :
    IsImage mapping entry.2
        { entry.2 with links := (saveLayers mapping entry.2.links entry.2.layers).1 } ∧
      (saveLayers mapping entry.2.links entry.2.layers).2.1 =
        storedImage mapping entry.2 := by
  obtain ⟨hlinks, -, hlayers⟩ := saveLayers_object haccepted hrenaming hentry
    fun field => imageLink mapping field (entry.2.links field)
  constructor
  · refine ⟨rfl, rfl, fun field hfield => ?_⟩
    show (saveLayers mapping entry.2.links entry.2.layers).1 field = _
    rw [hlinks, visited_of_mem hstable hfield,
      remapped_link haccepted hrenaming hentry hfield]
  · refine hlayers.mpr ?_
    rw [map_imageLink_eq haccepted hrenaming hentry]
    exact emitted_eq_map_iff.mpr hstable

end Objects

section Import

variable {α ε : Type} {aether : Aether α ε} {load : Layers → Option LinkedObject}
  {parsed : RamDomainStorage} {rootEventId : ObjId} {receiver : Receiver}
  {reserved generated : List ObjId} {objects : List (ObjId × LinkedObject)}
  {mapping : List (ObjId × ObjId)}

/-- The loaded objects under their new ids. -/
def renamedObjects (mapping : List (ObjId × ObjId)) (objects : List (ObjId × LinkedObject)) :
    List (ObjId × LinkedObject) :=
  objects.map fun entry => (newIdOf mapping entry.1, entry.2)

/-- The receiver after the loaded objects are added and saved. -/
def receiverAfter (mapping : List (ObjId × ObjId)) (objects : List (ObjId × LinkedObject))
    (receiver : Receiver) : Receiver :=
  ((renamedObjects mapping objects).foldl (Receiver.saveRoot mapping)
    ((renamedObjects mapping objects).foldl Receiver.addObject receiver, true)).1

/-- Drawing new ids for the objects of a payload renames them. -/
theorem isRenaming_zip (haccepted : AcceptedGraph load parsed rootEventId objects)
    (henough : parsed.live.length ≤
      (freshOffers receiver.isFree reserved generated).length) :
    IsRenaming objects
      ((parsed.live.map Prod.fst).zip (freshOffers receiver.isFree reserved generated)) := by
  have hsublist := sublist_map_snd_zip (parsed.live.map Prod.fst)
    (freshOffers receiver.isFree reserved generated)
  refine ⟨?_, haccepted.distinct, haccepted.valid, ?_, ?_⟩
  · rw [List.map_fst_zip (by rwa [List.length_map]), haccepted.keys]
  · exact (nodup_freshOffers _ _ _).sublist hsublist
  · intro newId hnew
    have hfree := (mem_freshOffers.mp (hsublist.subset hnew)).2.1
    rw [Receiver.isFree, Bool.and_eq_true] at hfree
    exact hfree.1

/-- The new ids are the receiver's to give. -/
theorem fresh_of_mem_zip {newId : ObjId}
    (h : newId ∈ ((parsed.live.map Prod.fst).zip
      (freshOffers receiver.isFree reserved generated)).map Prod.snd) :
    newId.isValid = true ∧ newId ∉ reserved ∧ receiver.isOccupied newId = false := by
  obtain ⟨-, hfree, hreserved⟩ :=
    mem_freshOffers.mp ((sublist_map_snd_zip _ _).subset h)
  rw [Receiver.isFree, Bool.and_eq_true, Bool.not_eq_true'] at hfree
  exact ⟨hfree.1, hreserved, hfree.2⟩

section Renamed

variable (hrenaming : IsRenaming objects mapping)

include hrenaming

theorem nodup_renamedObjects : ((renamedObjects mapping objects).map Prod.fst).Nodup := by
  rw [renamedObjects, List.map_map]
  refine List.Nodup.map_on ?_ hrenaming.keysDistinct.of_map
  intro entry hentry other hother hsame
  have hkey := hrenaming.newIdOf_injective (List.mem_map_of_mem hentry)
    (List.mem_map_of_mem hother) hsame
  exact List.inj_on_of_nodup_map hrenaming.keysDistinct hentry hother hkey

theorem mem_of_mem_renamedObjects {id : ObjId}
    (h : id ∈ (renamedObjects mapping objects).map Prod.fst) :
    id ∈ mapping.map Prod.snd := by
  rw [renamedObjects, List.map_map] at h
  obtain ⟨entry, hentry, rfl⟩ := List.mem_map.mp h
  exact hrenaming.newIdOf_mem (List.mem_map_of_mem hentry)

theorem kept_receiverAfter {id : ObjId} (h : id ∉ mapping.map Prod.snd) :
    (receiverAfter mapping objects receiver).domain id = receiver.domain id ∧
      (receiverAfter mapping objects receiver).storage id = receiver.storage id := by
  have hid : id ∉ (renamedObjects mapping objects).map Prod.fst := fun hmem =>
    h (mem_of_mem_renamedObjects hrenaming hmem)
  obtain ⟨hdomain, hstorage⟩ := @kept_foldl_saveRoot mapping (renamedObjects mapping objects)
    id ((renamedObjects mapping objects).foldl Receiver.addObject receiver, true) hid
  exact ⟨hdomain.trans (domain_foldl_addObject hid),
    hstorage.trans (congrFun storage_foldl_addObject id)⟩

theorem saved_receiverAfter {entry : ObjId × LinkedObject} (hentry : entry ∈ objects) :
    (receiverAfter mapping objects receiver).domain (newIdOf mapping entry.1) =
        some { entry.2 with links := (saveLayers mapping entry.2.links entry.2.layers).1 } ∧
      (receiverAfter mapping objects receiver).storage (newIdOf mapping entry.1) =
        (saveLayers mapping entry.2.links entry.2.layers).2.1 :=
  @saved_foldl_saveRoot mapping (renamedObjects mapping objects)
    ((renamedObjects mapping objects).foldl Receiver.addObject receiver, true)
    (nodup_renamedObjects hrenaming) (newIdOf mapping entry.1, entry.2)
    (List.mem_map_of_mem hentry)

end Renamed

/-- An accepted payload is imported, as far as the returned Event goes. -/
theorem importClosedEventGraph_eq
    (haccepts : acceptsClosedGraph aether load parsed rootEventId = true)
    (haccepted : AcceptedGraph load parsed rootEventId objects)
    (henough : parsed.live.length ≤
      (freshOffers receiver.isFree reserved generated).length)
    (hmapping : mapping =
      (parsed.live.map Prod.fst).zip (freshOffers receiver.isFree reserved generated)) :
    importClosedEventGraph aether load parsed rootEventId receiver reserved generated =
      .ok ⟨some (newIdOf mapping rootEventId), receiverAfter mapping objects receiver⟩ := by
  have hrenaming : IsRenaming objects mapping := hmapping ▸ isRenaming_zip haccepted henough
  have hdrawn : drawNames receiver.isFree (parsed.live.map Prod.fst) reserved generated =
      some mapping := by
    rw [drawNames_eq, if_pos (by rwa [List.length_map]), hmapping]
  have hsaved : ((renamedObjects mapping objects).foldl (Receiver.saveRoot mapping)
      ((renamedObjects mapping objects).foldl Receiver.addObject receiver, true)).2 = true := by
    refine foldl_saveRoot_succeeds rfl fun renamed hmem => ?_
    obtain ⟨entry, hentry, rfl⟩ := List.mem_map.mp hmem
    exact (saveLayers_object haccepted hrenaming hentry fun _ => .empty).2.1
  rw [importClosedEventGraph, haccepts, hdrawn, haccepted.objects_eq]
  rw [renamedObjects] at hsaved
  simp only [Bool.not_true, Bool.false_eq_true, if_false, hsaved, if_true,
    hrenaming.lookup_newIdOf haccepted.root]
  rfl

/-- The import of an accepted payload is a copy exactly when no reference that is written
twice gets a new id that another payload object has. -/
theorem exists_isCopied_iff (haccepted : AcceptedGraph load parsed rootEventId objects)
    (henough : parsed.live.length ≤
      (freshOffers receiver.isFree reserved generated).length)
    (hmapping : mapping =
      (parsed.live.map Prod.fst).zip (freshOffers receiver.isFree reserved generated)) :
    (∃ mapping', mapping'.lookup rootEventId = some (newIdOf mapping rootEventId) ∧
        IsCopied objects mapping' reserved receiver (receiverAfter mapping objects receiver)) ↔
      NoSecondRemap objects (freshOffers receiver.isFree reserved generated) := by
  have hrenaming : IsRenaming objects mapping := hmapping ▸ isRenaming_zip haccepted henough
  have hfresh : ∀ newId ∈ mapping.map Prod.snd,
      newId.isValid = true ∧ newId ∉ reserved ∧ receiver.isOccupied newId = false := by
    rw [hmapping]
    exact fun newId hnew => fresh_of_mem_zip hnew
  rw [NoSecondRemap, haccepted.keys, ← hmapping, ← haccepted.keys]
  constructor
  · rintro ⟨mapping', -, hcopied⟩ entry hentry
    refine (idempotent_iff haccepted hrenaming hentry).mp ?_
    have hkey : entry.1 ∈ objects.map Prod.fst := List.mem_map_of_mem hentry
    obtain ⟨hdomain, hstorage⟩ := @saved_receiverAfter receiver _ _ hrenaming _ hentry
    -- The new id of this object is that of some object under the other correspondence too.
    have hnew : newIdOf mapping entry.1 ∈ mapping'.map Prod.snd := by
      by_contra hnot
      have hkept := (hcopied.kept _ hnot).1
      rw [hdomain] at hkept
      have hoccupied := (hfresh _ (hrenaming.newIdOf_mem hkey)).2.2
      rw [Receiver.isOccupied, ← hkept] at hoccupied
      cases hoccupied
    obtain ⟨pair, hpair, hsame⟩ := List.mem_map.mp hnew
    obtain ⟨twin, htwin, htwinKey⟩ : ∃ twin ∈ objects, twin.1 = pair.1 := by
      have hmem : pair.1 ∈ objects.map Prod.fst := hcopied.keys ▸ List.mem_map_of_mem hpair
      exact List.mem_map.mp hmem
    have hlookup : mapping'.lookup twin.1 = some (newIdOf mapping entry.1) := by
      rw [htwinKey, ← hsame]
      exact lookup_eq_some_of_mem (hcopied.keys ▸ haccepted.distinct) hpair
    obtain ⟨⟨image, himage, hisImage⟩, himageStored⟩ := hcopied.copied twin htwin _ hlookup
    rw [hdomain] at himage
    have hlayers : entry.2.layers = twin.2.layers := by
      rw [← hisImage.layers, ← Option.some.inj himage]
    rw [hstorage, storedImage, ← hlayers] at himageStored
    exact idempotent_of_stored haccepted hrenaming hentry himageStored
  · intro hnone
    refine ⟨mapping, hrenaming.lookup_newIdOf haccepted.root, hrenaming.keys,
      hrenaming.distinct, hfresh, haccepted.closed, ?_,
      fun id hid => kept_receiverAfter hrenaming hid⟩
    intro entry hentry newId hlookup
    rw [hrenaming.lookup_newIdOf (List.mem_map_of_mem hentry)] at hlookup
    obtain rfl := Option.some.inj hlookup
    obtain ⟨hdomain, hstorage⟩ := @saved_receiverAfter receiver _ _ hrenaming _ hentry
    obtain ⟨himage, hstored⟩ := image_of_idempotent haccepted hrenaming hentry
      ((idempotent_iff haccepted hrenaming hentry).mpr (hnone entry hentry))
    exact ⟨⟨_, hdomain, himage⟩, hstorage.trans hstored⟩

/-- An import that is a copy remaps no reference twice. -/
theorem noSecondRemap_of_importsCopy
    (haccepts : acceptsClosedGraph aether load parsed rootEventId = true)
    (hobjects : payloadObjects load parsed = some objects)
    (henough : parsed.live.length ≤
      (freshOffers receiver.isFree reserved generated).length)
    (hcopies : ImportsCopyOrNothing aether load parsed rootEventId receiver reserved
      generated) :
    NoSecondRemap objects (freshOffers receiver.isFree reserved generated) := by
  obtain ⟨objects', haccepted⟩ := acceptedGraph_of_accepts haccepts
  rw [haccepted.objects_eq] at hobjects
  obtain rfl := Option.some.inj hobjects
  obtain ⟨-, hsome⟩ := hcopies _ (importClosedEventGraph_eq haccepts haccepted henough rfl)
  obtain ⟨copied, mapping, hcopiedObjects, hroot, hcopied⟩ := hsome _ rfl
  rw [haccepted.objects_eq] at hcopiedObjects
  obtain rfl := Option.some.inj hcopiedObjects
  exact (exists_isCopied_iff haccepted henough rfl).mp ⟨mapping, hroot, hcopied⟩

end Import

end AppTraverse
