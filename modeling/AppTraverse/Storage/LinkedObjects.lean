import AppTraverse.Foundations.FreshNames
import AppTraverse.Foundations.InPlaceVisits
import AppTraverse.Storage.EventPayload

/-!
# Objects whose references are remapped while they are saved

Importing a closed Event graph saves every loaded object through an `OperationStorage`
in `kRemap` mode: each reference field that a layer writes is changed in the live object
and written under its new id.  A class that is saved in more than one version, or in
more than one layer, writes a field more than once, and every write remaps it.

An object is what Aether makes of its stored layers.  Its references are its `SharedPtr`
and `LocalPtr` fields; whatever else a layer writes is `scalars`.
-/

namespace AppTraverse

open Foundations

/-- A reference field, by its scope. -/
inductive LinkField where
  | sharedPtr (index : Nat)
  | localPtr (index : Nat)
  deriving DecidableEq

/-- One class layer in one version, as it is saved: scalars, and reference fields in the
order of writing with their static target classes. -/
structure LinkLayer where
  classId : ClassId
  version : Version
  scalars : Bytes
  fields : List (LinkField × ClassId)
  deriving DecidableEq

/-- A loaded object. -/
structure LinkedObject where
  classId : ClassId
  layers : List LinkLayer
  links : LinkField → ObjId

/-- Everything a save of the object writes of its references, in order. -/
def LinkedObject.fields (object : LinkedObject) : List (LinkField × ClassId) :=
  object.layers.flatMap LinkLayer.fields

/-- The references that a validation of the object sees. -/
def LinkedObject.objectLinks (object : LinkedObject) : ObjectLinks where
  shared := object.fields.filterMap fun field =>
    match field.1 with
    | .sharedPtr _ => some (field.2, object.links field.1)
    | .localPtr _ => none
  locals := object.fields.filterMap fun field =>
    match field.1 with
    | .sharedPtr _ => none
    | .localPtr _ => some (object.links field.1)

/-- One stored layer. -/
structure StoredLayer where
  classId : ClassId
  version : Version
  scalars : Bytes
  links : List ObjId
  deriving DecidableEq, Repr

/-- `HandlePointerSeri` in `kRemap` mode: the id that the field takes and that is
written, or a write error.  `mapping` is `old_to_new`, and its new ids are the keys of
`new_id_to_obj`. -/
def handlePointerRemap (mapping : List (ObjId × ObjId)) (field : LinkField) (id : ObjId) :
    Option ObjId :=
  match field with
  | .localPtr _ => some .empty
  | .sharedPtr _ =>
      if !id.isValid then
        some .empty
      else
        match mapping.lookup id with
        | some newId => some newId
        | none => if id ∈ mapping.map Prod.snd then some id else none

/-- The references of one layer.  The archive stops at the first error. -/
def saveFields (mapping : List (ObjId × ObjId)) :
    (LinkField → ObjId) → List (LinkField × ClassId) →
      (LinkField → ObjId) × List ObjId × Bool
  | links, [] => (links, [], true)
  | links, field :: rest =>
      match handlePointerRemap mapping field.1 (links field.1) with
      | none => (links, [], false)
      | some id =>
          let saved := saveFields mapping (Function.update links field.1 id) rest
          (saved.1, id :: saved.2.1, saved.2.2)

/-- The layers of one object, which is `DomainGraph::SaveRoot` of it. -/
def saveLayers (mapping : List (ObjId × ObjId)) :
    (LinkField → ObjId) → List LinkLayer → (LinkField → ObjId) × List StoredLayer × Bool
  | links, [] => (links, [], true)
  | links, layer :: rest =>
      let saved := saveFields mapping links layer.fields
      let stored := ⟨layer.classId, layer.version, layer.scalars, saved.2.1⟩
      if saved.2.2 then
        let others := saveLayers mapping saved.1 rest
        (others.1, stored :: others.2.1, others.2.2)
      else
        (saved.1, [stored], false)

/-- The stored layers of an object with every reference replaced. -/
def layersWith (value : LinkField → ObjId) (layers : List LinkLayer) : List StoredLayer :=
  layers.map fun layer =>
    ⟨layer.classId, layer.version, layer.scalars, layer.fields.map fun field => value field.1⟩

section Images

variable {mapping : List (ObjId × ObjId)}

/-- `old_to_new[id]`. -/
def newIdOf (mapping : List (ObjId × ObjId)) (id : ObjId) : ObjId :=
  (mapping.lookup id).getD .empty

/-- What a reference should become: a shared one refers to the image of its target, and a
local one is empty. -/
def imageLink (mapping : List (ObjId × ObjId)) (field : LinkField) (id : ObjId) : ObjId :=
  match field with
  | .localPtr _ => .empty
  | .sharedPtr _ => newIdOf mapping id

/-- The stored layers of the image of an object. -/
def storedImage (mapping : List (ObjId × ObjId)) (object : LinkedObject) :
    List StoredLayer :=
  layersWith (fun field => imageLink mapping field (object.links field)) object.layers

/-- A reference that an import can remap, now or after it was remapped. -/
def IsRemappable (mapping : List (ObjId × ObjId)) (field : LinkField) (id : ObjId) : Prop :=
  (handlePointerRemap mapping field id).isSome = true

/-- The remapping of a remappable reference. -/
def remapped (mapping : List (ObjId × ObjId)) (field : LinkField) (id : ObjId) : ObjId :=
  (handlePointerRemap mapping field id).getD .empty

theorem handlePointerRemap_eq {field : LinkField} {id : ObjId}
    (h : IsRemappable mapping field id) :
    handlePointerRemap mapping field id = some (remapped mapping field id) := by
  obtain ⟨newId, hnew⟩ := Option.isSome_iff_exists.mp h
  rw [remapped, hnew]
  rfl

/-- A remapped reference can be remapped again. -/
theorem isRemappable_remapped {field : LinkField} {id : ObjId}
    (h : IsRemappable mapping field id) :
    IsRemappable mapping field (remapped mapping field id) := by
  have hremap := handlePointerRemap_eq h
  unfold IsRemappable
  cases field with
  | localPtr index => rfl
  | sharedPtr index =>
      rw [handlePointerRemap] at hremap ⊢
      split at hremap
      case isTrue =>
        rw [← Option.some.inj hremap]
        rfl
      case isFalse hvalid =>
        have hmem : remapped mapping (.sharedPtr index) id ∈ mapping.map Prod.snd := by
          split at hremap
          case h_1 newId hlookup =>
            rw [← Option.some.inj hremap]
            exact List.mem_map_of_mem (mem_of_lookup_eq_some hlookup)
          case h_2 =>
            split at hremap
            case isTrue hnew =>
              rw [← Option.some.inj hremap]
              exact hnew
            case isFalse => cases hremap
        split
        case isTrue => rfl
        case isFalse =>
          split
          case h_1 => rfl
          case h_2 => rfl

/-- Saving the references of a layer visits them in place. -/
theorem saveFields_eq {links : LinkField → ObjId} {fields : List (LinkField × ClassId)}
    (h : ∀ field ∈ fields.map Prod.fst, IsRemappable mapping field (links field)) :
    saveFields mapping links fields =
      ((visitInPlace (remapped mapping) links (fields.map Prod.fst)).1,
        (visitInPlace (remapped mapping) links (fields.map Prod.fst)).2, true) := by
  induction fields generalizing links with
  | nil => rfl
  | cons field rest ih =>
      have hfirst := h field.1 (by simp)
      have hrest := @ih (Function.update links field.1 (remapped mapping field.1 (links field.1)))
        (by
          intro other hother
          by_cases hsame : other = field.1
          · subst hsame
            rw [Function.update_self]
            exact isRemappable_remapped hfirst
          · rw [Function.update_of_ne hsame]
            exact h other (by simp [List.mem_map.mp hother]))
      rw [saveFields, handlePointerRemap_eq hfirst, List.map_cons, visitInPlace_cons]
      simp only [hrest]

/-- A visit in place keeps references remappable. -/
theorem isRemappable_visited {links : LinkField → ObjId} {visits : List LinkField}
    {field : LinkField} (h : IsRemappable mapping field (links field)) :
    IsRemappable mapping field ((visitInPlace (remapped mapping) links visits).1 field) := by
  induction visits generalizing links with
  | nil => exact h
  | cons first rest ih =>
      rw [visitInPlace_cons]
      refine ih ?_
      by_cases hsame : field = first
      · subst hsame
        rw [Function.update_self]
        exact isRemappable_remapped h
      · rwa [Function.update_of_ne hsame]

/-- Saving the layers of an object visits all its references in place, and stores what a
map over the references would exactly when the visit emits that. -/
theorem saveLayers_spec {links : LinkField → ObjId} {layers : List LinkLayer}
    (h : ∀ field ∈ (layers.flatMap LinkLayer.fields).map Prod.fst,
      IsRemappable mapping field (links field)) (value : LinkField → ObjId) :
    (saveLayers mapping links layers).1 =
        (visitInPlace (remapped mapping) links
          ((layers.flatMap LinkLayer.fields).map Prod.fst)).1 ∧
      (saveLayers mapping links layers).2.2 = true ∧
      ((saveLayers mapping links layers).2.1 = layersWith value layers ↔
        (visitInPlace (remapped mapping) links
            ((layers.flatMap LinkLayer.fields).map Prod.fst)).2 =
          ((layers.flatMap LinkLayer.fields).map Prod.fst).map value) := by
  induction layers generalizing links with
  | nil => exact ⟨rfl, rfl, by simp [saveLayers, layersWith, visitInPlace]⟩
  | cons layer rest ih =>
      simp only [List.flatMap_cons, List.map_append, List.mem_append] at h ⊢
      have hfields := saveFields_eq fun field hfield => h field (Or.inl hfield)
      obtain ⟨hlinks, hok, hlayers⟩ := @ih
        (visitInPlace (remapped mapping) links (layer.fields.map Prod.fst)).1
        fun field hfield => isRemappable_visited (h field (Or.inr hfield))
      rw [saveLayers, hfields, visitInPlace_append]
      refine ⟨hlinks, hok, ?_⟩
      have hcons : layersWith value (layer :: rest) =
          ⟨layer.classId, layer.version, layer.scalars,
            (layer.fields.map Prod.fst).map value⟩ :: layersWith value rest := by
        rw [List.map_map]
        rfl
      simp only [if_true, hcons, List.cons.injEq, StoredLayer.mk.injEq, true_and, hlayers]
      constructor
      · rintro ⟨hfirst, hrest⟩
        rw [hfirst, hrest]
      · intro hall
        exact List.append_inj hall (by simp [length_emitted])

end Images

end AppTraverse
