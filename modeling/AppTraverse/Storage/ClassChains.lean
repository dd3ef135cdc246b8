import Mathlib.Data.List.Sort
import AppTraverse.Foundations.Traversal
import AppTraverse.Storage.ObjectGraph

/-!
# Stored class chains

`ValidateStoredClassChains` runs before any object of an untrusted graph is
loaded: the class layers of every object have to be registered, pairwise
related, and headed by one concrete class.

`std::sort` is modelled by an insertion sort with the same comparator; on the
chains that pass the relatedness check the comparator is a strict order, for
which every sort gives the same result.
-/

namespace AppTraverse

open Foundations

/-- `StoredClassChainInfo`. -/
structure StoredClassChainInfo where
  objId : ObjId
  chain : List ClassId
  mostDerivedClassId : ClassId
  deriving DecidableEq, Repr

section Validation

variable {α ε : Type} (aether : Aether α ε)

/-- One of two classes inherits from the other. -/
def classesRelated (a b : ClassId) : Bool :=
  decide (a = aether.objClassId) || decide (b = aether.objClassId) ||
    aether.derives a b || aether.derives b a

/-- The comparator of the sort: base before derived. -/
def baseBefore (a b : ClassId) : Bool :=
  if a = b then false
  else if a = aether.objClassId then true
  else if b = aether.objClassId then false
  else decide (0 < aether.generationDistance a b)

/-- The layers of one object form a coherent registered inheritance chain. -/
def validateStoredClassChain (objId : ObjId) (layers : Layers) :
    Option StoredClassChainInfo :=
  if !objId.isValid || layers.isEmpty then
    none
  else if layers.any fun layer =>
      (decide (layer.1 ≠ aether.objClassId) && !aether.isExisting layer.1) ||
        layer.2.isEmpty then
    none
  else if !decide ((layers.map Prod.fst).Pairwise
      fun a b => classesRelated aether a b = true) then
    none
  else
    let chain := (layers.map Prod.fst).insertionSort
      fun a b => baseBefore aether b a = false
    match chain.getLast? with
    | none => none
    | some mostDerived =>
        if mostDerived = aether.objClassId || !aether.hasFactory mostDerived then
          none
        else if chain.any fun classId =>
            decide (classId ≠ aether.objClassId) &&
              !aether.derives classId mostDerived then
          none
        else
          some ⟨objId, chain, mostDerived⟩

/-- `ValidateStoredClassChains`. -/
def validateStoredClassChains (parsed : RamDomainStorage) :
    Option (List StoredClassChainInfo) :=
  parsed.live.mapM fun object => validateStoredClassChain aether object.1 object.2

/-- The most-derived class of a stored object, when its chain is coherent. -/
def mostDerivedClassId? (parsed : RamDomainStorage) (id : ObjId) : Option ClassId := do
  let layers ← parsed.layers? id
  let info ← validateStoredClassChain aether id layers
  some info.mostDerivedClassId

/-- The most-derived class of a valid chain is the class of one layer, and every
layer is of a base of it. -/
theorem mostDerived_of_validateStoredClassChain {objId : ObjId} {layers : Layers}
    {info : StoredClassChainInfo}
    (h : validateStoredClassChain aether objId layers = some info) :
    info.objId = objId ∧ layers ≠ [] ∧
      info.mostDerivedClassId ∈ layers.map Prod.fst ∧
      ∀ classId ∈ layers.map Prod.fst, classId = aether.objClassId ∨
        aether.derives classId info.mostDerivedClassId = true := by
  unfold validateStoredClassChain at h
  split at h
  case isTrue => cases h
  case isFalse hempty =>
    split at h
    case isTrue => cases h
    case isFalse =>
      split at h
      case isTrue => cases h
      case isFalse =>
        simp only at h
        split at h
        case h_1 => cases h
        case h_2 mostDerived hlast =>
          split at h
          case isTrue => cases h
          case isFalse =>
            split at h
            case isTrue => cases h
            case isFalse hall =>
              cases h
              refine ⟨rfl, ?_, ?_, fun classId hclass => ?_⟩
              · rintro rfl
                simp at hempty
              · exact (List.mem_insertionSort _).mp (List.mem_of_getLast? hlast)
              · rw [Bool.not_eq_true, List.any_eq_false] at hall
                have hnot := hall classId ((List.mem_insertionSort _).mpr hclass)
                simp only [Bool.and_eq_true, decide_eq_true_eq, Bool.not_eq_true',
                  not_and, Bool.not_eq_false] at hnot
                by_cases hobj : classId = aether.objClassId
                · exact Or.inl hobj
                · exact Or.inr (hnot hobj)

/-- Every live object of a validated graph has a valid chain, and every chain is
one of its objects'. -/
theorem mem_of_validateStoredClassChains {parsed : RamDomainStorage}
    {chains : List StoredClassChainInfo}
    (h : validateStoredClassChains aether parsed = some chains)
    {info : StoredClassChainInfo} (hinfo : info ∈ chains) :
    ∃ layers, parsed.layers? info.objId = some layers ∧
      validateStoredClassChain aether info.objId layers = some info := by
  obtain ⟨object, hobject, hchain⟩ :=
    forall₂_exists_of_mem_right (mapM_option_eq_some_iff.mp h) hinfo
  obtain ⟨hid, -⟩ := mostDerived_of_validateStoredClassChain aether hchain
  exact ⟨object.2, by rw [hid]; exact RamDomainStorage.mem_live_iff.mp hobject,
    by rw [hid]; exact hchain⟩

/-- One layer for each class of a chain is validated by the classes alone. -/
theorem validateStoredClassChain_map {id other : ObjId}
    (hid : id.isValid = true) (hother : other.isValid = true) (chain : List ClassId)
    (bytes : ClassId → Bytes) :
    validateStoredClassChain aether id (chain.map fun classId => (classId, [(0, bytes classId)])) =
      (validateStoredClassChain aether other
        (chain.map fun classId => (classId, [(0, [])]))).map
        fun info => { info with objId := id } := by
  have hclasses : ∀ bytes : ClassId → Bytes, (chain.map fun classId =>
      (classId, [((0 : Version), bytes classId)])).map Prod.fst = chain := by
    intro bytes
    rw [List.map_map]
    exact List.map_id chain
  have hlayers : ∀ bytes : ClassId → Bytes, ((chain.map fun classId =>
      (classId, [((0 : Version), bytes classId)])).any fun layer =>
        (decide (layer.1 ≠ aether.objClassId) && !aether.isExisting layer.1) ||
          layer.2.isEmpty) =
      chain.any fun classId =>
        decide (classId ≠ aether.objClassId) && !aether.isExisting classId := by
    intro bytes
    simp [List.any_map, Function.comp_def]
  simp only [validateStoredClassChain, hclasses, hlayers, hid, hother,
    List.isEmpty_map]
  repeat' split
  all_goals rfl

end Validation

section Sorting

variable {κ : Type} {r : κ → κ → Prop} [DecidableRel r]

/-- Inserting an element that is not above the last one keeps the last one. -/
theorem getLast?_orderedInsert_of_rel {x top : κ} {l : List κ}
    (hlast : l.getLast? = some top) (hrel : r x top) :
    (l.orderedInsert r x).getLast? = some top := by
  induction l with
  | nil => cases hlast
  | cons head tail ih =>
      rw [List.orderedInsert_cons]
      by_cases hhead : r x head
      · rw [if_pos hhead, List.getLast?_cons_cons]
        exact hlast
      · rw [if_neg hhead]
        cases tail with
        | nil =>
            cases hlast
            exact absurd hrel hhead
        | cons next rest =>
            rw [List.getLast?_cons_cons] at hlast
            have hrest := ih hlast
            obtain ⟨first, others, hne⟩ :
                ∃ first others, (next :: rest).orderedInsert r x = first :: others := by
              cases hinsert : (next :: rest).orderedInsert r x with
              | nil =>
                  rw [hinsert] at hrest
                  cases hrest
              | cons first others => exact ⟨first, others, rfl⟩
            rw [hne] at hrest ⊢
            rw [List.getLast?_cons_cons]
            exact hrest

/-- Inserting an element strictly above all others puts it last. -/
theorem getLast?_orderedInsert_of_forall_not_rel {top : κ} {l : List κ}
    (h : ∀ x ∈ l, ¬ r top x) : (l.orderedInsert r top).getLast? = some top := by
  have hrest : l.dropWhile (fun b => !decide (r top b)) = [] := by
    rw [List.dropWhile_eq_nil_iff]
    intro x hx
    simp [h x hx]
  have hall : l.takeWhile (fun b => !decide (r top b)) = l := by
    rw [List.takeWhile_eq_self_iff]
    intro x hx
    simp [h x hx]
  rw [List.orderedInsert_eq_take_drop]
  simp [hrest, hall]

/-- An insertion sort ends with the greatest element, if there is one. -/
theorem getLast?_insertionSort_of_greatest {top : κ} {l : List κ} (hmem : top ∈ l)
    (hle : ∀ x ∈ l, r x top) (hmax : ∀ x ∈ l, r top x → x = top) :
    (l.insertionSort r).getLast? = some top := by
  induction l with
  | nil => cases hmem
  | cons head tail ih =>
      rw [List.insertionSort_cons]
      by_cases htail : top ∈ tail
      · have hlast := ih htail (fun x hx => hle x (List.mem_cons_of_mem _ hx))
          (fun x hx => hmax x (List.mem_cons_of_mem _ hx))
        exact getLast?_orderedInsert_of_rel hlast (hle head List.mem_cons_self)
      · have hhead : top = head := (List.mem_cons.mp hmem).resolve_right htail
        subst hhead
        refine getLast?_orderedInsert_of_forall_not_rel ?_
        intro x hx hrel
        have hxtail : x ∈ tail := (List.mem_insertionSort r).mp hx
        exact htail (hmax x (List.mem_cons_of_mem _ hxtail) hrel ▸ hxtail)

end Sorting

end AppTraverse
