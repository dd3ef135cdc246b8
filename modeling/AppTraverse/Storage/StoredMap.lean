import AppTraverse.Storage.DirectoryViews

/-!
# Directory storage as a map

What the storage is for: a map from objects, classes and versions to bytes, which also knows the
objects that were removed.  `Represents` says which map a directory tree stands for, and the tree
answers `Load` and `Enumerate` as the map does.
-/

namespace AppTraverse

open Foundations

/-- What is stored of an object. -/
inductive StoredLayers where
  | missing
  | removed
  | layers (layerAt : ClassId → Version → Option Bytes)

/-- What is stored, by object. -/
abbrev StoredMap := ObjId → StoredLayers

/-- A layer of an object. -/
def StoredLayers.layer : StoredLayers → ClassId → Version → Option Bytes
  | .layers layerAt => layerAt
  | _ => fun _ _ => none

namespace StoredMap

variable (stored : StoredMap)

/-- A layer is stored. -/
def put (query : DomainQuery) (bytes : Bytes) : StoredMap := fun id =>
  if id = query.id then
    .layers fun classId version =>
      if classId = query.classId ∧ version = query.version then some bytes
      else (stored id).layer classId version
  else
    stored id

/-- An object is removed. -/
def remove (id : ObjId) : StoredMap := fun other => if other = id then .removed else stored other

/-- Nothing is stored. -/
def cleanUp : StoredMap := fun _ => .missing

/-- What `Load` answers. -/
def load (query : DomainQuery) : DomainLoad :=
  match stored query.id with
  | .missing => .empty
  | .removed => .removed
  | .layers layerAt =>
      match layerAt query.classId query.version with
      | none => .empty
      | some bytes => .loaded bytes

/-- `Enumerate` lists the class. -/
def Lists (id : ObjId) (classId : ClassId) : Prop :=
  ∃ version bytes, (stored id).layer classId version = some bytes

theorem load_of_layers {layerAt : ClassId → Version → Option Bytes} {query : DomainQuery}
    (hlayers : stored query.id = .layers layerAt) :
    stored.load query =
      ((layerAt query.classId query.version).map DomainLoad.loaded).getD .empty := by
  unfold load
  rw [hlayers]
  show (match layerAt query.classId query.version with
    | none => DomainLoad.empty
    | some bytes => .loaded bytes) = _
  cases layerAt query.classId query.version with
  | none => rfl
  | some bytes => rfl

/-- What was put is loaded. -/
theorem load_put (query : DomainQuery) (bytes : Bytes) :
    (stored.put query bytes).load query = .loaded bytes := by
  rw [load_of_layers _ (if_pos rfl), if_pos ⟨rfl, rfl⟩]
  rfl

end StoredMap

namespace DirectoryTree

variable {tree next : DirectoryTree} {id : ObjId} {query : DomainQuery}

section Answers

theorem object_isEmpty_iff {object : ObjectDirectory} :
    object.entries.isEmpty = true ↔ ∀ classId, object.lookup classId = none := by
  rw [List.isEmpty_iff]
  constructor
  · intro hempty classId
    have hobject : object = ∅ := AList.ext hempty
    rw [hobject, AList.lookup_empty]
  · intro hnone
    rw [List.eq_nil_iff_forall_not_mem]
    rintro ⟨classId, files⟩ hmem
    have hkey : classId ∈ object := List.mem_map_of_mem (f := Sigma.fst) hmem
    exact AList.lookup_eq_none.mp (hnone classId) hkey

theorem load_of_missing (hobject : tree.hasObject query.id = false) : tree.load query = .empty := by
  unfold hasObject at hobject
  rw [Option.isSome_eq_false_iff, Option.isNone_iff_eq_none] at hobject
  rw [load, hobject]

theorem hasClass_eq {object : ObjectDirectory} (hobject : tree.objects.lookup id = some object)
    (classId : ClassId) : tree.hasClass id classId = (object.lookup classId).isSome := by
  rw [hasClass, classDirectory, hobject]
  rfl

theorem load_of_bare (hobject : tree.hasObject query.id = true)
    (hbare : ∀ classId, tree.hasClass query.id classId = false) : tree.load query = .removed := by
  obtain ⟨object, hfound⟩ := Option.isSome_iff_exists.mp hobject
  have hempty : object.entries.isEmpty = true := by
    rw [object_isEmpty_iff]
    intro classId
    have hnone := hbare classId
    rw [hasClass_eq hfound] at hnone
    simpa using hnone
  rw [load, hfound]
  exact if_pos hempty

theorem load_of_class {classId : ClassId} (hclass : tree.hasClass query.id classId = true) :
    tree.load query = ((tree.fileAt query.id query.classId (.version query.version)).map
      DomainLoad.loaded).getD .empty := by
  cases hfound : tree.objects.lookup query.id with
  | none =>
      rw [hasClass, classDirectory, hfound] at hclass
      cases hclass
  | some object =>
      have hfull : ¬ object.entries.isEmpty = true := by
        rw [object_isEmpty_iff]
        intro hnone
        rw [hasClass_eq hfound, hnone] at hclass
        cases hclass
      unfold load fileAt classDirectory
      rw [hfound]
      show (if object.entries.isEmpty = true then DomainLoad.removed else _) = _
      rw [if_neg hfull, Option.bind_some]
      cases (object.lookup query.classId).bind fun files =>
        files.lookup (.version query.version) with
      | none => rfl
      | some bytes => rfl

/-- `Enumerate` lists the class directories. -/
theorem mem_enumerate {classId : ClassId} :
    classId ∈ tree.enumerate id ↔ tree.hasClass id classId = true := by
  unfold enumerate
  cases hfound : tree.objects.lookup id with
  | none => simp [hasClass, classDirectory, hfound]
  | some object =>
      show classId ∈ object.keys.insertionSort (· ≤ ·) ↔ _
      rw [(List.perm_insertionSort _ _).mem_iff, hasClass_eq hfound, AList.lookup_isSome]
      exact Iff.rfl

/-- Each of them once, in their order. -/
theorem sorted_enumerate (tree : DirectoryTree) (id : ObjId) :
    (tree.enumerate id).Pairwise (· ≤ ·) ∧ (tree.enumerate id).Nodup := by
  unfold enumerate
  cases tree.objects.lookup id with
  | none => exact ⟨List.Pairwise.nil, List.Pairwise.nil⟩
  | some object =>
      exact ⟨List.pairwise_insertionSort _ _,
        (List.perm_insertionSort _ _).nodup_iff.mpr object.keys_nodup⟩

/-- `Enumerate` sees the class directories only. -/
theorem enumerate_congr (hclass : ∀ classId, next.hasClass id classId = tree.hasClass id classId) :
    next.enumerate id = tree.enumerate id := by
  obtain ⟨hsorted, hnodup⟩ := tree.sorted_enumerate id
  obtain ⟨hsorted', hnodup'⟩ := next.sorted_enumerate id
  apply List.Perm.eq_of_pairwise _ hsorted' hsorted
  · rw [List.perm_ext_iff_of_nodup hnodup' hnodup]
    intro classId
    rw [mem_enumerate, mem_enumerate, hclass]
  · intro first second _ _ hle hge
    exact UInt32.le_antisymm hle hge

/-- `Load` sees the directories and the files of the versions only. -/
theorem load_congr (hobject : next.hasObject query.id = tree.hasObject query.id)
    (hclass : ∀ classId, next.hasClass query.id classId = tree.hasClass query.id classId)
    (hfile : next.fileAt query.id query.classId (.version query.version) =
      tree.fileAt query.id query.classId (.version query.version)) :
    next.load query = tree.load query := by
  cases hthere : tree.hasObject query.id with
  | false => rw [load_of_missing hthere, load_of_missing (hobject.trans hthere)]
  | true =>
      by_cases hbare : ∀ classId, tree.hasClass query.id classId = false
      · rw [load_of_bare hthere hbare,
          load_of_bare (hobject.trans hthere) fun classId => (hclass classId).trans (hbare classId)]
      · obtain ⟨classId, hfound⟩ := not_forall.mp hbare
        rw [Bool.not_eq_false] at hfound
        rw [load_of_class hfound, load_of_class ((hclass classId).trans hfound), hfile]

end Answers

/-- What the tree says of an object is what is stored of it. -/
def ObjectIs (tree : DirectoryTree) (id : ObjId) : StoredLayers → Prop
  | .missing => tree.hasObject id = false
  | .removed => tree.hasObject id = true ∧ ∀ classId, tree.hasClass id classId = false
  | .layers layerAt => tree.hasObject id = true ∧
      (∃ classId, tree.hasClass id classId = true) ∧
      (∀ classId version, tree.fileAt id classId (.version version) = layerAt classId version) ∧
      ∀ classId, tree.hasClass id classId = true → ∃ version bytes,
        layerAt classId version = some bytes

/-- The map that a tree stands for. -/
def Represents (tree : DirectoryTree) (stored : StoredMap) : Prop :=
  ∀ id, tree.ObjectIs id (stored id)

namespace Represents

variable {stored : StoredMap}

/-- `Load` answers as the map does. -/
theorem load (h : tree.Represents stored) (query : DomainQuery) :
    tree.load query = stored.load query := by
  have hobject := h query.id
  unfold StoredMap.load
  cases hstored : stored query.id with
  | missing =>
      rw [hstored] at hobject
      exact load_of_missing hobject
  | removed =>
      rw [hstored] at hobject
      exact load_of_bare hobject.1 hobject.2
  | layers layerAt =>
      rw [hstored] at hobject
      obtain ⟨-, ⟨classId, hclass⟩, hfiles, -⟩ := hobject
      rw [load_of_class hclass, hfiles]
      show _ = match layerAt query.classId query.version with
        | none => DomainLoad.empty
        | some bytes => .loaded bytes
      cases layerAt query.classId query.version with
      | none => rfl
      | some bytes => rfl

theorem hasClass_iff (h : tree.Represents stored) (id : ObjId) (classId : ClassId) :
    tree.hasClass id classId = true ↔ stored.Lists id classId := by
  have hobject := h id
  unfold StoredMap.Lists
  cases hstored : stored id with
  | missing =>
      rw [hstored] at hobject
      simp [hasClass_of_not_hasObject hobject, StoredLayers.layer]
  | removed =>
      rw [hstored] at hobject
      simp [hobject.2 classId, StoredLayers.layer]
  | layers layerAt =>
      rw [hstored] at hobject
      obtain ⟨-, -, hfiles, hstored'⟩ := hobject
      refine ⟨hstored' classId, ?_⟩
      rintro ⟨version, bytes, hlayer⟩
      by_contra hnot
      rw [Bool.not_eq_true] at hnot
      have hnone := fileAt_of_not_hasClass hnot (.version version)
      rw [hfiles] at hnone
      rw [StoredLayers.layer, hnone] at hlayer
      cases hlayer

/-- `Enumerate` lists the classes that have a stored version. -/
theorem mem_enumerate_iff (h : tree.Represents stored) (id : ObjId) (classId : ClassId) :
    classId ∈ tree.enumerate id ↔ stored.Lists id classId :=
  mem_enumerate.trans (h.hasClass_iff id classId)

theorem fileAt_eq (h : tree.Represents stored) (id : ObjId) (classId : ClassId)
    (version : Version) :
    tree.fileAt id classId (.version version) = (stored id).layer classId version := by
  have hobject := h id
  cases hstored : stored id with
  | missing =>
      rw [hstored] at hobject
      exact fileAt_of_not_hasClass (hasClass_of_not_hasObject hobject) _
  | removed =>
      rw [hstored] at hobject
      exact fileAt_of_not_hasClass (hobject.2 classId) _
  | layers layerAt =>
      rw [hstored] at hobject
      exact hobject.2.2.1 classId version

/-- A tree in which the same is seen. -/
theorem congr (h : tree.Represents stored)
    (hobject : ∀ id, next.hasObject id = tree.hasObject id)
    (hclass : ∀ id classId, next.hasClass id classId = tree.hasClass id classId)
    (hfile : ∀ id classId version, next.fileAt id classId (.version version) =
      tree.fileAt id classId (.version version)) : next.Represents stored := by
  intro id
  have hstored := h id
  unfold ObjectIs at hstored ⊢
  simp only [hobject, hclass, hfile]
  exact hstored

end Represents

end DirectoryTree

end AppTraverse
