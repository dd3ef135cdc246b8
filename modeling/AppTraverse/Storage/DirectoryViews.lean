import AppTraverse.Storage.DirectoryStorage

/-!
# What is seen of a directory tree

`Load` and `Enumerate` see three things of the tree: which objects have a directory, which classes
have one, and what the files of the versions hold.  Each step of a commit is described by what it
changes of these.
-/

namespace AppTraverse

open Foundations

/-- A bind of fallible computations fails when one of its parts does. -/
theorem except_bind_eq_error_iff {φ ρ σ : Type} {x : Except φ ρ} {f : ρ → Except φ σ}
    {reason : φ} :
    x >>= f = .error reason ↔
      x = .error reason ∨ ∃ value, x = .ok value ∧ f value = .error reason := by
  cases x with
  | error other => simp [bind, Except.bind]
  | ok value => simp [bind, Except.bind]

namespace DirectoryTree

variable {tree next left : DirectoryTree} {id other : ObjId} {classId : ClassId}

section Directories

theorem hasObject_insert {object : ObjectDirectory} :
    hasObject { tree with objects := tree.objects.insert id object } other =
      (tree.hasObject other || decide (other = id)) := by
  unfold hasObject
  by_cases hsame : other = id
  · subst hsame
    simp [AList.lookup_insert]
  · simp [AList.lookup_insert_ne hsame, hsame]

theorem classDirectory_insert {object : ObjectDirectory} :
    classDirectory { tree with objects := tree.objects.insert id object } other classId =
      if other = id then object.lookup classId else tree.classDirectory other classId := by
  unfold classDirectory
  split
  case isTrue hsame =>
    subst hsame
    rw [AList.lookup_insert]
    rfl
  case isFalse hother => rw [AList.lookup_insert_ne hother]

@[simp] theorem hasObject_modifyObject {change : ObjectDirectory → ObjectDirectory} :
    (tree.modifyObject id change).hasObject other = tree.hasObject other := by
  unfold modifyObject
  split
  case h_1 => rfl
  case h_2 object hobject =>
    rw [hasObject_insert]
    by_cases hsame : other = id
    · subst hsame
      simp [hasObject, hobject]
    · simp [hsame]

theorem classDirectory_modifyObject {change : ObjectDirectory → ObjectDirectory} :
    (tree.modifyObject id change).classDirectory other classId =
      if other = id then (tree.objects.lookup id).bind fun object => (change object).lookup classId
      else tree.classDirectory other classId := by
  unfold modifyObject
  split
  case h_1 hnone =>
    split
    case isTrue hsame =>
      subst hsame
      rw [classDirectory, hnone]
      rfl
    case isFalse => rfl
  case h_2 object hobject =>
    rw [classDirectory_insert, hobject]
    rfl

@[simp] theorem hasObject_modifyClass {change : ClassDirectory → ClassDirectory} :
    (tree.modifyClass id classId change).hasObject other = tree.hasObject other :=
  hasObject_modifyObject

/-- The files of one class were changed. -/
theorem classDirectory_modifyClass {change : ClassDirectory → ClassDirectory}
    {otherClass : ClassId} :
    (tree.modifyClass id classId change).classDirectory other otherClass =
      if other = id ∧ otherClass = classId then (tree.classDirectory id classId).map change
      else tree.classDirectory other otherClass := by
  unfold modifyClass
  rw [classDirectory_modifyObject]
  by_cases hid : other = id
  · subst hid
    rw [if_pos rfl]
    unfold classDirectory
    cases hobject : tree.objects.lookup other with
    | none => simp
    | some object =>
        by_cases hclass : otherClass = classId
        · subst hclass
          cases hfiles : object.lookup otherClass with
          | none => simp [hfiles]
          | some files => simp [hfiles]
        · cases hfiles : object.lookup classId with
          | none => simp [hfiles, hclass]
          | some files => simp [hfiles, hclass, AList.lookup_insert_ne hclass]
  · rw [if_neg hid, if_neg fun h => hid h.1]

@[simp] theorem hasClass_modifyClass {change : ClassDirectory → ClassDirectory}
    {otherClass : ClassId} :
    (tree.modifyClass id classId change).hasClass other otherClass =
      tree.hasClass other otherClass := by
  unfold hasClass
  rw [classDirectory_modifyClass]
  split
  case isTrue hsame =>
    obtain ⟨rfl, rfl⟩ := hsame
    exact Option.isSome_map
  case isFalse => rfl

/-- One file of a class was changed. -/
theorem fileAt_modifyClass {change : ClassDirectory → ClassDirectory} {otherClass : ClassId}
    {name : LayerFileName} :
    (tree.modifyClass id classId change).fileAt other otherClass name =
      if other = id ∧ otherClass = classId then
        (tree.classDirectory id classId).bind fun files => (change files).lookup name
      else tree.fileAt other otherClass name := by
  unfold fileAt
  rw [classDirectory_modifyClass]
  split
  case isTrue => exact Option.bind_map
  case isFalse => rfl

/-- Without a directory for the object there is none for a class. -/
theorem hasClass_of_not_hasObject (hobject : tree.hasObject id = false) :
    tree.hasClass id classId = false := by
  unfold hasObject at hobject
  rw [Option.isSome_eq_false_iff, Option.isNone_iff_eq_none] at hobject
  rw [hasClass, classDirectory, hobject]
  rfl

/-- Without a directory for the class there are no files in it. -/
theorem fileAt_of_not_hasClass (hclass : tree.hasClass id classId = false)
    (name : LayerFileName) : tree.fileAt id classId name = none := by
  unfold hasClass at hclass
  rw [Option.isSome_eq_false_iff, Option.isNone_iff_eq_none] at hclass
  rw [fileAt, hclass]
  rfl

/-- A directory for a class is in one for the object. -/
theorem hasObject_of_hasClass (hclass : tree.hasClass id classId = true) :
    tree.hasObject id = true := by
  by_contra hmissing
  rw [Bool.not_eq_true] at hmissing
  rw [hasClass_of_not_hasObject hmissing] at hclass
  cases hclass

/-- A layer that is there has its directories. -/
theorem directories_of_present {query : DomainQuery} {bytes : Bytes}
    (hpresent : tree.readExistingLayerFile query = some bytes) :
    tree.hasObject query.id = true ∧ tree.hasClass query.id query.classId = true := by
  have hclass : tree.hasClass query.id query.classId = true := by
    by_contra hmissing
    rw [Bool.not_eq_true] at hmissing
    rw [readExistingLayerFile, fileAt_of_not_hasClass hmissing] at hpresent
    cases hpresent
  exact ⟨hasObject_of_hasClass hclass, hclass⟩

end Directories

/-- What a part of a commit adds: directories, and no file of a version. -/
structure Adds (tree next : DirectoryTree) (query : DomainQuery) (object cls : Bool) : Prop where
  hasObject : ∀ id, next.hasObject id = (tree.hasObject id || (decide (id = query.id) && object))
  hasClass : ∀ id classId, next.hasClass id classId =
    (tree.hasClass id classId || (decide (id = query.id ∧ classId = query.classId) && cls))
  file : ∀ id classId version, next.fileAt id classId (.version version) =
    tree.fileAt id classId (.version version)

section Commit

variable {query : DomainQuery} {object object' cls cls' : Bool} {fault : Option FileStep}
  {bytes : Bytes}

theorem Adds.refl (tree : DirectoryTree) (query : DomainQuery) : tree.Adds tree query false false :=
  ⟨by simp, by simp, fun _ _ _ => rfl⟩

theorem Adds.trans (h : tree.Adds next query object cls) (h' : next.Adds left query object' cls') :
    tree.Adds left query (object || object') (cls || cls') where
  hasObject id := by
    rw [h'.hasObject, h.hasObject, Bool.or_assoc, Bool.and_or_distrib_left]
  hasClass id classId := by
    rw [h'.hasClass, h.hasClass, Bool.or_assoc, Bool.and_or_distrib_left]
  file id classId version := by rw [h'.file, h.file]

/-- Temporary files are not seen. -/
theorem adds_modifyClass {change : ClassDirectory → ClassDirectory}
    (hkeeps : ∀ files version, (change files).lookup (.version version) =
      files.lookup (.version version)) :
    tree.Adds (tree.modifyClass query.id query.classId change) query false false where
  hasObject id := by simp
  hasClass id classId := by simp
  file id classId version := by
    rw [fileAt_modifyClass]
    split
    case isTrue hsame =>
      obtain ⟨rfl, rfl⟩ := hsame
      simp only [hkeeps]
      rfl
    case isFalse => rfl

theorem adds_putTemporary : tree.Adds (tree.putTemporary query bytes) query false false :=
  adds_modifyClass fun _ _ => AList.lookup_insert_ne (by simp)

theorem adds_removeTemporary : tree.Adds (tree.removeTemporary query) query false false :=
  adds_modifyClass fun _ _ => AList.lookup_erase_ne (by simp)

theorem adds_createRoot (query : DomainQuery) (h : tree.createRoot fault = .ok next) :
    tree.Adds next query false false := by
  unfold createRoot at h
  split at h
  case isTrue =>
    cases h
    exact .refl _ _
  case isFalse =>
  split at h
  case isTrue => cases h
  case isFalse =>
    cases h
    exact ⟨by simp [DirectoryTree.hasObject],
      by simp [DirectoryTree.hasClass, classDirectory], fun _ _ _ => rfl⟩

theorem adds_createObjectDirectory (h : tree.createObjectDirectory fault query.id = .ok next) :
    tree.Adds next query true false := by
  unfold createObjectDirectory at h
  split at h
  case isTrue hobject =>
    cases h
    refine ⟨?_, by simp, fun _ _ _ => rfl⟩
    intro id
    by_cases hsame : id = query.id
    · subst hsame
      simp [hobject]
    · simp [hsame]
  case isFalse hobject =>
  split at h
  case isTrue => cases h
  case isFalse =>
    cases h
    rw [Bool.not_eq_true] at hobject
    have hsame : ∀ id classId, classDirectory
        { tree with objects := tree.objects.insert query.id ∅ } id classId =
          tree.classDirectory id classId := by
      intro id classId
      rw [classDirectory_insert]
      split
      case isTrue hsame =>
        subst hsame
        have hnone : tree.hasClass query.id classId = false := hasClass_of_not_hasObject hobject
        unfold DirectoryTree.hasClass at hnone
        rw [Option.isSome_eq_false_iff, Option.isNone_iff_eq_none] at hnone
        rw [hnone, AList.lookup_empty]
      case isFalse => rfl
    constructor
    case hasObject =>
      intro id
      rw [hasObject_insert, Bool.and_true]
    case hasClass =>
      intro id classId
      rw [Bool.and_false, Bool.or_false, DirectoryTree.hasClass, hsame]
      rfl
    case file =>
      intro id classId version
      rw [fileAt, hsame]
      rfl

theorem adds_createClassDirectory (hobject : tree.hasObject query.id = true)
    (h : tree.createClassDirectory fault query = .ok next) :
    tree.Adds next query false true := by
  unfold createClassDirectory at h
  split at h
  case isTrue hclass =>
    cases h
    refine ⟨by simp, ?_, fun _ _ _ => rfl⟩
    intro id classId
    by_cases hsame : id = query.id ∧ classId = query.classId
    · obtain ⟨rfl, rfl⟩ := hsame
      simp [hclass]
    · simp [hsame]
  case isFalse hclass =>
  split at h
  case isTrue => cases h
  case isFalse =>
    cases h
    rw [Bool.not_eq_true] at hclass
    obtain ⟨files, hfiles⟩ := Option.isSome_iff_exists.mp hobject
    have hcreated : ∀ id classId, (tree.modifyObject query.id fun object =>
        object.insert query.classId ∅).classDirectory id classId =
          if id = query.id ∧ classId = query.classId then some ∅
          else tree.classDirectory id classId := by
      intro id classId
      rw [classDirectory_modifyObject]
      by_cases hid : id = query.id
      · subst hid
        rw [if_pos rfl, hfiles, Option.bind_some]
        by_cases hsame : classId = query.classId
        · rw [hsame, AList.lookup_insert, if_pos ⟨rfl, rfl⟩]
        · rw [AList.lookup_insert_ne hsame, if_neg fun hboth => hsame hboth.2, classDirectory,
            hfiles]
          rfl
      · rw [if_neg hid, if_neg fun hboth => hid hboth.1]
    constructor
    case hasObject => simp
    case hasClass =>
      intro id classId
      rw [DirectoryTree.hasClass, hcreated]
      by_cases hsame : id = query.id ∧ classId = query.classId
      · simp [hsame]
      · simp [hsame, DirectoryTree.hasClass]
    case file =>
      intro id classId version
      rw [fileAt, hcreated]
      by_cases hsame : id = query.id ∧ classId = query.classId
      · obtain ⟨rfl, rfl⟩ := hsame
        rw [fileAt_of_not_hasClass hclass]
        simp
      · rw [if_neg hsame]
        rfl

theorem adds_openTemporary (h : tree.openTemporary fault query = .ok next) :
    tree.Adds next query false false := by
  unfold openTemporary at h
  split at h
  case isTrue => cases h
  case isFalse =>
    cases h
    exact adds_putTemporary

theorem adds_writeTemporary (h : tree.writeTemporary fault query bytes = .ok next) :
    tree.Adds next query false false := by
  unfold writeTemporary at h
  split at h
  case isTrue =>
    cases h
    exact .refl _ _
  case isFalse =>
  split at h
  case isTrue => cases h
  case isFalse =>
    cases h
    exact adds_putTemporary

theorem flushTemporary_ok (h : tree.flushTemporary fault query = .ok next) : next = tree := by
  unfold flushTemporary at h
  split at h
  case isTrue => cases h
  case isFalse => exact (Except.ok.inj h).symm

/-- The layer has the bytes, and its directories are there. -/
structure Replaced (tree next : DirectoryTree) (query : DomainQuery) (bytes : Bytes) : Prop where
  hasObject : ∀ id, next.hasObject id = (tree.hasObject id || decide (id = query.id))
  hasClass : ∀ id classId, next.hasClass id classId =
    (tree.hasClass id classId || decide (id = query.id ∧ classId = query.classId))
  file : ∀ id classId version, next.fileAt id classId (.version version) =
    if id = query.id ∧ classId = query.classId ∧ version = query.version then some bytes
    else tree.fileAt id classId (.version version)

theorem replaced_renameTemporary (hclass : tree.hasClass query.id query.classId = true)
    (hobject : tree.hasObject query.id = true)
    (h : tree.renameTemporary fault query bytes = .ok next) :
    tree.Replaced next query bytes := by
  unfold renameTemporary at h
  split at h
  case isTrue => cases h
  case isFalse =>
    cases h
    constructor
    case hasObject =>
      intro id
      by_cases hsame : id = query.id
      · subst hsame
        simp [hobject]
      · simp [hsame]
    case hasClass =>
      intro id classId
      by_cases hsame : id = query.id ∧ classId = query.classId
      · obtain ⟨rfl, rfl⟩ := hsame
        simp [hclass]
      · simp [hsame]
    case file =>
      intro id classId version
      obtain ⟨files, hfiles⟩ := Option.isSome_iff_exists.mp hclass
      rw [fileAt_modifyClass]
      by_cases hsame : id = query.id ∧ classId = query.classId
      · obtain ⟨rfl, rfl⟩ := hsame
        rw [if_pos ⟨rfl, rfl⟩, hfiles, Option.bind_some]
        by_cases hversion : version = query.version
        · subst hversion
          rw [if_pos ⟨rfl, rfl, rfl⟩, AList.lookup_insert]
        · rw [if_neg fun hall => hversion hall.2.2, AList.lookup_insert_ne (by simpa using hversion),
            AList.lookup_erase_ne (by simp), fileAt, hfiles]
          rfl
      · rw [if_neg hsame, if_neg fun hall => hsame ⟨hall.1, hall.2.1⟩]

/-- A commit that succeeds. -/
theorem replaced_of_replaceLayerFile (h : tree.replaceLayerFile fault query bytes = .ok next) :
    tree.Replaced next query bytes := by
  unfold replaceLayerFile at h
  obtain ⟨rooted, hroot, h⟩ := except_bind_eq_ok_iff.mp h
  obtain ⟨objected, hobject, h⟩ := except_bind_eq_ok_iff.mp h
  obtain ⟨classed, hclass, h⟩ := except_bind_eq_ok_iff.mp h
  obtain ⟨opened, hopen, h⟩ := except_bind_eq_ok_iff.mp h
  obtain ⟨written, hwrite, h⟩ := except_bind_eq_ok_iff.mp h
  obtain ⟨flushed, hflush, h⟩ := except_bind_eq_ok_iff.mp h
  rw [flushTemporary_ok hflush] at h
  have hrooted := (adds_createRoot query hroot).trans (adds_createObjectDirectory hobject)
  have hhasObject : objected.hasObject query.id = true := by
    rw [hrooted.hasObject]
    simp
  have hadds := ((hrooted.trans (adds_createClassDirectory hhasObject hclass)).trans
    (adds_openTemporary hopen)).trans (adds_writeTemporary hwrite)
  have hobjectThere : written.hasObject query.id = true := by
    rw [hadds.hasObject]
    simp
  have hclassThere : written.hasClass query.id query.classId = true := by
    rw [hadds.hasClass]
    simp
  have hreplaced := replaced_renameTemporary hclassThere hobjectThere h
  constructor
  case hasObject =>
    intro id
    rw [hreplaced.hasObject, hadds.hasObject, Bool.or_assoc]
    simp
  case hasClass =>
    intro id classId
    rw [hreplaced.hasClass, hadds.hasClass, Bool.or_assoc]
    simp
  case file =>
    intro id classId version
    rw [hreplaced.file, hadds.file]

end Commit

end DirectoryTree

/-- The directory of the object is there when the step is taken. -/
def FileStep.afterObject : FileStep → Bool
  | .createRoot => false
  | .createObjectDirectory => false
  | _ => true

/-- The directory of the class is there when the step is taken. -/
def FileStep.afterClass : FileStep → Bool
  | .createRoot => false
  | .createObjectDirectory => false
  | .createClassDirectory => false
  | _ => true

namespace DirectoryTree

section Failure

variable {tree left : DirectoryTree} {query : DomainQuery} {fault : Option FileStep}
  {bytes : Bytes}

/-- A commit that fails leaves the directories that it has created. -/
theorem adds_of_failure (h : tree.replaceLayerFile fault query bytes = .error left) :
    ∃ step, fault = some step ∧ (step = .write → bytes ≠ []) ∧
      tree.Adds left query step.afterObject step.afterClass := by
  unfold replaceLayerFile at h
  rcases except_bind_eq_error_iff.mp h with hroot | ⟨rooted, hroot, h⟩
  · refine ⟨.createRoot, ?_⟩
    unfold createRoot at hroot
    split at hroot
    case isTrue => cases hroot
    case isFalse =>
    split at hroot
    case isFalse => cases hroot
    case isTrue hfault =>
      cases hroot
      exact ⟨hfault, nofun, .refl _ _⟩
  have hrooted := adds_createRoot query hroot
  rcases except_bind_eq_error_iff.mp h with hobject | ⟨objected, hobject, h⟩
  · refine ⟨.createObjectDirectory, ?_⟩
    unfold createObjectDirectory at hobject
    split at hobject
    case isTrue => cases hobject
    case isFalse =>
    split at hobject
    case isFalse => cases hobject
    case isTrue hfault =>
      cases hobject
      exact ⟨hfault, nofun, hrooted⟩
  have hobjected := hrooted.trans (adds_createObjectDirectory hobject)
  have hhasObject : objected.hasObject query.id = true := by
    rw [hobjected.hasObject]
    simp
  rcases except_bind_eq_error_iff.mp h with hclass | ⟨classed, hclass, h⟩
  · refine ⟨.createClassDirectory, ?_⟩
    unfold createClassDirectory at hclass
    split at hclass
    case isTrue => cases hclass
    case isFalse =>
    split at hclass
    case isFalse => cases hclass
    case isTrue hfault =>
      cases hclass
      exact ⟨hfault, nofun, hobjected⟩
  have hclassed := hobjected.trans (adds_createClassDirectory hhasObject hclass)
  rcases except_bind_eq_error_iff.mp h with hopen | ⟨opened, hopen, h⟩
  · refine ⟨.openTemporary, ?_⟩
    unfold openTemporary at hopen
    split at hopen
    case isFalse => cases hopen
    case isTrue hfault =>
      cases hopen
      exact ⟨hfault, nofun, hclassed⟩
  have hopened := hclassed.trans (adds_openTemporary hopen)
  rcases except_bind_eq_error_iff.mp h with hwrite | ⟨written, hwrite, h⟩
  · refine ⟨.write, ?_⟩
    unfold writeTemporary at hwrite
    split at hwrite
    case isTrue => cases hwrite
    case isFalse hbytes =>
    split at hwrite
    case isFalse => cases hwrite
    case isTrue hfault =>
      cases hwrite
      exact ⟨hfault, fun _ => by simpa using hbytes, hopened.trans adds_removeTemporary⟩
  have hwritten := hopened.trans (adds_writeTemporary hwrite)
  rcases except_bind_eq_error_iff.mp h with hflush | ⟨flushed, hflush, h⟩
  · refine ⟨.flush, ?_⟩
    unfold flushTemporary at hflush
    split at hflush
    case isFalse => cases hflush
    case isTrue hfault =>
      cases hflush
      exact ⟨hfault, nofun, hwritten.trans adds_removeTemporary⟩
  rw [flushTemporary_ok hflush] at h
  refine ⟨.rename, ?_⟩
  unfold renameTemporary at h
  split at h
  case isFalse => cases h
  case isTrue hfault =>
    cases h
    exact ⟨hfault, nofun, hwritten.trans adds_removeTemporary⟩

/-- A commit that succeeds has taken no step that fails. -/
theorem not_taken_of_replaceLayerFile (h : tree.replaceLayerFile fault query bytes = .ok left)
    {step : FileStep} (hfault : fault = some step) (hbytes : step = .write → bytes ≠ []) :
    step = .createRoot ∨ step = .createObjectDirectory ∨
      (step = .createClassDirectory ∧ tree.hasClass query.id query.classId = true) := by
  subst hfault
  unfold replaceLayerFile at h
  obtain ⟨rooted, hroot, h⟩ := except_bind_eq_ok_iff.mp h
  obtain ⟨objected, hobject, h⟩ := except_bind_eq_ok_iff.mp h
  obtain ⟨classed, hclass, h⟩ := except_bind_eq_ok_iff.mp h
  obtain ⟨opened, hopen, h⟩ := except_bind_eq_ok_iff.mp h
  obtain ⟨written, hwrite, h⟩ := except_bind_eq_ok_iff.mp h
  obtain ⟨flushed, hflush, h⟩ := except_bind_eq_ok_iff.mp h
  have hobjected := (adds_createRoot query hroot).trans
    (adds_createObjectDirectory hobject)
  cases step with
  | createRoot => exact Or.inl rfl
  | createObjectDirectory => exact Or.inr (Or.inl rfl)
  | createClassDirectory =>
      refine Or.inr (Or.inr ⟨rfl, ?_⟩)
      by_contra hmissing
      have hthere := hobjected.hasClass query.id query.classId
      rw [Bool.not_eq_true] at hmissing
      rw [hmissing] at hthere
      simp [createClassDirectory, hthere] at hclass
  | openTemporary => simp [openTemporary] at hopen
  | write => simp [writeTemporary, hbytes rfl] at hwrite
  | flush => simp [flushTemporary] at hflush
  | rename => simp [renameTemporary] at h

end Failure

end DirectoryTree

end AppTraverse
