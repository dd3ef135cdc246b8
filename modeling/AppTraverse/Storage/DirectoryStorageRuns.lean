import AppTraverse.Foundations.TransitionSystem
import AppTraverse.Storage.StoredMap

/-!
# The directory storage refines the map

The storage and the map take the same calls, and a commit that fails is none for the map.  A
directory says something by being there, so that the storage keeps up with the map as long as no
failed commit has made one.
-/

namespace AppTraverse

open Foundations

/-- The storage, its open writers, and what should be stored. -/
structure StorageRun where
  storage : DirectoryDomainStorage := {}
  writers : AList fun _ : Nat => LayerWriter := ∅
  stored : StoredMap := StoredMap.cleanUp

/-- The calls that change something.  A writer is known by a number. -/
inductive StorageAction where
  | beginSaveSession
  | store (handle : Nat) (query : DomainQuery)
  | write (handle : Nat) (bytes : Bytes)
  | close (handle : Nat) (fault : Option FileStep)
  | remove (id : ObjId) (fault : Option FileStep)
  | cleanUp (fault : Option FileStep)
  deriving DecidableEq, Repr

namespace StorageRun

variable (run : StorageRun)

/-- A writer is closed. -/
def close (fault : Option FileStep) (writer : LayerWriter) : StorageRun :=
  let storage := run.storage.commitLayer fault writer
  { run with
    storage := storage
    stored :=
      if storage.lastLayerCommit = .failed then run.stored
      else run.stored.put writer.query writer.buffer }

/-- `Remove`.  When it throws, nothing is removed. -/
def remove (fault : Option FileStep) (id : ObjId) : StorageRun :=
  { run with
    storage := { run.storage with tree := run.storage.tree.remove fault id }
    stored := if run.storage.tree.removeThrows fault id then run.stored else run.stored.remove id }

/-- `CleanUp`. -/
def cleanUp (fault : Option FileStep) : StorageRun :=
  { run with
    storage := { run.storage with tree := DirectoryTree.cleanUp fault }
    stored := StoredMap.cleanUp }

/-- One call. -/
def step : StorageAction → Option StorageRun
  | .beginSaveSession => some { run with storage := run.storage.beginSaveSession }
  | .store handle query =>
      if (run.writers.lookup handle).isSome then none
      else some { run with writers := run.writers.insert handle ⟨query, []⟩ }
  | .write handle bytes => (run.writers.lookup handle).map fun writer =>
      { run with
        storage := run.storage.recordLayerBytesAccepted bytes.length
        writers := run.writers.insert handle { writer with buffer := writer.buffer ++ bytes } }
  | .close handle fault => (run.writers.lookup handle).map fun writer =>
      { run.close fault writer with writers := run.writers.erase handle }
  | .remove id fault => some (run.remove fault id)
  | .cleanUp fault => some (run.cleanUp fault)

end StorageRun

/-- The commit makes a directory before the step that fails. -/
def createsBeforeFailing (tree : DirectoryTree) (writer : LayerWriter)
    (fault : Option FileStep) : Bool :=
  match fault with
  | none => false
  | some step =>
      !(decide (step = .write) && writer.buffer.isEmpty) &&
        (step.afterObject && !tree.hasObject writer.query.id ||
          step.afterClass && !tree.hasClass writer.query.id writer.query.classId)

/-- A commit that fails does so before it has made a directory. -/
def CommitsCleanly (run : StorageRun) : StorageAction → Prop
  | .close handle fault => (run.writers.lookup handle).all (fun writer =>
      !createsBeforeFailing run.storage.tree writer fault) = true
  | _ => True

instance decidableCommitsCleanly (run : StorageRun) :
    ∀ action, Decidable (CommitsCleanly run action)
  | .close handle fault => inferInstanceAs (Decidable ((run.writers.lookup handle).all
      (fun writer => !createsBeforeFailing run.storage.tree writer fault) = true))
  | .beginSaveSession => .isTrue trivial
  | .store _ _ => .isTrue trivial
  | .write _ _ => .isTrue trivial
  | .remove _ _ => .isTrue trivial
  | .cleanUp _ => .isTrue trivial

namespace DirectoryTree

variable {tree next left : DirectoryTree} {stored : StoredMap} {query : DomainQuery}
  {fault : Option FileStep} {bytes : Bytes} {writer : LayerWriter}

namespace Represents

/-- A layer was replaced. -/
theorem replaced (h : tree.Represents stored) (hreplaced : tree.Replaced next query bytes) :
    next.Represents (stored.put query bytes) := by
  intro id
  by_cases hid : id = query.id
  · subst hid
    have hput : stored.put query bytes query.id = .layers fun classId version =>
        if classId = query.classId ∧ version = query.version then some bytes
        else (stored query.id).layer classId version := if_pos rfl
    rw [hput]
    refine ⟨?_, ⟨query.classId, ?_⟩, ?_, ?_⟩
    · rw [hreplaced.hasObject]
      simp
    · rw [hreplaced.hasClass]
      simp
    · intro classId version
      show _ = if _ then some bytes else (stored query.id).layer classId version
      rw [hreplaced.file, h.fileAt_eq]
      simp
    · intro classId hclass
      by_cases hsame : classId = query.classId
      · exact ⟨query.version, bytes, if_pos ⟨hsame, rfl⟩⟩
      · rw [hreplaced.hasClass] at hclass
        have hbefore : tree.hasClass query.id classId = true := by simpa [hsame] using hclass
        obtain ⟨version, found, hfound⟩ := (h.hasClass_iff query.id classId).mp hbefore
        exact ⟨version, found, (if_neg fun hboth => hsame hboth.1).trans hfound⟩
  · have hput : stored.put query bytes id = stored id := if_neg hid
    have hstored := h id
    rw [hput]
    unfold ObjectIs at hstored ⊢
    simp only [hreplaced.hasObject, hreplaced.hasClass, hreplaced.file, hid, decide_false,
      false_and, Bool.or_false, if_false]
    exact hstored

/-- The layer has the bytes already. -/
theorem unchanged (h : tree.Represents stored)
    (hsame : tree.readExistingLayerFile query = some bytes) :
    tree.Represents (stored.put query bytes) := by
  obtain ⟨hobject, hclass⟩ := directories_of_present hsame
  apply h.replaced
  constructor
  case hasObject =>
    intro id
    by_cases hid : id = query.id
    · simp [hid, hobject]
    · simp [hid]
  case hasClass =>
    intro id classId
    by_cases hboth : id = query.id ∧ classId = query.classId
    · simp [hboth, hclass]
    · simp [hboth]
  case file =>
    intro id classId version
    split
    case isTrue hall =>
      obtain ⟨rfl, rfl, rfl⟩ := hall
      exact hsame
    case isFalse => rfl

/-- An object was removed. -/
theorem removed (h : tree.Represents stored) (id : ObjId) :
    Represents { tree with objects := tree.objects.insert id ∅ } (stored.remove id) := by
  intro other
  have hclasses : ∀ classId, classDirectory
      { tree with objects := tree.objects.insert id ∅ } other classId =
        if other = id then none else tree.classDirectory other classId := by
    intro classId
    rw [classDirectory_insert]
    rfl
  by_cases hsame : other = id
  · have hremoved : stored.remove id other = .removed := if_pos hsame
    rw [hremoved]
    refine ⟨by rw [hasObject_insert]; simp [hsame], ?_⟩
    intro classId
    rw [hasClass, hclasses, if_pos hsame]
    rfl
  · have hkept : stored.remove id other = stored other := if_neg hsame
    have hobject := h other
    rw [hkept]
    unfold ObjectIs at hobject ⊢
    simp only [hasObject_insert, hasClass, fileAt, hclasses, hsame, if_false, decide_false,
      Bool.or_false] at hobject ⊢
    exact hobject

theorem remove (h : tree.Represents stored) (fault : Option FileStep) (id : ObjId) :
    (tree.remove fault id).Represents
      (if tree.removeThrows fault id then stored else stored.remove id) := by
  unfold DirectoryTree.remove
  split
  case isTrue => exact h
  case isFalse => exact h.removed id

theorem cleanUp (fault : Option FileStep) :
    (DirectoryTree.cleanUp fault).Represents StoredMap.cleanUp := by
  intro id
  show (AList.lookup id ∅).isSome = false
  rw [AList.lookup_empty]
  rfl

end Represents

/-- A commit that fails before it has made a directory is not seen. -/
theorem adds_of_clean_failure (hclean : createsBeforeFailing tree writer fault = false)
    (h : tree.replaceLayerFile fault writer.query writer.buffer = .error left) :
    tree.Adds left writer.query false false := by
  obtain ⟨step, rfl, hbytes, hadds⟩ := adds_of_failure h
  have htaken : (decide (step = .write) && writer.buffer.isEmpty) = false := by
    rw [Bool.and_eq_false_iff, decide_eq_false_iff_not, List.isEmpty_eq_false_iff]
    exact imp_iff_not_or.mp hbytes
  unfold createsBeforeFailing at hclean
  dsimp only at hclean
  rw [htaken, Bool.not_false, Bool.true_and, Bool.or_eq_false_iff] at hclean
  obtain ⟨hobject, hclass⟩ := hclean
  refine ⟨?_, ?_, hadds.file⟩
  · intro id
    rw [hadds.hasObject]
    by_cases hid : id = writer.query.id
    · subst hid
      cases hthere : tree.hasObject writer.query.id with
      | true => rfl
      | false =>
          rw [hthere, Bool.not_false, Bool.and_true] at hobject
          simp [hobject]
    · simp [hid]
  · intro id classId
    rw [hadds.hasClass]
    by_cases hboth : id = writer.query.id ∧ classId = writer.query.classId
    · obtain ⟨rfl, rfl⟩ := hboth
      cases hthere : tree.hasClass writer.query.id writer.query.classId with
      | true => rfl
      | false =>
          rw [hthere, Bool.not_false, Bool.and_true] at hclass
          simp [hclass]
    · simp [hboth]

/-- A commit that would make a directory before it fails does fail. -/
theorem fails_of_creates (hcreates : createsBeforeFailing tree writer fault = true) :
    ∃ left, tree.replaceLayerFile fault writer.query writer.buffer = .error left := by
  cases hresult : tree.replaceLayerFile fault writer.query writer.buffer with
  | error left => exact ⟨left, rfl⟩
  | ok next =>
      exfalso
      cases fault with
      | none => cases hcreates
      | some step =>
          unfold createsBeforeFailing at hcreates
          dsimp only at hcreates
          rw [Bool.and_eq_true, Bool.not_eq_true', Bool.and_eq_false_iff, decide_eq_false_iff_not,
            List.isEmpty_eq_false_iff] at hcreates
          obtain ⟨htaken, hcreates⟩ := hcreates
          rcases not_taken_of_replaceLayerFile hresult rfl (imp_iff_not_or.mpr htaken) with
            rfl | rfl | ⟨rfl, hclass⟩
          · cases hcreates
          · cases hcreates
          · have hobject := hasObject_of_hasClass hclass
            simp [hobject, FileStep.afterClass] at hcreates

/-- What a failed commit has made is seen. -/
theorem seen_of_creates (hcreates : createsBeforeFailing tree writer fault = true)
    (h : tree.replaceLayerFile fault writer.query writer.buffer = .error left) :
    ¬ ((∀ query, left.load query = tree.load query) ∧
      ∀ id, left.enumerate id = tree.enumerate id) := by
  rintro ⟨hload, henumerate⟩
  obtain ⟨step, rfl, -, hadds⟩ := adds_of_failure h
  unfold createsBeforeFailing at hcreates
  dsimp only at hcreates
  rw [Bool.and_eq_true, Bool.or_eq_true] at hcreates
  -- a class directory is listed
  have hlisted : step.afterClass = true →
      tree.hasClass writer.query.id writer.query.classId = true := by
    intro hafter
    rw [← mem_enumerate, ← henumerate, mem_enumerate, hadds.hasClass]
    simp [hafter]
  rcases hcreates.2 with hobject | hclass
  · rw [Bool.and_eq_true, Bool.not_eq_true'] at hobject
    obtain ⟨hafter, hmissing⟩ := hobject
    have hnoClass : tree.hasClass writer.query.id writer.query.classId = false :=
      hasClass_of_not_hasObject hmissing
    cases hafterClass : step.afterClass with
    | true =>
        rw [hnoClass] at hlisted
        exact absurd (hlisted hafterClass) (by simp)
    | false =>
        -- the directory of the object is empty, as if the object had been removed
        have hbare : left.load writer.query = .removed := by
          apply load_of_bare
          · rw [hadds.hasObject]
            simp [hafter]
          · intro classId
            rw [hadds.hasClass, hafterClass, hasClass_of_not_hasObject hmissing]
            simp
        rw [hload, load_of_missing hmissing] at hbare
        cases hbare
  · rw [Bool.and_eq_true, Bool.not_eq_true'] at hclass
    rw [hclass.2] at hlisted
    exact absurd (hlisted hclass.1) (by simp)

theorem not_creates_of_present (hpresent : tree.readExistingLayerFile writer.query = some bytes) :
    createsBeforeFailing tree writer fault = false := by
  obtain ⟨hobject, hclass⟩ := directories_of_present hpresent
  cases fault with
  | none => rfl
  | some step => simp [createsBeforeFailing, hclass, hobject]

/-- Other objects are seen as before. -/
structure KeepsOthers (tree next : DirectoryTree) (id : ObjId) : Prop where
  hasObject : ∀ other, other ≠ id → next.hasObject other = tree.hasObject other
  hasClass : ∀ other, other ≠ id → ∀ classId, next.hasClass other classId =
    tree.hasClass other classId
  file : ∀ other, other ≠ id → ∀ classId version, next.fileAt other classId (.version version) =
    tree.fileAt other classId (.version version)

namespace KeepsOthers

variable {id : ObjId}

theorem refl (tree : DirectoryTree) (id : ObjId) : tree.KeepsOthers tree id :=
  ⟨fun _ _ => rfl, fun _ _ _ => rfl, fun _ _ _ _ => rfl⟩

theorem load (h : tree.KeepsOthers next id) (hother : query.id ≠ id) :
    next.load query = tree.load query :=
  load_congr (h.hasObject _ hother) (h.hasClass _ hother) (h.file _ hother _ _)

theorem enumerate (h : tree.KeepsOthers next id) {other : ObjId} (hother : other ≠ id) :
    next.enumerate other = tree.enumerate other :=
  enumerate_congr (h.hasClass other hother)

end KeepsOthers

theorem Adds.keepsOthers {object cls : Bool} (h : tree.Adds next query object cls) :
    tree.KeepsOthers next query.id := by
  refine ⟨?_, ?_, fun other _ classId version => h.file other classId version⟩
  · intro other hother
    rw [h.hasObject]
    simp [hother]
  · intro other hother classId
    rw [h.hasClass]
    simp [hother]

theorem Replaced.keepsOthers (h : tree.Replaced next query bytes) :
    tree.KeepsOthers next query.id := by
  constructor
  case hasObject =>
    intro other hother
    rw [h.hasObject]
    simp [hother]
  case hasClass =>
    intro other hother classId
    rw [h.hasClass]
    simp [hother]
  case file =>
    intro other hother classId version
    rw [h.file, if_neg fun hall => hother hall.1]

theorem keepsOthers_remove (fault : Option FileStep) (id : ObjId) :
    tree.KeepsOthers (tree.remove fault id) id := by
  unfold remove
  split
  case isTrue => exact .refl _ _
  case isFalse =>
    have hclasses : ∀ other, other ≠ id → ∀ classId, classDirectory
        { tree with objects := tree.objects.insert id ∅ } other classId =
          tree.classDirectory other classId := by
      intro other hother classId
      rw [classDirectory_insert, if_neg hother]
    constructor
    case hasObject =>
      intro other hother
      rw [hasObject_insert]
      simp [hother]
    case hasClass =>
      intro other hother classId
      rw [hasClass, hclasses other hother]
      rfl
    case file =>
      intro other hother classId version
      rw [fileAt, hclasses other hother]
      rfl

end DirectoryTree

/-- How a commit ends. -/
inductive LayerCommitted (storage : DirectoryDomainStorage) (fault : Option FileStep)
    (writer : LayerWriter) (closed : DirectoryDomainStorage) : Prop where
  | skipped (outcome : closed.lastLayerCommit = .skippedUnchanged)
      (present : storage.tree.readExistingLayerFile writer.query = some writer.buffer)
      (tree : closed.tree = storage.tree)
  | failed (outcome : closed.lastLayerCommit = .failed)
      (reported : closed.saveSessionHadFailure = true)
      (differs : storage.tree.readExistingLayerFile writer.query ≠ some writer.buffer)
      (left : storage.tree.replaceLayerFile fault writer.query writer.buffer = .error closed.tree)
  | written (outcome : closed.lastLayerCommit = .written)
      (replaced : storage.tree.replaceLayerFile fault writer.query writer.buffer = .ok closed.tree)

theorem layerCommitted (storage : DirectoryDomainStorage) (fault : Option FileStep)
    (writer : LayerWriter) :
    LayerCommitted storage fault writer (storage.commitLayer fault writer) := by
  unfold DirectoryDomainStorage.commitLayer
  split
  case isTrue hpresent => exact .skipped rfl hpresent rfl
  case isFalse hdiffers =>
  split
  case h_1 left hleft =>
    refine .failed rfl ?_ hdiffers hleft
    show (storage.saveSessionHadFailure || decide (LayerCommitOutcome.failed = .failed)) = true
    simp
  case h_2 next hnext => exact .written rfl hnext

namespace StorageRun

variable {run next : StorageRun} {fault : Option FileStep} {writer : LayerWriter}

/-- The storage is what the map says. -/
def IsSound (run : StorageRun) : Prop :=
  run.storage.tree.Represents run.stored

theorem isSound_initial : ({} : StorageRun).IsSound := by
  intro id
  show (AList.lookup id ∅).isSome = false
  rw [AList.lookup_empty]
  rfl

/-- A writer is closed, and a failure is clean. -/
theorem IsSound.close (h : run.IsSound)
    (hclean : createsBeforeFailing run.storage.tree writer fault = false) :
    (run.close fault writer).IsSound := by
  show (run.storage.commitLayer fault writer).tree.Represents
    (if (run.storage.commitLayer fault writer).lastLayerCommit = .failed then run.stored
      else run.stored.put writer.query writer.buffer)
  cases layerCommitted run.storage fault writer with
  | skipped houtcome hpresent htree =>
      rw [houtcome, htree, if_neg (by decide)]
      exact DirectoryTree.Represents.unchanged h hpresent
  | failed houtcome hreported hdiffers hleft =>
      rw [houtcome, if_pos rfl]
      have hadds := DirectoryTree.adds_of_clean_failure hclean hleft
      apply DirectoryTree.Represents.congr h _ _ hadds.file
      · intro id
        rw [hadds.hasObject]
        simp
      · intro id classId
        rw [hadds.hasClass]
        simp
  | written houtcome hreplaced =>
      rw [houtcome, if_neg (by decide)]
      exact DirectoryTree.Represents.replaced h
        (DirectoryTree.replaced_of_replaceLayerFile hreplaced)

theorem IsSound.step (h : run.IsSound) {action : StorageAction}
    (hclean : CommitsCleanly run action) (hstep : run.step action = some next) :
    next.IsSound := by
  cases action with
  | beginSaveSession =>
      cases hstep
      exact h
  | store handle query =>
      simp only [StorageRun.step] at hstep
      split at hstep
      case isTrue => cases hstep
      case isFalse =>
        cases hstep
        exact h
  | write handle bytes =>
      obtain ⟨writer, -, rfl⟩ := Option.map_eq_some_iff.mp hstep
      unfold IsSound DirectoryDomainStorage.recordLayerBytesAccepted
      split
      case isTrue => exact h
      case isFalse => exact h
  | close handle fault =>
      obtain ⟨writer, hwriter, rfl⟩ := Option.map_eq_some_iff.mp hstep
      have hnot : createsBeforeFailing run.storage.tree writer fault = false := by
        unfold CommitsCleanly at hclean
        dsimp only at hclean
        rw [hwriter, Option.all_some, Bool.not_eq_true'] at hclean
        exact hclean
      exact h.close hnot
  | remove id fault =>
      cases hstep
      exact DirectoryTree.Represents.remove h fault id
  | cleanUp fault =>
      cases hstep
      exact DirectoryTree.Represents.cleanUp fault

theorem IsSound.afterRun {actions : List StorageAction} (h : run.IsSound)
    (hclean : EveryStep StorageRun.step CommitsCleanly run actions)
    (hrun : runActions StorageRun.step run actions = some next) : next.IsSound :=
  runActions_invariant IsSound (fun _ _ _ hsound hstep => hsound.step hstep) h hclean hrun

/-- After a commit that did not fail, the written bytes are loaded. -/
theorem IsSound.load_closed (h : run.IsSound)
    (houtcome : (run.storage.commitLayer fault writer).lastLayerCommit ≠ .failed) :
    (run.storage.commitLayer fault writer).tree.load writer.query = .loaded writer.buffer := by
  cases layerCommitted run.storage fault writer with
  | skipped _ hpresent htree =>
      rw [htree, (DirectoryTree.Represents.unchanged h hpresent).load, StoredMap.load_put]
  | failed hfailed => exact absurd hfailed houtcome
  | written _ hreplaced =>
      have hnext := DirectoryTree.Represents.replaced h
        (DirectoryTree.replaced_of_replaceLayerFile hreplaced)
      rw [hnext.load, StoredMap.load_put]

/-- A layer that was skipped is seen as if it had been written. -/
theorem IsSound.skipped_asWritten (h : run.IsSound)
    (houtcome : (run.storage.commitLayer fault writer).lastLayerCommit = .skippedUnchanged)
    {rewritten : DirectoryTree}
    (hrewritten : run.storage.tree.replaceLayerFile none writer.query writer.buffer =
      .ok rewritten) :
    (∀ query, rewritten.load query =
        (run.storage.commitLayer fault writer).tree.load query) ∧
      ∀ id, rewritten.enumerate id =
        (run.storage.commitLayer fault writer).tree.enumerate id := by
  cases layerCommitted run.storage fault writer with
  | failed hfailed =>
      rw [houtcome] at hfailed
      cases hfailed
  | written hwritten =>
      rw [houtcome] at hwritten
      cases hwritten
  | skipped _ hpresent htree =>
      have hkept := DirectoryTree.Represents.unchanged h hpresent
      have hnext := DirectoryTree.Represents.replaced h
        (DirectoryTree.replaced_of_replaceLayerFile hrewritten)
      rw [htree]
      refine ⟨fun query => by rw [hnext.load, hkept.load], ?_⟩
      intro id
      apply DirectoryTree.enumerate_congr
      intro classId
      rw [Bool.eq_iff_iff, hnext.hasClass_iff, hkept.hasClass_iff]

/-- A commit that fails is not seen exactly when it has made no directory. -/
theorem unseen_iff (run : StorageRun) (fault : Option FileStep) (writer : LayerWriter) :
    ((run.storage.commitLayer fault writer).lastLayerCommit = .failed →
      (∀ query, (run.storage.commitLayer fault writer).tree.load query =
          run.storage.tree.load query) ∧
        ∀ id, (run.storage.commitLayer fault writer).tree.enumerate id =
          run.storage.tree.enumerate id) ↔
      createsBeforeFailing run.storage.tree writer fault = false := by
  cases layerCommitted run.storage fault writer with
  | skipped houtcome hpresent _ =>
      rw [houtcome]
      exact iff_of_true (fun hfailed => by cases hfailed)
        (DirectoryTree.not_creates_of_present hpresent)
  | written houtcome hreplaced =>
      rw [houtcome]
      refine iff_of_true (fun hfailed => by cases hfailed) ?_
      by_contra hcreates
      rw [Bool.not_eq_false] at hcreates
      obtain ⟨left, hleft⟩ := DirectoryTree.fails_of_creates hcreates
      rw [hreplaced] at hleft
      cases hleft
  | failed houtcome _ _ hleft =>
      rw [houtcome]
      constructor
      · intro hsame
        by_contra hcreates
        rw [Bool.not_eq_false] at hcreates
        exact DirectoryTree.seen_of_creates hcreates hleft (hsame rfl)
      · intro hclean _
        have hadds := DirectoryTree.adds_of_clean_failure hclean hleft
        have hobject : ∀ id, (run.storage.commitLayer fault writer).tree.hasObject id =
            run.storage.tree.hasObject id := by
          intro id
          rw [hadds.hasObject]
          simp
        have hclass : ∀ id classId,
            (run.storage.commitLayer fault writer).tree.hasClass id classId =
              run.storage.tree.hasClass id classId := by
          intro id classId
          rw [hadds.hasClass]
          simp
        refine ⟨fun query => ?_, fun id => DirectoryTree.enumerate_congr (hclass id)⟩
        exact DirectoryTree.load_congr (hobject _) (hclass _) (hadds.file _ _ _)

/-- A commit touches one object. -/
theorem keepsOthers_commitLayer (run : StorageRun) (fault : Option FileStep)
    (writer : LayerWriter) :
    run.storage.tree.KeepsOthers (run.storage.commitLayer fault writer).tree writer.query.id := by
  cases layerCommitted run.storage fault writer with
  | skipped _ _ htree =>
      rw [htree]
      exact .refl _ _
  | failed _ _ _ hleft =>
      obtain ⟨step, -, -, hadds⟩ := DirectoryTree.adds_of_failure hleft
      exact hadds.keepsOthers
  | written _ hreplaced =>
      exact (DirectoryTree.replaced_of_replaceLayerFile hreplaced).keepsOthers

/-- What a commit does in a state of the storage. -/
structure CommitIsExact (run : StorageRun) (fault : Option FileStep) (writer : LayerWriter) :
    Prop where
  loads : (run.storage.commitLayer fault writer).lastLayerCommit ≠ .failed →
    (run.storage.commitLayer fault writer).tree.load writer.query = .loaded writer.buffer
  skipped : (run.storage.commitLayer fault writer).lastLayerCommit = .skippedUnchanged →
    ∀ rewritten, run.storage.tree.replaceLayerFile none writer.query writer.buffer =
      .ok rewritten →
        (∀ query, rewritten.load query =
            (run.storage.commitLayer fault writer).tree.load query) ∧
          ∀ id, rewritten.enumerate id =
            (run.storage.commitLayer fault writer).tree.enumerate id
  reported : (run.storage.commitLayer fault writer).lastLayerCommit = .failed →
    (run.storage.commitLayer fault writer).saveSessionHadFailure = true
  unseen : ((run.storage.commitLayer fault writer).lastLayerCommit = .failed →
    (∀ query, (run.storage.commitLayer fault writer).tree.load query =
        run.storage.tree.load query) ∧
      ∀ id, (run.storage.commitLayer fault writer).tree.enumerate id =
        run.storage.tree.enumerate id) ↔
    createsBeforeFailing run.storage.tree writer fault = false
  others : ∀ id, id ≠ writer.query.id →
    (∀ classId version, (run.storage.commitLayer fault writer).tree.load ⟨id, classId, version⟩ =
        run.storage.tree.load ⟨id, classId, version⟩) ∧
      (run.storage.commitLayer fault writer).tree.enumerate id = run.storage.tree.enumerate id

theorem IsSound.commitIsExact (h : run.IsSound) (fault : Option FileStep)
    (writer : LayerWriter) : run.CommitIsExact fault writer where
  loads := h.load_closed
  skipped houtcome _ hrewritten := h.skipped_asWritten houtcome hrewritten
  reported houtcome := by
    cases layerCommitted run.storage fault writer with
    | skipped hskipped =>
        rw [houtcome] at hskipped
        cases hskipped
    | failed _ hreported => exact hreported
    | written hwritten =>
        rw [houtcome] at hwritten
        cases hwritten
  unseen := run.unseen_iff fault writer
  others id hother := by
    have hkeeps := run.keepsOthers_commitLayer fault writer
    refine ⟨fun classId version => ?_, hkeeps.enumerate hother⟩
    exact @DirectoryTree.KeepsOthers.load _ _ ⟨id, classId, version⟩ _ hkeeps hother

end StorageRun

/-- In every run whose failed commits make no directory, the storage answers as the map does, and
in every state a commit is seen as it should be, or not at all. -/
theorem directoryStorage_refinesMap {final : StorageRun} {actions : List StorageAction}
    (hclean : EveryStep StorageRun.step CommitsCleanly {} actions)
    (hrun : runActions StorageRun.step {} actions = some final) :
    (∀ query, final.storage.tree.load query = final.stored.load query) ∧
    (∀ id, (final.storage.tree.enumerate id).Nodup ∧
      ∀ classId, classId ∈ final.storage.tree.enumerate id ↔ final.stored.Lists id classId) ∧
    (∀ fault writer, final.CommitIsExact fault writer) ∧
    ∀ fault id other, other ≠ id →
      (∀ classId version, (final.storage.tree.remove fault id).load ⟨other, classId, version⟩ =
        final.storage.tree.load ⟨other, classId, version⟩) ∧
      (final.storage.tree.remove fault id).enumerate other =
        final.storage.tree.enumerate other := by
  have hsound := StorageRun.isSound_initial.afterRun hclean hrun
  refine ⟨hsound.load, ?_, hsound.commitIsExact, ?_⟩
  · intro id
    exact ⟨(DirectoryTree.sorted_enumerate _ _).2, hsound.mem_enumerate_iff id⟩
  · intro fault id other hother
    have hkeeps := @DirectoryTree.keepsOthers_remove final.storage.tree fault id
    exact ⟨fun classId version => @DirectoryTree.KeepsOthers.load _ _ ⟨other, classId, version⟩ id
      hkeeps hother, hkeeps.enumerate hother⟩

/-- A layer of an object. -/
def someLayer : DomainQuery :=
  ⟨⟨7⟩, 3, 0⟩

/-- A layer is written, a new version of it is lost when it is renamed, and another object is
removed. -/
def renamedInVain : List StorageAction :=
  [.beginSaveSession, .store 0 someLayer, .write 0 [1, 2], .close 0 none, .store 1 someLayer,
    .write 1 [5], .close 1 (some .rename), .remove ⟨9⟩ none]

theorem renamedInVain_isUnseen : ∃ final,
    runActions StorageRun.step {} renamedInVain = some final ∧
      final.storage.saveSessionHadFailure = true ∧
      final.storage.tree.load someLayer = final.stored.load someLayer ∧
      final.stored.load someLayer = .loaded [1, 2] := by
  have hseen : (runActions StorageRun.step {} renamedInVain).map (fun final =>
      (final.storage.saveSessionHadFailure, final.stored.load someLayer)) =
        some (true, .loaded [1, 2]) := by
    decide +kernel
  obtain ⟨final, hrun, hfinal⟩ := Option.map_eq_some_iff.mp hseen
  obtain ⟨hfailure, hload⟩ := Prod.mk.inj hfinal
  obtain ⟨hloads, -⟩ := directoryStorage_refinesMap (by decide +kernel) hrun
  exact ⟨final, hrun, hfailure, hloads someLayer, hload⟩

/-- The temporary file of a new layer cannot be opened: its class is listed from then on. -/
theorem failedCommit_isListed : ∃ final,
    runActions StorageRun.step {} [.store 0 someLayer, .write 0 [1]] = some final ∧
      (final.storage.commitLayer (some .openTemporary) ⟨someLayer, [1]⟩).lastLayerCommit =
        .failed ∧
      final.storage.tree.enumerate ⟨7⟩ = [] ∧
      (final.storage.commitLayer (some .openTemporary) ⟨someLayer, [1]⟩).tree.enumerate ⟨7⟩ =
        [3] := by
  refine ⟨_, rfl, ?_, ?_, ?_⟩
  · decide +kernel
  · decide +kernel
  · decide +kernel

end AppTraverse
