import Mathlib.Data.List.AList
import AppTraverse.Journal.Identity

/-!
# ModelRuntime: which Nodes are published to which presentation roots

`ModelRuntime` maps objects to presentation roots, collects the Nodes that changed for
each root, and publishes them when the root's channel is free.  A Node is named by its
`ObjId`, which is unique in the Domain of the application.  What a publication holds of
a Node is not modelled; neither is `InitializeRuntimeNode`, which `AttachNode` calls for
a new Node before the notifier is bound.
-/

namespace AppTraverse

/-- The publication channels of `UiMirror`: the roots with an unread publication, and what
was published, oldest first. -/
structure UiMirror where
  unread : List ObjId := []
  published : List (ObjId × List ObjId) := []
  deriving DecidableEq, Repr

/-- `UiMirror::Publish`. -/
def UiMirror.publish (mirror : UiMirror) (root : ObjId) (changed : List ObjId) :
    UiMirror × Bool :=
  if changed.isEmpty then
    (mirror, true)
  else if root ∈ mirror.unread then
    (mirror, false)
  else
    ({ unread := mirror.unread ++ [root]
       published := mirror.published ++ [(root, changed)] }, true)

/-- `PublicationChannel::TakePublished` of a root: the GUI has read it. -/
def UiMirror.takePublished (mirror : UiMirror) (root : ObjId) : UiMirror :=
  { mirror with unread := mirror.unread.filter fun other => decide (other ≠ root) }

/-- `ModelRuntime`.  `bound` holds the Nodes whose materialized-change notifier is this
runtime. -/
structure ModelRuntime where
  modelNodes : List ObjId
  objectToRoots : AList fun _ : ObjId => List ObjId
  pendingByRoot : AList fun _ : ObjId => List ObjId
  bound : List ObjId
  uiMirror : UiMirror
  deriving DecidableEq

namespace ModelRuntime

variable (runtime : ModelRuntime)

/-- The constructor: the Nodes reachable from the application root are executed, and
nothing is mapped. -/
def new (reachable : List ObjId) (uiMirror : UiMirror) : ModelRuntime where
  modelNodes := reachable
  objectToRoots := ∅
  pendingByRoot := ∅
  bound := []
  uiMirror := uiMirror

/-- The presentation roots of an object. -/
def rootsOf (object : ObjId) : List ObjId := (runtime.objectToRoots.lookup object).getD []

/-- The Nodes that wait for a publication to a root. -/
def pendingOf (root : ObjId) : List ObjId := (runtime.pendingByRoot.lookup root).getD []

/-- `ModelRuntime::HasPending`. -/
def hasPending (root : ObjId) : Bool := !(runtime.pendingOf root).isEmpty

/-- `ModelRuntime::IsInExecutionList`. -/
def isInExecutionList (node : ObjId) : Bool := decide (node ∈ runtime.modelNodes)

/-- `ModelRuntime::IsMappedToPresentationRoot`. -/
def isMappedToPresentationRoot (node root : ObjId) : Bool :=
  decide (root ∈ runtime.rootsOf node)

/-- One `push_back` of `AddPresentationRoot`. -/
def pushRoot (root object : ObjId) : ModelRuntime :=
  { runtime with
    objectToRoots := runtime.objectToRoots.insert object (runtime.rootsOf object ++ [root]) }

/-- `ModelRuntime::AddPresentationRoot`, given the objects reachable from the root. -/
def addPresentationRoot (root : ObjId) (objects : List ObjId) : ModelRuntime :=
  objects.foldl (fun runtime object => runtime.pushRoot root object) runtime

/-- `ModelRuntime::AttachNode`. -/
def attachNode (node presentationRoot : ObjId) : ModelRuntime :=
  { runtime with
    bound := runtime.bound.insert node
    modelNodes :=
      if node ∈ runtime.modelNodes then runtime.modelNodes else runtime.modelNodes ++ [node]
    objectToRoots := runtime.objectToRoots.insert node
      (if presentationRoot ∈ runtime.rootsOf node then
        runtime.rootsOf node
      else
        runtime.rootsOf node ++ [presentationRoot]) }

/-- The first part of `DetachNode`: the pending entry for this root. -/
def dropPending (node root : ObjId) : AList fun _ : ObjId => List ObjId :=
  match runtime.pendingByRoot.lookup root with
  | none => runtime.pendingByRoot
  | some pending =>
      let left := pending.filter fun other => decide (other ≠ node)
      if left.isEmpty then
        runtime.pendingByRoot.erase root
      else
        runtime.pendingByRoot.insert root left

/-- `ModelRuntime::DetachNode`.  It dereferences the mapping of the Node, so there must
be one. -/
def detachNode (node presentationRoot : ObjId) : Option ModelRuntime :=
  match runtime.objectToRoots.lookup node with
  | none => none
  | some roots =>
      let left := roots.filter fun other => decide (other ≠ presentationRoot)
      if left.isEmpty then
        some { runtime with
          pendingByRoot := runtime.dropPending node presentationRoot
          objectToRoots := runtime.objectToRoots.erase node
          modelNodes := runtime.modelNodes.filter fun other => decide (other ≠ node)
          bound := runtime.bound.filter fun other => decide (other ≠ node) }
      else
        some { runtime with
          pendingByRoot := runtime.dropPending node presentationRoot
          objectToRoots := runtime.objectToRoots.insert node left }

/-- One insertion of `OnMaterializedChange`. -/
def notePending (node root : ObjId) : ModelRuntime :=
  { runtime with
    pendingByRoot := runtime.pendingByRoot.insert root ((runtime.pendingOf root).insert node) }

/-- `ModelRuntime::OnMaterializedChange`. -/
def onMaterializedChange (node : ObjId) : ModelRuntime :=
  (runtime.rootsOf node).foldl (fun runtime root => runtime.notePending node root) runtime

/-- A materialized change of a Node reaches the runtime through the notifier. -/
def materializedChange (node : ObjId) : ModelRuntime :=
  if node ∈ runtime.bound then runtime.onMaterializedChange node else runtime

/-- `ModelRuntime::BindAllModelNodeNotifiers`, called by `Start` and `PumpOnce`. -/
def bindAllModelNodeNotifiers : ModelRuntime :=
  { runtime with bound := runtime.bound ∪ runtime.modelNodes }

/-- One round of the loop of `PublishChanged`. -/
def publishRoot (root : ObjId) : ModelRuntime :=
  match runtime.pendingByRoot.lookup root with
  | none => runtime
  | some changed =>
      let (uiMirror, published) := runtime.uiMirror.publish root changed
      if published then
        { runtime with
          pendingByRoot := runtime.pendingByRoot.erase root
          uiMirror := uiMirror }
      else
        { runtime with uiMirror := uiMirror }

/-- `ModelRuntime::PublishChanged`. -/
def publishChanged : ModelRuntime :=
  runtime.pendingByRoot.keys.foldl publishRoot runtime

section Mapping

variable {runtime}

theorem rootsOf_pushRoot {root object other : ObjId} :
    (runtime.pushRoot root object).rootsOf other =
      if other = object then runtime.rootsOf object ++ [root] else runtime.rootsOf other := by
  by_cases hsame : other = object
  · subst hsame
    simp [rootsOf, pushRoot, AList.lookup_insert]
  · rw [if_neg hsame]
    simp [rootsOf, pushRoot, AList.lookup_insert_ne hsame]

/-- Adding a root maps its objects to it, and leaves the rest as it is. -/
theorem mem_rootsOf_addPresentationRoot {root object other : ObjId} {objects : List ObjId} :
    other ∈ (runtime.addPresentationRoot root objects).rootsOf object ↔
      other ∈ runtime.rootsOf object ∨ (other = root ∧ object ∈ objects) := by
  induction objects generalizing runtime with
  | nil => simp [addPresentationRoot]
  | cons head tail ih =>
      rw [addPresentationRoot, List.foldl_cons]
      have htail := @ih (runtime.pushRoot root head)
      rw [addPresentationRoot] at htail
      rw [htail, rootsOf_pushRoot]
      by_cases hsame : object = head
      · subst hsame
        simp only [if_true, List.mem_append, List.mem_cons, true_or, and_true]
        tauto
      · simp [hsame]

theorem addPresentationRoot_keeps (root : ObjId) (objects : List ObjId) :
    (runtime.addPresentationRoot root objects).pendingByRoot = runtime.pendingByRoot ∧
      (runtime.addPresentationRoot root objects).bound = runtime.bound := by
  induction objects generalizing runtime with
  | nil => exact ⟨rfl, rfl⟩
  | cons head tail ih => exact @ih (runtime.pushRoot root head)

theorem mem_rootsOf_attachNode {node root other object : ObjId} :
    other ∈ (runtime.attachNode node root).rootsOf object ↔
      other ∈ runtime.rootsOf object ∨ (other = root ∧ object = node) := by
  by_cases hsame : object = node
  · subst hsame
    have hroots : (runtime.attachNode object root).rootsOf object =
        if root ∈ runtime.rootsOf object then runtime.rootsOf object
        else runtime.rootsOf object ++ [root] := by
      simp [rootsOf, attachNode, AList.lookup_insert]
    rw [hroots]
    by_cases hmapped : root ∈ runtime.rootsOf object
    · rw [if_pos hmapped]
      constructor
      · exact Or.inl
      · rintro (hother | ⟨rfl, -⟩)
        · exact hother
        · exact hmapped
    · rw [if_neg hmapped]
      simp
  · have hroots : (runtime.attachNode node root).rootsOf object = runtime.rootsOf object := by
      simp [rootsOf, attachNode, AList.lookup_insert_ne hsame]
    rw [hroots]
    simp [hsame]

/-- What remains pending after `DetachNode` dropped its entry. -/
theorem getD_dropPending {node root other : ObjId} :
    ((runtime.dropPending node root).lookup other).getD [] =
      if other = root then (runtime.pendingOf root).filter fun entry => decide (entry ≠ node)
      else runtime.pendingOf other := by
  unfold dropPending pendingOf
  cases hlookup : runtime.pendingByRoot.lookup root with
  | none =>
      by_cases hsame : other = root
      · subst hsame
        simp [hlookup]
      · simp [hsame]
  | some pending =>
      simp only
      by_cases hsame : other = root
      · subst hsame
        rw [if_pos rfl, Option.getD_some]
        split
        case isTrue hempty =>
          rw [AList.lookup_erase]
          exact (List.isEmpty_iff.mp hempty).symm
        case isFalse => rw [AList.lookup_insert, Option.getD_some]
      · rw [if_neg hsame]
        split
        · rw [AList.lookup_erase_ne hsame]
        · rw [AList.lookup_insert_ne hsame]

/-- Everything that `DetachNode` does to a Node that is mapped. -/
structure Detached (runtime next : ModelRuntime) (node root : ObjId) : Prop where
  roots : ∀ object, next.rootsOf object =
    if object = node then (runtime.rootsOf node).filter fun other => decide (other ≠ root)
    else runtime.rootsOf object
  pending : ∀ other, next.pendingOf other =
    if other = root then (runtime.pendingOf root).filter fun entry => decide (entry ≠ node)
    else runtime.pendingOf other
  bound : ∀ object, object ∈ next.bound ↔
    object ∈ runtime.bound ∧ (object = node → next.rootsOf node ≠ [])
  uiMirror : next.uiMirror = runtime.uiMirror

theorem detached_of_detachNode {next : ModelRuntime} {node root : ObjId}
    (h : runtime.detachNode node root = some next) : runtime.Detached next node root := by
  unfold detachNode at h
  cases hlookup : runtime.objectToRoots.lookup node with
  | none =>
      rw [hlookup] at h
      cases h
  | some roots =>
      have hroots : runtime.rootsOf node = roots := by simp [rootsOf, hlookup]
      simp only [hlookup] at h
      split at h
      case isTrue hempty =>
        cases h
        have hall : ∀ object, (({ runtime with
            pendingByRoot := runtime.dropPending node root
            objectToRoots := runtime.objectToRoots.erase node
            modelNodes := runtime.modelNodes.filter fun other => decide (other ≠ node)
            bound := runtime.bound.filter fun other => decide (other ≠ node) } :
            ModelRuntime)).rootsOf object =
              if object = node then roots.filter fun other => decide (other ≠ root)
              else runtime.rootsOf object := by
          intro object
          by_cases hsame : object = node
          · subst hsame
            rw [if_pos rfl, List.isEmpty_iff.mp hempty]
            simp [rootsOf, AList.lookup_erase]
          · rw [if_neg hsame]
            simp [rootsOf, AList.lookup_erase_ne hsame]
        refine ⟨by rw [hroots]; exact hall, fun _ => getD_dropPending, ?_, rfl⟩
        intro object
        rw [hall, if_pos rfl, List.isEmpty_iff.mp hempty]
        simp
      case isFalse hmore =>
        cases h
        have hall : ∀ object, (({ runtime with
            pendingByRoot := runtime.dropPending node root
            objectToRoots := runtime.objectToRoots.insert node
              (roots.filter fun other => decide (other ≠ root)) } :
            ModelRuntime)).rootsOf object =
              if object = node then roots.filter fun other => decide (other ≠ root)
              else runtime.rootsOf object := by
          intro object
          by_cases hsame : object = node
          · subst hsame
            simp [rootsOf, AList.lookup_insert]
          · rw [if_neg hsame]
            simp [rootsOf, AList.lookup_insert_ne hsame]
        refine ⟨by rw [hroots]; exact hall, fun _ => getD_dropPending, ?_, rfl⟩
        intro object
        rw [hall, if_pos rfl]
        have hsome : roots.filter (fun other => decide (other ≠ root)) ≠ [] := by
          intro hnone
          exact hmore (List.isEmpty_iff.mpr hnone)
        simp only [ne_eq, hsome, not_false_eq_true, implies_true, and_true]

end Mapping

section Pending

variable {runtime}

theorem pendingOf_notePending {node root other : ObjId} :
    (runtime.notePending node root).pendingOf other =
      if other = root then (runtime.pendingOf root).insert node
      else runtime.pendingOf other := by
  by_cases hsame : other = root
  · subst hsame
    simp [pendingOf, notePending, AList.lookup_insert]
  · rw [if_neg hsame]
    simp [pendingOf, notePending, AList.lookup_insert_ne hsame]

theorem onMaterializedChange_run (node : ObjId) (roots : List ObjId) :
    (∀ root entry,
      entry ∈ (roots.foldl (fun runtime root => runtime.notePending node root)
        runtime).pendingOf root ↔
          entry ∈ runtime.pendingOf root ∨ (entry = node ∧ root ∈ roots)) ∧
      (roots.foldl (fun runtime root => runtime.notePending node root)
        runtime).objectToRoots = runtime.objectToRoots ∧
      (roots.foldl (fun runtime root => runtime.notePending node root) runtime).bound =
        runtime.bound ∧
      (roots.foldl (fun runtime root => runtime.notePending node root) runtime).uiMirror =
        runtime.uiMirror := by
  induction roots generalizing runtime with
  | nil => simp
  | cons head tail ih =>
      rw [List.foldl_cons]
      obtain ⟨hpending, hroots, hbound, hmirror⟩ := @ih (runtime.notePending node head)
      refine ⟨?_, hroots, hbound, hmirror⟩
      intro root entry
      rw [hpending, pendingOf_notePending]
      by_cases hsame : root = head
      · subst hsame
        simp
        tauto
      · simp [hsame]

/-- A change puts the Node into the pending set of each of its roots. -/
theorem mem_pendingOf_onMaterializedChange {node root entry : ObjId} :
    entry ∈ (runtime.onMaterializedChange node).pendingOf root ↔
      entry ∈ runtime.pendingOf root ∨ (entry = node ∧ root ∈ runtime.rootsOf node) :=
  (onMaterializedChange_run node (runtime.rootsOf node)).1 root entry

theorem materializedChange_keeps (node : ObjId) :
    (runtime.materializedChange node).objectToRoots = runtime.objectToRoots ∧
      (runtime.materializedChange node).bound = runtime.bound ∧
      (runtime.materializedChange node).uiMirror = runtime.uiMirror := by
  unfold materializedChange
  split
  · exact (onMaterializedChange_run node (runtime.rootsOf node)).2
  · exact ⟨rfl, rfl, rfl⟩

end Pending

section Publication

variable {runtime}

/-- The channel of a root is free: its last publication was read. -/
def IsFree (runtime : ModelRuntime) (root : ObjId) : Prop := root ∉ runtime.uiMirror.unread

instance (runtime : ModelRuntime) (root : ObjId) : Decidable (runtime.IsFree root) :=
  inferInstanceAs (Decidable (¬ _))

/-- What a round of the loop does to one root, and that it leaves the others alone. -/
structure RootPublished (runtime next : ModelRuntime) (root : ObjId) : Prop where
  roots : next.objectToRoots = runtime.objectToRoots
  bound : next.bound = runtime.bound
  pending : ∀ other, next.pendingOf other =
    if other = root ∧ runtime.IsFree root then [] else runtime.pendingOf other
  free : ∀ other, other ≠ root → (next.IsFree other ↔ runtime.IsFree other)
  published : next.uiMirror.published = runtime.uiMirror.published ++
    if runtime.IsFree root ∧ runtime.pendingOf root ≠ [] then [(root, runtime.pendingOf root)]
    else []

theorem pendingOf_erase (root other : ObjId) :
    ((runtime.pendingByRoot.erase root).lookup other).getD [] =
      if other = root then [] else runtime.pendingOf other := by
  by_cases hsame : other = root
  · subst hsame
    simp [AList.lookup_erase]
  · rw [if_neg hsame, AList.lookup_erase_ne hsame]
    rfl

/-- A round with nothing pending publishes nothing. -/
theorem publishRoot_of_none {root : ObjId} (h : runtime.pendingOf root = []) :
    runtime.RootPublished (runtime.publishRoot root) root := by
  unfold publishRoot
  cases hlookup : runtime.pendingByRoot.lookup root with
  | none =>
      refine ⟨rfl, rfl, ?_, fun _ _ => Iff.rfl, by simp [h]⟩
      intro other
      show runtime.pendingOf other = _
      split
      case isTrue hsame =>
        rw [hsame.1]
        exact h
      case isFalse => rfl
  | some changed =>
      have hempty : changed = [] := by simpa [pendingOf, hlookup] using h
      subst hempty
      refine ⟨rfl, rfl, ?_, fun _ _ => Iff.rfl, by simp [h, UiMirror.publish]⟩
      intro other
      show ((runtime.pendingByRoot.erase root).lookup other).getD [] = _
      rw [pendingOf_erase]
      by_cases hsame : other = root
      · subst hsame
        simp [h]
      · simp [hsame]

/-- A round whose channel has an unread publication changes nothing. -/
theorem publishRoot_of_unread {root : ObjId} (hpending : runtime.pendingOf root ≠ [])
    (hunread : ¬ runtime.IsFree root) : runtime.publishRoot root = runtime := by
  unfold publishRoot
  cases hlookup : runtime.pendingByRoot.lookup root with
  | none => rfl
  | some changed =>
      have hsome : changed ≠ [] := by simpa [pendingOf, hlookup] using hpending
      have hmem : root ∈ runtime.uiMirror.unread := not_not.mp hunread
      simp [UiMirror.publish, hsome, hmem]

/-- A round whose channel is free publishes what is pending. -/
theorem publishRoot_of_free {root : ObjId} (hpending : runtime.pendingOf root ≠ [])
    (hfree : runtime.IsFree root) :
    runtime.publishRoot root = { runtime with
      pendingByRoot := runtime.pendingByRoot.erase root
      uiMirror := {
        unread := runtime.uiMirror.unread ++ [root]
        published := runtime.uiMirror.published ++ [(root, runtime.pendingOf root)] } } := by
  unfold publishRoot
  cases hlookup : runtime.pendingByRoot.lookup root with
  | none => simp [pendingOf, hlookup] at hpending
  | some changed =>
      have hsome : changed ≠ [] := by simpa [pendingOf, hlookup] using hpending
      have hmem : root ∉ runtime.uiMirror.unread := hfree
      simp [UiMirror.publish, hsome, hmem, pendingOf, hlookup]

theorem rootPublished_publishRoot (root : ObjId) :
    runtime.RootPublished (runtime.publishRoot root) root := by
  by_cases hpending : runtime.pendingOf root = []
  · exact publishRoot_of_none hpending
  by_cases hfree : runtime.IsFree root
  · rw [publishRoot_of_free hpending hfree]
    refine ⟨rfl, rfl, ?_, ?_, by simp [hfree, hpending]⟩
    · intro other
      show ((runtime.pendingByRoot.erase root).lookup other).getD [] = _
      rw [pendingOf_erase]
      simp [hfree]
    · intro other hother
      simp [IsFree, hother]
  · rw [publishRoot_of_unread hpending hfree]
    exact ⟨rfl, rfl, fun other => by simp [hfree], fun _ _ => Iff.rfl, by simp [hfree]⟩

/-- What a list of rounds publishes. -/
def publicationsOf (runtime : ModelRuntime) (roots : List ObjId) :
    List (ObjId × List ObjId) :=
  (roots.filter fun root => decide (runtime.IsFree root ∧ runtime.pendingOf root ≠ [])).map
    fun root => (root, runtime.pendingOf root)

/-- The run lemma of the loop: each root of the list is treated once, as it was at the
start. -/
theorem publishRoots_run {roots : List ObjId} (hnodup : roots.Nodup) :
    (roots.foldl publishRoot runtime).objectToRoots = runtime.objectToRoots ∧
      (roots.foldl publishRoot runtime).bound = runtime.bound ∧
      (∀ other, (roots.foldl publishRoot runtime).pendingOf other =
        if other ∈ roots ∧ runtime.IsFree other then [] else runtime.pendingOf other) ∧
      (roots.foldl publishRoot runtime).uiMirror.published =
        runtime.uiMirror.published ++ runtime.publicationsOf roots := by
  induction roots generalizing runtime with
  | nil => simp [publicationsOf]
  | cons head tail ih =>
      obtain ⟨hhead, htail⟩ := List.nodup_cons.mp hnodup
      have hround := @rootPublished_publishRoot runtime head
      obtain ⟨hroots, hbound, hpending, hpublished⟩ :=
        @ih (runtime.publishRoot head) htail
      rw [List.foldl_cons]
      refine ⟨hroots.trans hround.roots, hbound.trans hround.bound, ?_, ?_⟩
      · intro other
        rw [hpending, hround.pending]
        by_cases hsame : other = head
        · subst hsame
          simp [hhead]
        · simp [hround.free other hsame, hsame]
      · -- The later rounds find their roots as they were.
        have hlater : (runtime.publishRoot head).publicationsOf tail =
            runtime.publicationsOf tail := by
          have hkept : ∀ root ∈ tail, (runtime.publishRoot head).pendingOf root =
              runtime.pendingOf root := by
            intro root hroot
            rw [hround.pending, if_neg]
            rintro ⟨rfl, -⟩
            exact hhead hroot
          have hfree : ∀ root ∈ tail,
              ((runtime.publishRoot head).IsFree root ↔ runtime.IsFree root) := by
            intro root hroot
            refine hround.free root ?_
            rintro rfl
            exact hhead hroot
          unfold publicationsOf
          rw [List.filter_congr (q := fun root =>
            decide (runtime.IsFree root ∧ runtime.pendingOf root ≠ [])) ?_]
          · refine List.map_congr_left ?_
            intro root hroot
            rw [hkept root (List.mem_filter.mp hroot).1]
          · intro root hroot
            rw [hkept root hroot]
            simp only [hfree root hroot]
        rw [hpublished, hround.published, hlater, List.append_assoc]
        congr 1
        unfold publicationsOf
        rw [List.filter_cons]
        split <;> split <;> simp_all

/-- `PublishChanged` empties the pending set of every root whose channel is free into a
publication, and leaves the sets of the other roots as they were. -/
theorem publishChanged_spec (runtime : ModelRuntime) :
    runtime.publishChanged.objectToRoots = runtime.objectToRoots ∧
      runtime.publishChanged.bound = runtime.bound ∧
      (∀ root, runtime.publishChanged.pendingOf root =
        if runtime.IsFree root then [] else runtime.pendingOf root) ∧
      runtime.publishChanged.uiMirror.published =
        runtime.uiMirror.published ++ runtime.publicationsOf runtime.pendingByRoot.keys := by
  obtain ⟨hroots, hbound, hpending, hpublished⟩ :=
    @publishRoots_run runtime _ (AList.keys_nodup runtime.pendingByRoot)
  refine ⟨hroots, hbound, ?_, hpublished⟩
  intro root
  rw [publishChanged, hpending]
  by_cases hkey : root ∈ runtime.pendingByRoot.keys
  · simp [hkey]
  · have hnone : runtime.pendingOf root = [] := by
      have hlookup : runtime.pendingByRoot.lookup root = none :=
        AList.lookup_eq_none.mpr hkey
      simp [pendingOf, hlookup]
    simp [hkey, hnone]

/-- What was pending for a free root is in a publication of it. -/
theorem mem_publicationsOf {root entry : ObjId} (hfree : runtime.IsFree root)
    (hpending : entry ∈ runtime.pendingOf root) :
    (root, runtime.pendingOf root) ∈ runtime.publicationsOf runtime.pendingByRoot.keys := by
  have hkey : root ∈ runtime.pendingByRoot.keys := by
    by_contra hmissing
    have hlookup : runtime.pendingByRoot.lookup root = none :=
      AList.lookup_eq_none.mpr hmissing
    rw [pendingOf, hlookup] at hpending
    cases hpending
  refine List.mem_map.mpr ⟨root, List.mem_filter.mpr ⟨hkey, ?_⟩, rfl⟩
  exact decide_eq_true ⟨hfree, List.ne_nil_of_mem hpending⟩

end Publication

end ModelRuntime

end AppTraverse
