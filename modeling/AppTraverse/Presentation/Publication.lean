import AppTraverse.Foundations.TransitionSystem
import AppTraverse.Presentation.ModelRuntime

/-!
# No change of an attached Node is lost on its way to the GUI

A run of the runtime is watched from outside: which Nodes were attached to which roots,
and which changes each root is still owed.  A root is owed a change from the moment a
Node that is mapped to it changes until a publication of the root holds the Node, or the
Node is detached from the root.  The pending sets are where the runtime keeps these debts.
-/

namespace AppTraverse

open Foundations

/-- The calls of `ModelRuntime`, the changes of its Nodes, and the GUI that reads. -/
inductive RuntimeCall where
  | addPresentationRoot (root : ObjId) (objects : List ObjId)
  | attachNode (node presentationRoot : ObjId)
  | detachNode (node presentationRoot : ObjId)
  | materializedChange (node : ObjId)
  | bindAllModelNodeNotifiers
  | publishChanged
  | takePublished (root : ObjId)
  deriving DecidableEq, Repr

namespace ModelRuntime

def call (runtime : ModelRuntime) : RuntimeCall → Option ModelRuntime
  | .addPresentationRoot root objects => some (runtime.addPresentationRoot root objects)
  | .attachNode node presentationRoot => some (runtime.attachNode node presentationRoot)
  | .detachNode node presentationRoot => runtime.detachNode node presentationRoot
  | .materializedChange node => some (runtime.materializedChange node)
  | .bindAllModelNodeNotifiers => some runtime.bindAllModelNodeNotifiers
  | .publishChanged => some runtime.publishChanged
  | .takePublished root =>
      some { runtime with uiMirror := runtime.uiMirror.takePublished root }

/-- The publications that `PublishChanged` makes. -/
def newPublications (runtime : ModelRuntime) : List (ObjId × List ObjId) :=
  runtime.publishChanged.uiMirror.published.drop runtime.uiMirror.published.length

end ModelRuntime

/-- A root, and a Node whose change it waits for. -/
structure Debt where
  root : ObjId
  node : ObjId
  deriving DecidableEq, Repr

/-- The debts after a call.  `detachmentEnds` says whether a detachment ends them. -/
def debtsAfter (detachmentEnds : Bool) (runtime : ModelRuntime) (debts : List Debt) :
    RuntimeCall → List Debt
  | .materializedChange node => debts ++ (runtime.rootsOf node).map fun root => ⟨root, node⟩
  | .publishChanged => debts.filter fun debt =>
      !runtime.newPublications.any fun publication =>
        decide (publication.1 = debt.root) && decide (debt.node ∈ publication.2)
  | .detachNode node presentationRoot =>
      if detachmentEnds then
        debts.filter fun debt => decide (debt ≠ ⟨presentationRoot, node⟩)
      else
        debts
  | _ => debts

/-- The pairs of a Node and the root that `AttachNode` attached it to. -/
def attachmentsAfter (attached : List (ObjId × ObjId)) : RuntimeCall → List (ObjId × ObjId)
  | .attachNode node presentationRoot => (node, presentationRoot) :: attached
  | .detachNode node presentationRoot =>
      attached.filter fun pair => decide (pair ≠ (node, presentationRoot))
  | _ => attached

/-- A runtime with what an observer knows of its history. -/
structure Watched where
  runtime : ModelRuntime
  attached : List (ObjId × ObjId) := []
  debts : List Debt := []
  deriving DecidableEq

def watchedStep (detachmentEnds : Bool) (watched : Watched) (call : RuntimeCall) :
    Option Watched :=
  (watched.runtime.call call).map fun next =>
    { runtime := next
      attached := attachmentsAfter watched.attached call
      debts := debtsAfter detachmentEnds watched.runtime watched.debts call }

/-- Detached is a Node that is mapped to the root, and the Node that changes is attached. -/
def CallAllowed (watched : Watched) : RuntimeCall → Prop
  | .detachNode node presentationRoot =>
      watched.runtime.isMappedToPresentationRoot node presentationRoot = true
  | .materializedChange node => ∃ pair ∈ watched.attached, pair.1 = node
  | _ => True

instance (watched : Watched) (call : RuntimeCall) : Decidable (CallAllowed watched call) := by
  cases call <;> unfold CallAllowed <;> infer_instance

/-- What ties the four structures together: debts are pending, what is pending is mapped,
and an attached Node is mapped and bound. -/
structure Watched.Sound (watched : Watched) : Prop where
  owed : ∀ debt ∈ watched.debts, debt.node ∈ watched.runtime.pendingOf debt.root
  mapped : ∀ root node, node ∈ watched.runtime.pendingOf root →
    root ∈ watched.runtime.rootsOf node
  attachedMapped : ∀ pair ∈ watched.attached, pair.2 ∈ watched.runtime.rootsOf pair.1
  attachedBound : ∀ pair ∈ watched.attached, pair.1 ∈ watched.runtime.bound

theorem watched_new_sound (reachable : List ObjId) (uiMirror : UiMirror) :
    (Watched.mk (ModelRuntime.new reachable uiMirror) [] []).Sound where
  owed := by simp
  mapped := by simp [ModelRuntime.new, ModelRuntime.pendingOf]
  attachedMapped := by simp
  attachedBound := by simp

theorem newPublications_eq (runtime : ModelRuntime) :
    runtime.newPublications = runtime.publicationsOf runtime.pendingByRoot.keys := by
  rw [ModelRuntime.newPublications, (runtime.publishChanged_spec).2.2.2, List.drop_left]

namespace Watched.Sound

variable {watched next : Watched}

theorem attachNode (h : watched.Sound) {node presentationRoot : ObjId}
    (hstep : watchedStep true watched (.attachNode node presentationRoot) = some next) :
    next.Sound := by
  cases hstep
  refine ⟨h.owed, ?_, ?_, ?_⟩
  · intro root other hpending
    exact ModelRuntime.mem_rootsOf_attachNode.mpr (Or.inl (h.mapped root other hpending))
  · intro pair hpair
    show pair.2 ∈ (watched.runtime.attachNode node presentationRoot).rootsOf pair.1
    rw [ModelRuntime.mem_rootsOf_attachNode]
    rcases List.mem_cons.mp hpair with rfl | hold
    · exact Or.inr ⟨rfl, rfl⟩
    · exact Or.inl (h.attachedMapped pair hold)
  · intro pair hpair
    show pair.1 ∈ watched.runtime.bound.insert node
    rw [List.mem_insert_iff]
    rcases List.mem_cons.mp hpair with rfl | hold
    · exact Or.inl rfl
    · exact Or.inr (h.attachedBound pair hold)

/-- After a detachment the Node is pending for, mapped to and bound for the other roots. -/
theorem detachNode (h : watched.Sound) {node presentationRoot : ObjId}
    (hstep : watchedStep true watched (.detachNode node presentationRoot) = some next) :
    next.Sound := by
  obtain ⟨runtime, hruntime, rfl⟩ := Option.map_eq_some_iff.mp hstep
  have hdetached := ModelRuntime.detached_of_detachNode hruntime
  have hroots : ∀ root object, root ∈ runtime.rootsOf object ↔
      root ∈ watched.runtime.rootsOf object ∧ ¬ (object = node ∧ root = presentationRoot) := by
    intro root object
    rw [hdetached.roots]
    by_cases hsame : object = node
    · subst hsame
      simp
    · simp [hsame]
  have hpending : ∀ root entry, entry ∈ runtime.pendingOf root ↔
      entry ∈ watched.runtime.pendingOf root ∧ ¬ (entry = node ∧ root = presentationRoot) := by
    intro root entry
    rw [hdetached.pending]
    by_cases hsame : root = presentationRoot
    · subst hsame
      simp
    · simp [hsame]
  have hattached : ∀ pair : ObjId × ObjId,
      pair ∈ attachmentsAfter watched.attached (.detachNode node presentationRoot) →
      pair ∈ watched.attached ∧ ¬ (pair.1 = node ∧ pair.2 = presentationRoot) := by
    intro pair hpair
    obtain ⟨hold, hother⟩ := List.mem_filter.mp hpair
    refine ⟨hold, ?_⟩
    rintro ⟨rfl, rfl⟩
    exact of_decide_eq_true hother rfl
  refine ⟨?_, ?_, ?_, ?_⟩
  · intro debt hdebt
    obtain ⟨hold, hother⟩ := List.mem_filter.mp hdebt
    refine (hpending debt.root debt.node).mpr ⟨h.owed debt hold, ?_⟩
    rintro ⟨rfl, rfl⟩
    exact of_decide_eq_true hother rfl
  · intro root entry hentry
    obtain ⟨hold, hother⟩ := (hpending root entry).mp hentry
    exact (hroots root entry).mpr ⟨h.mapped root entry hold, hother⟩
  · intro pair hpair
    obtain ⟨hold, hother⟩ := hattached pair hpair
    exact (hroots pair.2 pair.1).mpr ⟨h.attachedMapped pair hold, hother⟩
  · intro pair hpair
    obtain ⟨hold, hother⟩ := hattached pair hpair
    refine (hdetached.bound pair.1).mpr ⟨h.attachedBound pair hold, ?_⟩
    -- The pair itself is a mapping that is left.
    intro hnode
    have hleft := (hroots pair.2 pair.1).mpr ⟨h.attachedMapped pair hold, hother⟩
    rw [hnode] at hleft
    exact List.ne_nil_of_mem hleft

theorem materializedChange (h : watched.Sound) {node : ObjId}
    (hattached : ∃ pair ∈ watched.attached, pair.1 = node)
    (hstep : watchedStep true watched (.materializedChange node) = some next) :
    next.Sound := by
  obtain ⟨pair, hpair, rfl⟩ := hattached
  have hbound : pair.1 ∈ watched.runtime.bound := h.attachedBound pair hpair
  have hchange : watched.runtime.materializedChange pair.1 =
      watched.runtime.onMaterializedChange pair.1 := by
    rw [ModelRuntime.materializedChange, if_pos hbound]
  obtain ⟨hroots, hkept, -⟩ :=
    @ModelRuntime.materializedChange_keeps watched.runtime pair.1
  have hsameRoots : ∀ object, (watched.runtime.materializedChange pair.1).rootsOf object =
      watched.runtime.rootsOf object := by
    intro object
    rw [ModelRuntime.rootsOf, hroots]
    rfl
  cases hstep
  refine ⟨?_, ?_, ?_, ?_⟩
  · intro debt hdebt
    show debt.node ∈ (watched.runtime.materializedChange pair.1).pendingOf debt.root
    rw [hchange, ModelRuntime.mem_pendingOf_onMaterializedChange]
    rcases List.mem_append.mp hdebt with hold | hnew
    · exact Or.inl (h.owed debt hold)
    · obtain ⟨root, hroot, rfl⟩ := List.mem_map.mp hnew
      exact Or.inr ⟨rfl, hroot⟩
  · intro root entry hentry
    show root ∈ (watched.runtime.materializedChange pair.1).rootsOf entry
    rw [hsameRoots]
    change entry ∈ (watched.runtime.materializedChange pair.1).pendingOf root at hentry
    rw [hchange, ModelRuntime.mem_pendingOf_onMaterializedChange] at hentry
    rcases hentry with hold | ⟨rfl, hroot⟩
    · exact h.mapped root entry hold
    · exact hroot
  · intro other hother
    show other.2 ∈ (watched.runtime.materializedChange pair.1).rootsOf other.1
    rw [hsameRoots]
    exact h.attachedMapped other hother
  · intro other hother
    show other.1 ∈ (watched.runtime.materializedChange pair.1).bound
    rw [hkept]
    exact h.attachedBound other hother

/-- A debt that no publication of this call ends belongs to a root whose channel is not
free, and such a root keeps its pending set. -/
theorem publishChanged (h : watched.Sound)
    (hstep : watchedStep true watched .publishChanged = some next) : next.Sound := by
  obtain ⟨hroots, hbound, hpending, -⟩ := watched.runtime.publishChanged_spec
  have hsameRoots : ∀ object, watched.runtime.publishChanged.rootsOf object =
      watched.runtime.rootsOf object := by
    intro object
    rw [ModelRuntime.rootsOf, hroots]
    rfl
  cases hstep
  refine ⟨?_, ?_, ?_, ?_⟩
  · intro debt hdebt
    obtain ⟨hold, hunpublished⟩ := List.mem_filter.mp hdebt
    have howed := h.owed debt hold
    show debt.node ∈ watched.runtime.publishChanged.pendingOf debt.root
    rw [hpending]
    split
    case isFalse => exact howed
    case isTrue hfree =>
      have hpublished := ModelRuntime.mem_publicationsOf hfree howed
      rw [← newPublications_eq] at hpublished
      have hend : (watched.runtime.newPublications.any fun publication =>
          decide (publication.1 = debt.root) && decide (debt.node ∈ publication.2)) = true :=
        List.any_eq_true.mpr ⟨_, hpublished, by simp [howed]⟩
      rw [hend] at hunpublished
      cases hunpublished
  · intro root entry hentry
    show root ∈ watched.runtime.publishChanged.rootsOf entry
    rw [hsameRoots]
    change entry ∈ watched.runtime.publishChanged.pendingOf root at hentry
    rw [hpending] at hentry
    split at hentry
    · cases hentry
    · exact h.mapped root entry hentry
  · intro pair hpair
    show pair.2 ∈ watched.runtime.publishChanged.rootsOf pair.1
    rw [hsameRoots]
    exact h.attachedMapped pair hpair
  · intro pair hpair
    show pair.1 ∈ watched.runtime.publishChanged.bound
    rw [hbound]
    exact h.attachedBound pair hpair

theorem step (h : watched.Sound) {call : RuntimeCall} (hallowed : CallAllowed watched call)
    (hstep : watchedStep true watched call = some next) : next.Sound := by
  cases call with
  | addPresentationRoot root objects =>
      cases hstep
      obtain ⟨hpending, hbound⟩ :=
        @ModelRuntime.addPresentationRoot_keeps watched.runtime root objects
      have hsame : ∀ other, (watched.runtime.addPresentationRoot root objects).pendingOf other =
          watched.runtime.pendingOf other := by
        intro other
        rw [ModelRuntime.pendingOf, hpending]
        rfl
      refine ⟨?_, ?_, ?_, ?_⟩
      · intro debt hdebt
        exact (hsame debt.root).symm ▸ h.owed debt hdebt
      · intro other entry hentry
        exact ModelRuntime.mem_rootsOf_addPresentationRoot.mpr
          (Or.inl (h.mapped other entry (hsame other ▸ hentry)))
      · intro pair hpair
        exact ModelRuntime.mem_rootsOf_addPresentationRoot.mpr
          (Or.inl (h.attachedMapped pair hpair))
      · intro pair hpair
        exact hbound.symm ▸ h.attachedBound pair hpair
  | attachNode node presentationRoot => exact h.attachNode hstep
  | detachNode node presentationRoot => exact h.detachNode hstep
  | materializedChange node => exact h.materializedChange hallowed hstep
  | bindAllModelNodeNotifiers =>
      cases hstep
      exact ⟨h.owed, h.mapped, h.attachedMapped,
        fun pair hpair => List.mem_union_iff.mpr (Or.inl (h.attachedBound pair hpair))⟩
  | publishChanged => exact h.publishChanged hstep
  | takePublished root =>
      cases hstep
      exact ⟨h.owed, h.mapped, h.attachedMapped, h.attachedBound⟩

end Watched.Sound

/-- A change that a root is owed by a Node that is mapped to it is pending. -/
def Watched.NoChangeLost (watched : Watched) : Prop :=
  ∀ debt ∈ watched.debts,
    watched.runtime.isMappedToPresentationRoot debt.node debt.root = true →
    debt.node ∈ watched.runtime.pendingOf debt.root

/-- A detachment from one root is not felt at the others: what is pending there stays, and
the changes of an attached Node still get there. -/
def DetachmentIsLocal (watched : Watched) (node presentationRoot : ObjId) : Prop :=
  ∀ next, watched.runtime.detachNode node presentationRoot = some next →
    ∀ root, root ≠ presentationRoot →
      next.pendingOf root = watched.runtime.pendingOf root ∧
        ((node, root) ∈ watched.attached → node ∈ (next.materializedChange node).pendingOf root)

theorem Watched.Sound.detachmentIsLocal {watched : Watched} (h : watched.Sound)
    (node presentationRoot : ObjId) : DetachmentIsLocal watched node presentationRoot := by
  intro next hnext root hother
  have hdetached := ModelRuntime.detached_of_detachNode hnext
  refine ⟨by rw [hdetached.pending, if_neg hother], ?_⟩
  intro hattached
  have hroot : root ∈ next.rootsOf node := by
    rw [hdetached.roots, if_pos rfl]
    exact List.mem_filter.mpr ⟨h.attachedMapped _ hattached, decide_eq_true hother⟩
  have hbound : node ∈ next.bound :=
    (hdetached.bound node).mpr
      ⟨h.attachedBound _ hattached, fun _ => List.ne_nil_of_mem hroot⟩
  rw [ModelRuntime.materializedChange, if_pos hbound,
    ModelRuntime.mem_pendingOf_onMaterializedChange]
  exact Or.inr ⟨rfl, hroot⟩

/-- In every run of attachments, detachments, changes of attached Nodes and publications,
whatever the GUI reads and when. -/
theorem modelChanges_reachUi (reachable : List ObjId) (uiMirror : UiMirror)
    {calls : List RuntimeCall} {watched : Watched}
    (hallowed : EveryStep (watchedStep true) CallAllowed
      (Watched.mk (ModelRuntime.new reachable uiMirror) [] []) calls)
    (hrun : runActions (watchedStep true)
      (Watched.mk (ModelRuntime.new reachable uiMirror) [] []) calls = some watched) :
    watched.NoChangeLost ∧
      (∀ root, ∀ node ∈ watched.runtime.pendingOf root,
        watched.runtime.isMappedToPresentationRoot node root = true) ∧
      (∀ root, (watched.runtime.uiMirror.publish root (watched.runtime.pendingOf root)).2 =
          false →
        watched.runtime.publishChanged.pendingOf root = watched.runtime.pendingOf root) ∧
      ∀ node presentationRoot, DetachmentIsLocal watched node presentationRoot := by
  have hsound : watched.Sound := runActions_invariant Watched.Sound
    (fun _ _ _ hstate hcall hstep => hstate.step hcall hstep)
    (watched_new_sound reachable uiMirror) hallowed hrun
  refine ⟨fun debt hdebt _ => hsound.owed debt hdebt, ?_, ?_, hsound.detachmentIsLocal⟩
  · intro root node hpending
    exact decide_eq_true (hsound.mapped root node hpending)
  · intro root hrefused
    have hbusy : ¬ watched.runtime.IsFree root := by
      intro hfree
      have hunread : root ∉ watched.runtime.uiMirror.unread := hfree
      unfold UiMirror.publish at hrefused
      rw [if_neg hunread] at hrefused
      split at hrefused <;> cases hrefused
    rw [(watched.runtime.publishChanged_spec).2.2.1, if_neg hbusy]

section SharedCounter

/-- A runtime that nothing is attached to. -/
def newRuntime : Watched := ⟨ModelRuntime.new [⟨1⟩] {}, [], []⟩

/-- A Node changes, and is detached and attached again before it is published. -/
def attachedAgain : List RuntimeCall :=
  [.attachNode ⟨5⟩ ⟨1⟩, .materializedChange ⟨5⟩, .detachNode ⟨5⟩ ⟨1⟩, .attachNode ⟨5⟩ ⟨1⟩]

/-- Without the end that a detachment puts to a debt, a change can be lost. -/
theorem attachedAgain_losesChange :
    EveryStep (watchedStep false) CallAllowed newRuntime attachedAgain ∧
      ∃ watched, runActions (watchedStep false) newRuntime attachedAgain = some watched ∧
        ¬ watched.NoChangeLost := by
  refine ⟨by decide, ?_⟩
  have hrun : (runActions (watchedStep false) newRuntime attachedAgain).any (fun watched =>
      decide (⟨⟨1⟩, ⟨5⟩⟩ ∈ watched.debts) &&
        watched.runtime.isMappedToPresentationRoot ⟨5⟩ ⟨1⟩ &&
        decide (⟨5⟩ ∉ watched.runtime.pendingOf ⟨1⟩)) = true := by decide
  obtain ⟨watched, hwatched, hlost⟩ := (Option.any_eq_true _ _).mp hrun
  rw [Bool.and_eq_true, Bool.and_eq_true] at hlost
  obtain ⟨⟨hdebt, hmapped⟩, hmissing⟩ := hlost
  refine ⟨watched, hwatched, fun hnone => ?_⟩
  exact of_decide_eq_true hmissing (hnone ⟨⟨1⟩, ⟨5⟩⟩ (of_decide_eq_true hdebt) hmapped)

/-- A Node of two roots changes while the GUI holds an unread publication of one. -/
def sharedByTwoRoots : List RuntimeCall :=
  [.addPresentationRoot ⟨1⟩ [⟨1⟩, ⟨6⟩], .attachNode ⟨5⟩ ⟨1⟩, .attachNode ⟨5⟩ ⟨2⟩,
    .materializedChange ⟨5⟩, .publishChanged, .takePublished ⟨2⟩, .materializedChange ⟨5⟩,
    .publishChanged, .detachNode ⟨5⟩ ⟨2⟩]

theorem sharedByTwoRoots_reachesUi : ∃ watched,
    runActions (watchedStep true) newRuntime sharedByTwoRoots = some watched ∧
      watched.debts ≠ [] ∧ watched.NoChangeLost := by
  have hrun : (runActions (watchedStep true) newRuntime sharedByTwoRoots).any (fun watched =>
      decide (watched.debts ≠ [])) = true := by decide
  obtain ⟨watched, hwatched, hdebts⟩ := (Option.any_eq_true _ _).mp hrun
  have hallowed : EveryStep (watchedStep true) CallAllowed newRuntime sharedByTwoRoots := by
    decide
  exact ⟨watched, hwatched, of_decide_eq_true hdebts,
    (modelChanges_reachUi [⟨1⟩] {} hallowed hwatched).1⟩

end SharedCounter

end AppTraverse
