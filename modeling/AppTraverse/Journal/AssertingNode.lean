import AppTraverse.Journal.PlainNode

/-!
# Nodes whose `Apply` asserts `CanApply`

The lifecycle Nodes assert `CanApply` at the start of every `Apply`, and they are changed by
functions of one shape: create an Event, ask `CanApply`, and commit.  Nothing is assumed here of
the fields of a Node, only that its base is loaded and that its journal is in order.
-/

namespace AppTraverse

open Foundations

variable {σ ε : Type} (plain : PlainClass σ ε)

/-- `Apply` begins with `assert(CanApply(event))`. -/
def PlainClass.assertingClass : NodeClass σ σ ε where
  canApplyTo := plain.canApply
  applyTo fields _ event := do
    assertThat (plain.canApply fields event)
    pure (plain.apply fields event)
  saveBase fields := fields
  loadBase _ snapshot := snapshot
  matchesSharedMetadata _ _ _ := true

/-- The Event that `ptr::Create` makes, but for its fields, and the clock at its commit. -/
structure EventCreation where
  id : ObjId
  clockUs : UInt64
  valid : id.isValid = true

/-- The functions that create an Event and commit it if the Node can apply it. -/
def commitIfApplicable (node : Node σ σ ε) (creation : EventCreation) (event : ε) :
    Except Fault (Node σ σ ε × Bool) :=
  if !plain.canApply node.fields event then
    .ok (node, false)
  else do
    let committed ←
      commit plain.assertingClass node ⟨creation.id, some event⟩ creation.clockUs
    pure (committed, true)

/-- A Node in memory, with any fields. -/
structure Node.IsOpen (node : Node σ σ ε) : Prop where
  hasBase : node.HasBase
  materialized : node.IsMaterialized
  sorted : JournalSorted node.journal

variable {plain} {node next : Node σ σ ε} {creation : EventCreation} {event : ε}

/-- A replay asks `CanApply` before each `Apply`, so that no assertion of an `Apply` fails. -/
theorem applyRecords_assertingClass (fields : σ) (records : List (EventRecord ε)) :
    ∃ applied, applyRecords plain.assertingClass fields records = .ok applied := by
  induction records generalizing fields with
  | nil => exact ⟨_, rfl⟩
  | cons record rest ih =>
      unfold applyRecords
      split
      case isTrue => exact ⟨_, rfl⟩
      case isFalse =>
      split
      case h_1 => exact ⟨_, rfl⟩
      case h_2 value hvalue =>
      split
      case isFalse => exact ⟨_, rfl⟩
      case isTrue hcan =>
        obtain ⟨applied, happlied⟩ := ih (plain.apply fields value)
        have happly : plain.assertingClass.applyTo fields record.event.id value =
            .ok (plain.apply fields value) := by
          show (do assertThat (plain.canApply fields value); _) = _
          rw [show plain.canApply fields value = true from hcan]
          rfl
        rw [happly]
        show ∃ result, (do
          let applied ← applyRecords plain.assertingClass (plain.apply fields value) rest
          pure { applied with count := applied.count + 1 }) = Except.ok result
        rw [happlied]
        exact ⟨_, rfl⟩

/-- What a commit of an Event does. -/
structure CommittedInPlace (plain : PlainClass σ ε) (node : Node σ σ ε) (event : ε)
    (next : Node σ σ ε) : Prop where
  fields : next.fields = plain.apply node.fields event
  grown : next.journal.length = node.journal.length + 1
  isOpen : next.IsOpen

theorem Node.IsOpen.committed (h : node.IsOpen)
    (hcommit : commit plain.assertingClass node ⟨creation.id, some event⟩ creation.clockUs =
      .ok next) :
    CommittedInPlace plain node event next := by
  obtain ⟨-, hinserted⟩ := recordInserted_of_commit hcommit
  obtain ⟨hjournal, hcan, happly⟩ :=
    applied_of_localRecord hinserted (rfl : (Ref.mk creation.id (some event)).obj = some event)
      h.sorted h.materialized
  have happly' : (do assertThat (plain.canApply node.fields event)
                     pure (plain.apply node.fields event)) = Except.ok next.fields := happly
  rw [show plain.canApply node.fields event = true from hcan] at happly'
  refine ⟨(Except.ok.inj happly').symm, ?_, ⟨?_, hinserted.materialized h.materialized,
    hinserted.sorted h.sorted⟩⟩
  · rw [hjournal, List.length_append, List.length_singleton]
  · unfold Node.HasBase
    rw [hinserted.base]
    exact h.hasBase

/-- A commit succeeds when `CanApply` admits the Event and there is a timestamp left. -/
theorem Node.IsOpen.commit_returns (h : node.IsOpen)
    (hcan : plain.canApply node.fields event = true)
    (htimestamp : commitTimestamp node.journal creation.clockUs ≠ 0) :
    ∃ next, commit plain.assertingClass node ⟨creation.id, some event⟩ creation.clockUs =
      .ok next := by
  have hend := @localRecord_atEnd _ _ _ node creation.clockUs ⟨creation.id, some event⟩ h.sorted
    htimestamp
  have haccepted : RecordAccepted node.journal
      (localRecord node.journal ⟨creation.id, some event⟩ creation.clockUs) := by
    refine ⟨creation.valid, rfl, htimestamp, ?_⟩
    intro hshared
    simp [localRecord, EventRecord.hasSharedIdentity] at hshared
  have hcursor : node.cursor = node.journal.length := h.materialized
  have happlied : applyRecords plain.assertingClass node.fields
      [(localRecord node.journal ⟨creation.id, some event⟩ creation.clockUs).stamped
        creation.clockUs] = .ok ⟨plain.apply node.fields event, 1, true⟩ := by
    rw [stamped_localRecord]
    unfold applyRecords
    simp [localRecord, Ref.isValid, creation.valid, PlainClass.assertingClass, hcan, assertThat,
      applyRecords, bind, Except.bind, pure, Except.pure]
  obtain ⟨inserted, hinserted⟩ : ∃ inserted, tryInsertEvent plain.assertingClass node
      (localRecord node.journal ⟨creation.id, some event⟩ creation.clockUs) creation.clockUs =
        .ok (inserted, true) := by
    rw [tryInsertEvent_accepted h.hasBase haccepted, if_pos hend, hcursor, List.drop_left,
      happlied]
    exact ⟨_, rfl⟩
  refine ⟨inserted, ?_⟩
  unfold commit
  show (do assertThat creation.id.isValid; assertThat (plain.canApply node.fields event); _) = _
  rw [creation.valid, hcan]
  show insertEvent plain.assertingClass node
    (localRecord node.journal ⟨creation.id, some event⟩ creation.clockUs) creation.clockUs = _
  rw [insertEvent, hinserted]
  rfl

/-- What one of these functions answers, and what it did. -/
theorem Node.IsOpen.commitIfApplicable_cases (h : node.IsOpen) {answer : Bool}
    (hrun : commitIfApplicable plain node creation event = .ok (next, answer)) :
    (answer = false ∧ plain.canApply node.fields event = false ∧ next = node) ∨
      (answer = true ∧ plain.canApply node.fields event = true ∧
        CommittedInPlace plain node event next) := by
  unfold commitIfApplicable at hrun
  cases hcan : plain.canApply node.fields event with
  | false =>
      rw [hcan] at hrun
      obtain ⟨rfl, rfl⟩ := Prod.mk.inj (Except.ok.inj hrun)
      exact Or.inl ⟨rfl, rfl, rfl⟩
  | true =>
      rw [hcan] at hrun
      obtain ⟨committed, hcommit, hpure⟩ := except_bind_eq_ok_iff.mp hrun
      obtain ⟨rfl, rfl⟩ := Prod.mk.inj (Except.ok.inj hpure)
      exact Or.inr ⟨rfl, rfl, h.committed hcommit⟩

/-- One of these functions returns while there is a timestamp left. -/
theorem Node.IsOpen.commitIfApplicable_returns (h : node.IsOpen)
    (htimestamp : commitTimestamp node.journal creation.clockUs ≠ 0) :
    ∃ after answer, commitIfApplicable plain node creation event = .ok (after, answer) := by
  unfold commitIfApplicable
  cases hcan : plain.canApply node.fields event with
  | false => exact ⟨node, false, rfl⟩
  | true =>
      obtain ⟨committed, hcommit⟩ := h.commit_returns hcan htimestamp
      refine ⟨committed, true, ?_⟩
      show (do let committed ← commit plain.assertingClass node _ _; pure (committed, true)) = _
      rw [hcommit]
      rfl

theorem isOpen_initializeRuntimeNode {objId baseId : ObjId} {classId : ClassId} {fields : σ}
    (hvalid : baseId.isValid = true) :
    (initializeRuntimeNode plain.assertingClass objId classId baseId fields).IsOpen where
  hasBase := ⟨hvalid, rfl⟩
  materialized := rfl
  sorted := List.Pairwise.nil

end AppTraverse
