import AppTraverse.Journal.Compaction

/-!
# Nodes without local fields

Most Node classes have only serialized fields, and an Event that `CanApply` admits is
applied without an assertion.  For a Node of such a class that is used through `Commit`
alone, a commit is one application of the Event to the fields.
-/

namespace AppTraverse

open Foundations

/-- A Node class all of whose fields are serialized. -/
structure PlainClass (σ ε : Type) where
  canApply : σ → ε → Bool
  apply : σ → ε → σ

namespace PlainClass

variable {σ ε : Type} (plain : PlainClass σ ε)

def nodeClass : NodeClass σ σ ε where
  canApplyTo := plain.canApply
  applyTo fields _ event := .ok (plain.apply fields event)
  saveBase fields := fields
  loadBase _ snapshot := snapshot
  matchesSharedMetadata _ _ _ := true

def serializedFields : SerializedFields plain.nodeClass σ where
  view fields := fields
  ofBase snapshot := snapshot
  canApply := plain.canApply
  apply fields _ event := some (plain.apply fields event)
  sound _ := True
  canApplyTo_eq _ _ := rfl
  apply_view fields id event next _ h := by
    cases h
    rfl
  applyTo_returns fields id event state _ _ _ := ⟨_, rfl⟩
  sound_applyTo _ _ _ _ _ _ := trivial
  sound_loadBase _ _ _ := trivial
  view_loadBase _ _ := rfl
  ofBase_saveBase _ := rfl

end PlainClass

section Returns

variable {σ β ε τ : Type} {cls : NodeClass σ β ε} {S : SerializedFields cls τ}
  {node : Node σ β ε} {event : Ref ε} {value : ε} {state : τ} {clockUs : UInt64}

theorem stamped_localRecord {journal : List (EventRecord ε)} :
    (localRecord journal event clockUs).stamped clockUs = localRecord journal event clockUs := by
  unfold EventRecord.stamped
  split <;> rfl

/-- A commit succeeds when the Event can be applied to the fields and there is a timestamp
left. -/
theorem Node.Stands.commit_returns (h : node.Stands S) (hsorted : JournalSorted node.journal)
    (hvalid : event.isValid = true) (hvalue : event.obj = some value)
    (hcan : S.canApply (S.view node.fields) value = true)
    (happly : S.apply (S.view node.fields) event.id value = some state)
    (htimestamp : commitTimestamp node.journal clockUs ≠ 0) :
    ∃ next, commit cls node event clockUs = .ok next := by
  obtain ⟨snapshot, hbase, hreplay⟩ := h.replay
  have hend := @localRecord_atEnd _ _ _ node clockUs event hsorted htimestamp
  have hjournal : insertedJournal node (localRecord node.journal event clockUs) clockUs =
      node.journal ++ [(localRecord node.journal event clockUs).stamped clockUs] :=
    lowerBoundInsert_eq_append hend
  have haccepted : RecordAccepted node.journal (localRecord node.journal event clockUs) := by
    refine ⟨hvalid, Ref.isLoaded_iff.mpr ⟨value, hvalue⟩, htimestamp, ?_⟩
    intro hshared
    simp [localRecord, EventRecord.hasSharedIdentity] at hshared
  have hstep : S.step (S.view node.fields) (localRecord node.journal event clockUs) =
      some state := by
    have hrecord : (localRecord node.journal event clockUs).event = event := rfl
    rw [SerializedFields.step, hrecord, hvalue]
    show (if event.isValid && S.canApply (S.view node.fields) value then _ else _) = _
    rw [hvalid, hcan]
    exact happly
  have hnew : S.replay (S.ofBase snapshot)
      (insertedJournal node (localRecord node.journal event clockUs) clockUs) =
        (state, true) := by
    rw [hjournal, S.replay_append hreplay, stamped_localRecord, SerializedFields.replay_cons,
      hstep]
    rfl
  obtain ⟨next, hnext⟩ := h.tryInsertEvent_returns haccepted hbase hnew
  refine ⟨next, ?_⟩
  unfold commit
  rw [hvalid, hvalue]
  show (do assertThat (cls.canApplyTo node.fields value); _) = _
  rw [S.canApplyTo_eq, hcan]
  show insertEvent cls node (localRecord node.journal event clockUs) clockUs = _
  rw [insertEvent, hnext]
  rfl

end Returns

section Commits

variable {σ ε : Type} {plain : PlainClass σ ε} {node next : Node σ σ ε} {event : Ref ε}
  {value : ε} {clockUs : UInt64}

/-- What holds of a Node that only its own replica commits to. -/
structure Node.IsLocal (plain : PlainClass σ ε) (node : Node σ σ ε) : Prop
    extends node.Stands plain.serializedFields where
  sorted : JournalSorted node.journal

theorem isLocal_initializeRuntimeNode {objId baseId : ObjId} {classId : ClassId} {fields : σ}
    (hvalid : baseId.isValid = true) :
    (initializeRuntimeNode plain.nodeClass objId classId baseId fields).IsLocal plain where
  toStands := ⟨folds_initializeRuntimeNode, hvalid, trivial⟩
  sorted := List.Pairwise.nil

/-- What a successful commit did. -/
structure Committed (plain : PlainClass σ ε) (node : Node σ σ ε) (event : Ref ε) (value : ε)
    (clockUs : UInt64) (next : Node σ σ ε) : Prop where
  fields : next.fields = plain.apply node.fields value
  journal : next.journal = node.journal ++ [localRecord node.journal event clockUs]
  objId : next.objId = node.objId
  isLocal : next.IsLocal plain

theorem Node.IsLocal.committed (h : node.IsLocal plain) (hvalue : event.obj = some value)
    (hcommit : commit plain.nodeClass node event clockUs = .ok next) :
    plain.canApply node.fields value = true ∧ commitTimestamp node.journal clockUs ≠ 0 ∧
      Committed plain node event value clockUs next := by
  obtain ⟨-, hinserted⟩ := recordInserted_of_commit hcommit
  obtain ⟨hjournal, hcan, happly⟩ :=
    applied_of_localRecord hinserted hvalue h.sorted h.materialized
  have hstep : journalStep plain.nodeClass node (.commit event clockUs) = some next :=
    toOption_eq_some_iff.mpr hcommit
  have hstands : next.Stands plain.serializedFields := h.toStands.journalStep hstep
  rw [stamped_localRecord] at hjournal
  exact ⟨hcan, hinserted.timestamp, (Except.ok.inj happly).symm, hjournal, hinserted.objId,
    hstands, hinserted.sorted h.sorted⟩

/-- A commit succeeds when `CanApply` admits the Event and there is a timestamp left. -/
theorem Node.IsLocal.commit_returns (h : node.IsLocal plain) (hvalid : event.isValid = true)
    (hvalue : event.obj = some value) (hcan : plain.canApply node.fields value = true)
    (htimestamp : commitTimestamp node.journal clockUs ≠ 0) :
    ∃ next, commit plain.nodeClass node event clockUs = .ok next :=
  h.toStands.commit_returns h.sorted hvalid hvalue hcan rfl htimestamp

end Commits

end AppTraverse
