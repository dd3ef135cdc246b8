import AppTraverse.Journal.CommitOrder

/-!
# The generation of a Node along its runs

`NoteMaterializedChange` counts the Events applied to the live fields.  An append goes on
counting.  An insertion in the middle counts again from one, over the journal that is
left, so after a compaction it may arrive at a number that was used before.
-/

namespace AppTraverse

open Foundations

section Versions

variable {σ β ε τ : Type} {cls : NodeClass σ β ε} {S : SerializedFields cls τ}
  {node next : Node σ β ε} {record : EventRecord ε} {nowUs : UInt64}

/-- The record that a call inserts, and the time of the call. -/
def insertedBy (node : Node σ β ε) : NodeCall ε → Option (EventRecord ε × UInt64)
  | .journal (.commit event nowUs) => some (localRecord node.journal event nowUs, nowUs)
  | .journal (.commitShared event identity order nowUs) =>
      some (sharedRecord event identity order nowUs, nowUs)
  | .journal (.insertShared event identity order nowUs) =>
      some (sharedRecord event identity order nowUs, nowUs)
  | _ => none

/-- An insertion advances the generation, and any other call leaves it. -/
def VersionAdvances (node : Node σ β ε) (call : NodeCall ε) (next : Node σ β ε) : Prop :=
  if (insertedBy node call).isSome then
    node.generation < next.generation
  else
    next.generation = node.generation

/-- A record of the call goes to the end of the journal, or the generation does not count
more Events than the journal holds. -/
def CountsJournal (node : Node σ β ε) (call : NodeCall ε) : Prop :=
  ∀ record nowUs, insertedBy node call = some (record, nowUs) →
    lowerBoundAtEnd eventRecordOrderLess (record.stamped nowUs) node.journal = true ∨
      node.generation ≤ 1 + node.journal.length

/-- The generation after an insertion. -/
theorem generation_of_tryInsertEvent
    (h : tryInsertEvent cls node record nowUs = .ok (next, true)) :
    (lowerBoundAtEnd eventRecordOrderLess (record.stamped nowUs) node.journal = true ∧
        next.generation = node.generation + (node.journal.length + 1 - node.cursor)) ∨
      (lowerBoundAtEnd eventRecordOrderLess (record.stamped nowUs) node.journal = false ∧
        next.generation = 1 + (node.journal.length + 1)) := by
  by_cases hready : node.HasBase ∧ RecordAccepted node.journal record
  case neg =>
    rw [tryInsertEvent_refused hready] at h
    cases h
  case pos =>
    rw [tryInsertEvent_accepted hready.1 hready.2] at h
    split at h
    case isTrue hend =>
      obtain ⟨applied, hrun, h⟩ := except_bind_eq_ok_iff.mp h
      split at h
      case isTrue hcomplete =>
        cases h
        refine Or.inl ⟨hend, ?_⟩
        show node.generation + applied.count = _
        rw [count_of_applyRecords hrun hcomplete, List.length_drop, List.length_append]
        rfl
      case isFalse => cases h
    case isFalse hmiddle =>
      refine Or.inr ⟨Bool.eq_false_of_not_eq_true hmiddle, ?_⟩
      cases hbase : node.base.obj with
      | none => simp [tryRebuildFromBaseAndReplay, hbase] at h
      | some snapshot =>
          rw [tryRebuildFromBaseAndReplay_eq cls (show ({ node with
            journal := insertedJournal node record nowUs } : Node σ β ε).base.obj =
              some snapshot from hbase)] at h
          obtain ⟨applied, hrun, h⟩ := except_bind_eq_ok_iff.mp h
          obtain ⟨rfl, hcomplete⟩ := Prod.mk.inj (Except.ok.inj h)
          show 1 + applied.count = _
          rw [count_of_applyRecords hrun hcomplete, insertedJournal,
            length_lowerBoundInsert]

theorem tryInsertEvent_of_insertEvent (h : insertEvent cls node record nowUs = .ok next) :
    tryInsertEvent cls node record nowUs = .ok (next, true) := by
  obtain ⟨⟨inserted, ok⟩, hinsert, h⟩ := except_bind_eq_ok_iff.mp h
  obtain ⟨checked, hok, h⟩ := except_bind_eq_ok_iff.mp h
  cases h
  have htrue : ok = true := assertThat_eq_ok_iff.mp hok
  rw [hinsert, htrue]

theorem tryInsertEvent_of_commit {event : Ref ε} (h : commit cls node event nowUs = .ok next) :
    tryInsertEvent cls node (localRecord node.journal event nowUs) nowUs =
      .ok (next, true) := by
  unfold commit at h
  obtain ⟨valid, -, h⟩ := except_bind_eq_ok_iff.mp h
  split at h
  case h_1 => cases h
  case h_2 =>
    obtain ⟨checked, -, h⟩ := except_bind_eq_ok_iff.mp h
    exact tryInsertEvent_of_insertEvent h

theorem tryInsertEvent_of_commitShared {event : Ref ε} {identity : SharedEventId}
    {order : SharedEventOrder} (h : commitShared cls node event identity order nowUs = .ok next) :
    tryInsertEvent cls node (sharedRecord event identity order nowUs) nowUs =
      .ok (next, true) :=
  (tryCommitShared_iff.mp (commitShared_eq_ok_iff.mp h)).2

/-- A call that inserts is a successful `TryInsertEvent`. -/
theorem tryInsertEvent_of_callStep {call : NodeCall ε}
    (hstep : callStep cls node call = some next)
    (hinserts : insertedBy node call = some (record, nowUs)) :
    tryInsertEvent cls node record nowUs = .ok (next, true) := by
  cases call with
  | journal call =>
      cases call with
      | commit event now =>
          cases hinserts
          exact tryInsertEvent_of_commit (toOption_eq_some_iff.mp hstep)
      | commitShared event identity order now =>
          cases hinserts
          exact tryInsertEvent_of_commitShared (toOption_eq_some_iff.mp hstep)
      | insertShared event identity order now =>
          cases hinserts
          exact tryInsertEvent_of_commitShared (toOption_eq_some_iff.mp hstep)
      | replayFromBase => cases hinserts
  | compactJournal now => cases hinserts
  | setJournalRetentionPolicy policy => cases hinserts
  | setJournalCompactionBlocked blocked => cases hinserts
  | adoptMaterializedPersistentCheckpointJournal => cases hinserts

/-- A call that inserts nothing and does not rebuild leaves the generation and what is
materialised. -/
theorem keepsVersion_of_callStep (h : node.Stands S) {call : NodeCall ε}
    (hcall : call ≠ .journal .replayFromBase) (hnone : insertedBy node call = none)
    (hstep : callStep cls node call = some next) :
    next.generation = node.generation ∧ S.view next.fields = S.view node.fields := by
  cases call with
  | journal call =>
      cases call with
      | commit event now => cases hnone
      | commitShared event identity order now => cases hnone
      | insertShared event identity order now => cases hnone
      | replayFromBase => exact absurd rfl hcall
  | compactJournal now =>
      have hfolded := h.prefixFolded (toOption_eq_some_iff.mp hstep)
      exact ⟨hfolded.generation, hfolded.view⟩
  | setJournalRetentionPolicy policy =>
      cases hstep
      exact ⟨rfl, rfl⟩
  | setJournalCompactionBlocked blocked =>
      cases hstep
      exact ⟨rfl, rfl⟩
  | adoptMaterializedPersistentCheckpointJournal =>
      cases hstep
      exact ⟨rfl, rfl⟩

/-- One call advances the version as it should exactly when its record is appended or the
generation counts no more than the journal. -/
theorem versionAdvances_iff (h : node.Stands S) {call : NodeCall ε}
    (hcall : call ≠ .journal .replayFromBase) (hstep : callStep cls node call = some next) :
    VersionAdvances node call next ↔ CountsJournal node call := by
  have hcursor : node.cursor = node.journal.length := h.materialized
  unfold VersionAdvances CountsJournal
  cases hinserts : insertedBy node call with
  | none =>
      simp only [Option.isSome_none, Bool.false_eq_true, if_false, reduceCtorEq,
        false_implies, implies_true, iff_true]
      exact (keepsVersion_of_callStep h hcall hinserts hstep).1
  | some inserted =>
      obtain ⟨record, nowUs⟩ := inserted
      have hinsert := tryInsertEvent_of_callStep hstep hinserts
      simp only [Option.isSome_some, if_true, Option.some.injEq, Prod.mk.injEq, and_imp]
      constructor
      · rintro hadvances _ _ rfl rfl
        rcases generation_of_tryInsertEvent hinsert with ⟨hend, -⟩ | ⟨-, hgeneration⟩
        · exact Or.inl hend
        · right
          omega
      · intro hcounts
        rcases generation_of_tryInsertEvent hinsert with ⟨-, hgeneration⟩ |
          ⟨hmiddle, hgeneration⟩
        · omega
        · rcases hcounts record nowUs rfl rfl with hend | hle
          · rw [hmiddle] at hend
            cases hend
          · omega

end Versions

section RepeatedGeneration

/-- Three messages in a room that keeps the newest one. -/
def threeMessages : List (NodeCall (SharedNodeEvent MessageAddedEvent)) :=
  [.journal (messageArrival 11 5 100).call, .journal (messageArrival 12 6 101).call,
    .journal (messageArrival 13 9 102).call, .setJournalRetentionPolicy ⟨1, none⟩]

/-- A compaction, a late message before the newest one, and a message after it. -/
def lateMessage : List (NodeCall (SharedNodeEvent MessageAddedEvent)) :=
  [.compactJournal 103, .journal (messageArrival 14 8 104).call]

theorem blankRoom_stands : blankRoom.Stands (chatRoom.serializedFields _ roomIds_valid) :=
  ⟨folds_initializeRuntimeNode, by decide, by simp [blankRoom, initializeRuntimeNode,
    AppClass.serializedFields, StatesUsable]⟩

end RepeatedGeneration

end AppTraverse
