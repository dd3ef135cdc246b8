import AppTraverse.Journal.NodeChanges
import AppTraverse.Sharing.SharedNode

/-!
# Local operations on a SharedNode

What an application does with its own SharedNode: it opens and closes
relationships, commits Events, rebuilds and compacts.  Whatever it does, the local
sync states it ends up with are those it had, less those of closed relationships,
and new ones that nothing has happened to.
-/

namespace AppTraverse

open Foundations

/-- The operations on a SharedNode outside its synchronization. -/
inductive NodeOperation (ε : Type) where
  | addShare (link : Ref Link) (access : UInt8) (eventId : ObjId)
  | removeShare (linkId : ObjId) (eventId : ObjId)
  | setShareAccess (linkId : ObjId) (access : UInt8) (eventId : ObjId)
  | commit (event : Ref (SharedNodeEvent ε))
  | commitShared (event : Ref (SharedNodeEvent ε)) (identity : SharedEventId)
      (order : SharedEventOrder)
  | replayFromBase
  | compactJournal
  | setJournalRetentionPolicy (policy : JournalRetentionPolicy)
  | setJournalCompactionBlocked (blocked : Bool)

variable {α ε : Type}

/-- Run an operation on a Node. -/
def NodeOperation.run (app : AppClass α ε) (ids : Nat → ObjId) (nowUs : UInt64)
    (node : SharedNode α ε) : NodeOperation ε → Except Fault (SharedNode α ε)
  | .addShare link access eventId => AppTraverse.addShare app ids node link access eventId nowUs
  | .removeShare linkId eventId => AppTraverse.removeShare app ids node linkId eventId nowUs
  | .setShareAccess linkId access eventId =>
      AppTraverse.setShareAccess app ids node linkId access eventId nowUs
  | .commit event => AppTraverse.commit (app.nodeClass ids) node event nowUs
  | .commitShared event identity order =>
      AppTraverse.commitShared (app.nodeClass ids) node event identity order nowUs
  | .replayFromBase => AppTraverse.replayFromBase (app.nodeClass ids) node
  | .compactJournal => AppTraverse.compactJournal (app.nodeClass ids) node nowUs
  | .setJournalRetentionPolicy policy => .ok { node with journalRetentionPolicy := policy }
  | .setJournalCompactionBlocked blocked =>
      .ok { node with journalCompactionBlocked := blocked }

/-- Local sync states after an operation: some of those before it, and new ones. -/
def StatesFrom (before after : List (Ref LinkSyncState)) : Prop :=
  ∃ kept created, kept.Sublist before ∧ after = kept ++ created ∧
    ∀ entry ∈ created, ∃ shareId link, entry.obj = some (LinkSyncState.fresh shareId link)

namespace StatesFrom

variable {before middle after : List (Ref LinkSyncState)}

theorem of_sublist (h : after.Sublist before) : StatesFrom before after :=
  ⟨after, [], h, by simp, by simp⟩

theorem refl (states : List (Ref LinkSyncState)) : StatesFrom states states :=
  of_sublist (List.Sublist.refl states)

theorem trans (h : StatesFrom before middle) (h' : StatesFrom middle after) :
    StatesFrom before after := by
  obtain ⟨kept, created, hkept, rfl, hcreated⟩ := h
  obtain ⟨kept', created', hkept', rfl, hcreated'⟩ := h'
  obtain ⟨first, second, rfl, hfirst, hsecond⟩ := List.sublist_append_iff.mp hkept'
  refine ⟨first, second ++ created', hfirst.trans hkept, by simp, fun entry hentry => ?_⟩
  rcases List.mem_append.mp hentry with hmem | hmem
  · exact hcreated entry (hsecond.subset hmem)
  · exact hcreated' entry hmem

theorem created (states : List (Ref LinkSyncState)) (id shareId link : ObjId) :
    StatesFrom states (states ++ [⟨id, some (.fresh shareId link)⟩]) :=
  ⟨states, [_], List.Sublist.refl states, rfl, by simp⟩

/-- An entry is one from before or a new one. -/
theorem mem (h : StatesFrom before after) {entry : Ref LinkSyncState} (hentry : entry ∈ after) :
    entry ∈ before ∨
      ∃ shareId link, entry.obj = some (LinkSyncState.fresh shareId link) := by
  obtain ⟨kept, created, hkept, rfl, hcreated⟩ := h
  rcases List.mem_append.mp hentry with hmem | hmem
  · exact Or.inl (hkept.subset hmem)
  · exact Or.inr (hcreated entry hmem)

end StatesFrom

section Replay

variable {app : AppClass α ε} {ids : Nat → ObjId}

theorem statesFrom_of_applyTo {fields next : SharedNodeFields α} {eventId : ObjId}
    {event : SharedNodeEvent ε} (h : app.applyTo ids fields eventId event = .ok next) :
    StatesFrom fields.linkSyncStates next.linkSyncStates := by
  cases event with
  | addShare link access =>
      simp only [AppClass.applyTo, SharedNodeFields.applyAddShare, except_bind_eq_ok_iff] at h
      obtain ⟨-, -, -, -, -, -, -, -, index, -, h⟩ := h
      split at h
      case isTrue =>
        cases h
        exact StatesFrom.refl _
      case isFalse =>
        cases h
        exact StatesFrom.created _ _ _ _
  | removeShare shareId =>
      simp only [AppClass.applyTo, SharedNodeFields.applyRemoveShare,
        except_bind_eq_ok_iff] at h
      obtain ⟨-, -, index, -, h⟩ := h
      cases h
      exact StatesFrom.of_sublist (List.eraseIdx_sublist _ _)
  | changeShareAccess shareId access =>
      simp only [AppClass.applyTo, SharedNodeFields.applyChangeShareAccess,
        except_bind_eq_ok_iff] at h
      obtain ⟨-, -, h⟩ := h
      cases h
      exact StatesFrom.refl _
  | app event =>
      cases h
      exact StatesFrom.refl _

theorem statesFrom_of_applyRecords {fields : SharedNodeFields α}
    {records : List (EventRecord (SharedNodeEvent ε))} {applied : Applied (SharedNodeFields α)}
    (h : applyRecords (app.nodeClass ids) fields records = .ok applied) :
    StatesFrom fields.linkSyncStates applied.fields.linkSyncStates := by
  refine (applyRecords_invariant (app.nodeClass ids)
    (P := fun _ reached => StatesFrom fields.linkSyncStates reached.linkSyncStates)
    ?_ (StatesFrom.refl _) h).1
  intro done reached record event next hreached hevent happlies hnext
  exact hreached.trans (statesFrom_of_applyTo hnext)

/-- Loading the base keeps the stashed states. -/
theorem statesFrom_loadBase (fields : SharedNodeFields α) (snapshot : BaseSnapshot α) :
    StatesFrom fields.linkSyncStates
      ((app.nodeClass ids).loadBase fields snapshot).linkSyncStates :=
  StatesFrom.of_sublist List.filter_sublist

theorem statesFrom_of_recordInserted {node inserted : SharedNode α ε}
    {record : EventRecord (SharedNodeEvent ε)} {nowUs : UInt64}
    (h : RecordInserted (app.nodeClass ids) node record nowUs inserted) :
    StatesFrom node.fields.linkSyncStates inserted.fields.linkSyncStates := by
  obtain ⟨applied, size, generation, -, hreplay, rfl⟩ := h.replay
  cases hreplay with
  | appended hend hrun => exact statesFrom_of_applyRecords hrun
  | rebuilt snapshot hmiddle hbase hrun =>
      exact (statesFrom_loadBase node.fields snapshot).trans (statesFrom_of_applyRecords hrun)

end Replay

/-- What an operation did to its Node. -/
inductive NodeOperated (app : AppClass α ε) (ids : Nat → ObjId) (nowUs : UInt64)
    (node next : SharedNode α ε) : Prop where
  | nothing (same : next = node)
  | configured (policy : JournalRetentionPolicy) (blocked : Bool)
      (same : next = { node with
        journalRetentionPolicy := policy
        journalCompactionBlocked := blocked })
  | committed (event : Ref (SharedNodeEvent ε))
      (inserted : RecordInserted (app.nodeClass ids) node
        (localRecord node.journal event nowUs) nowUs next)
  | committedShared (event : Ref (SharedNodeEvent ε)) (identity : SharedEventId)
      (order : SharedEventOrder) (origin : identity.originUid ≠ [])
      (inserted : RecordInserted (app.nodeClass ids) node
        (sharedRecord event identity order nowUs) nowUs next)
  | rebuilt (snapshot : BaseSnapshot α) (applied : Applied (SharedNodeFields α))
      (loaded : node.base.obj = some snapshot)
      (run : applyRecords (app.nodeClass ids)
        ((app.nodeClass ids).loadBase node.fields snapshot) node.journal = .ok applied)
      (complete : applied.complete = true)
      (result : next = { node with
        fields := applied.fields
        appliedJournalSize := some applied.count
        generation := 1 + applied.count })
  | compacted (collapse : Nat)
      (compaction : JournalCompacted (app.nodeClass ids) node next collapse)

section Operations

variable {app : AppClass α ε} {ids : Nat → ObjId} {nowUs : UInt64}
  {node next : SharedNode α ε} {operation : NodeOperation ε}

/-- Inversion of the operations. -/
theorem nodeOperated_of_run (h : operation.run app ids nowUs node = .ok next) :
    NodeOperated app ids nowUs node next := by
  have hcommit : ∀ {event : Ref (SharedNodeEvent ε)},
      commit (app.nodeClass ids) node event nowUs = .ok next →
      NodeOperated app ids nowUs node next := by
    intro event h
    exact .committed event (recordInserted_of_commit h).2
  have hsame : (.ok node : Except Fault _) = .ok next →
      NodeOperated app ids nowUs node next := by
    intro h
    exact .nothing (Except.ok.inj h).symm
  cases operation with
  | addShare link access eventId =>
      simp only [NodeOperation.run, addShare, except_bind_eq_ok_iff] at h
      obtain ⟨-, -, h⟩ := h
      split at h
      case isTrue => exact hsame h
      case isFalse => exact hcommit h
  | removeShare linkId eventId =>
      simp only [NodeOperation.run, removeShare, except_bind_eq_ok_iff] at h
      obtain ⟨-, -, h⟩ := h
      split at h
      case h_1 => exact hsame h
      case h_2 => exact hcommit h
  | setShareAccess linkId access eventId =>
      simp only [NodeOperation.run, setShareAccess, except_bind_eq_ok_iff] at h
      obtain ⟨-, -, h⟩ := h
      split at h
      case h_1 => cases h
      case h_2 =>
        split at h
        case isTrue => exact hsame h
        case isFalse => exact hcommit h
  | commit event => exact hcommit h
  | commitShared event identity order =>
      obtain ⟨horigin, -, hrecord⟩ := recordInserted_of_commitShared h
      exact .committedShared event identity order horigin hrecord
  | replayFromBase =>
      obtain ⟨snapshot, applied, hloaded, hrun, hcomplete, hnext⟩ := replayFromBase_keeps h
      exact .rebuilt snapshot applied hloaded hrun hcomplete hnext
  | compactJournal =>
      rcases compactJournal_cases h with ⟨-, hnext⟩ | hcompacted
      · exact .nothing hnext
      · exact .compacted _ hcompacted
  | setJournalRetentionPolicy policy =>
      exact .configured policy node.journalCompactionBlocked (Except.ok.inj h).symm
  | setJournalCompactionBlocked blocked =>
      exact .configured node.journalRetentionPolicy blocked (Except.ok.inj h).symm

/-- An operation leaves local sync states that were there, and new ones. -/
theorem statesFrom_of_operated (h : NodeOperated app ids nowUs node next) :
    StatesFrom node.fields.linkSyncStates next.fields.linkSyncStates := by
  cases h with
  | nothing same =>
      subst same
      exact StatesFrom.refl _
  | configured policy blocked same =>
      subst same
      exact StatesFrom.refl _
  | committed event inserted => exact statesFrom_of_recordInserted inserted
  | committedShared event identity order origin inserted =>
      exact statesFrom_of_recordInserted inserted
  | rebuilt snapshot applied loaded run complete result =>
      subst result
      exact (statesFrom_loadBase node.fields snapshot).trans (statesFrom_of_applyRecords run)
  | compacted collapse compaction =>
      cases compaction with
      | everything nothingLeft result =>
          subst result
          exact StatesFrom.refl _
      | folded snapshot before after loaded prefixRun pc retainedRun rc result =>
          subst result
          exact ((statesFrom_loadBase node.fields snapshot).trans
            (statesFrom_of_applyRecords prefixRun)).trans
              (statesFrom_of_applyRecords retainedRun)

/-- An operation keeps the identity of its Node. -/
theorem objId_of_operated (h : NodeOperated app ids nowUs node next) :
    next.objId = node.objId := by
  cases h with
  | nothing same => rw [same]
  | configured policy blocked same => rw [same]
  | committed event inserted => exact inserted.objId
  | committedShared event identity order origin inserted => exact inserted.objId
  | rebuilt snapshot applied loaded run complete result => rw [result]
  | compacted collapse compaction =>
      cases compaction with
      | everything nothingLeft result =>
          rw [result]
          rfl
      | folded snapshot before after loaded prefixRun pc retainedRun rc result =>
          rw [result]
          rfl

end Operations

end AppTraverse
