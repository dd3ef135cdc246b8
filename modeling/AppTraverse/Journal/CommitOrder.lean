import AppTraverse.Journal.WellFormedJournal

/-!
# Where a local commit lands

`CommitInto` takes the wall clock, or the last timestamp plus one in 64 bits when the
clock is not past it.  The sum wraps after the greatest timestamp, which a peer may have
chosen, and the last record need not be the latest one in a journal that came with a
snapshot.  Everywhere else the new record is the last and the latest.
-/

namespace AppTraverse

open Foundations

section CommitOrder

variable {σ β ε : Type} (cls : NodeClass σ β ε)

/-- The Nodes of a replica: new ones, those of an admitted snapshot, and what calls and
changes of the local sync state make of them. -/
inductive Node.Reachable : Node σ β ε → Prop where
  | created (objId baseId : ObjId) (classId : ClassId) (fields : σ)
      (valid : baseId.isValid = true) :
      Reachable (initializeRuntimeNode cls objId classId baseId fields)
  | imported {loaded node : Node σ β ε} (valid : loaded.base.isValid = true)
      (timestamps : ∀ record ∈ loaded.journal, record.order.timestampUs ≠ 0)
      (replayed : replayFromBase cls loaded = .ok node) : Reachable node
  | called {node next : Node σ β ε} {call : NodeCall ε} (before : Reachable node)
      (step : callStep cls node call = some next) : Reachable next
  | synced {node : Node σ β ε} (fields : σ) (before : Reachable node) :
      Reachable { node with fields := fields }

/-- `Commit` appends a record with the latest timestamp of the journal and applies its
Event to the fields. -/
def LandsLast (node : Node σ β ε) (event : Ref ε) (nowUs : UInt64) : Prop :=
  ∃ next record value, commit cls node event nowUs = .ok next ∧
    next.journal = node.journal ++ [record] ∧
    record.event = event ∧
    record.order.timestampUs ≠ 0 ∧
    (∀ other ∈ node.journal, other.order.timestampUs < record.order.timestampUs) ∧
    event.obj = some value ∧
    cls.applyTo node.fields event.id value = .ok next.fields

/-- There is a timestamp after the journal: the clock is not at zero for the first record,
the last record does not carry the greatest timestamp, and no earlier record is later than
both the last one and the clock. -/
def Node.LeavesTimestamp (node : Node σ β ε) (nowUs : UInt64) : Prop :=
  (node.journal = [] → nowUs ≠ 0) ∧
    ∀ last, node.journal.getLast? = some last →
      last.order.timestampUs.toNat < 2 ^ 64 - 1 ∧
        ∀ other ∈ node.journal,
          other.order.timestampUs ≤ last.order.timestampUs ∨ other.order.timestampUs < nowUs

variable {cls} {node next : Node σ β ε} {nowUs : UInt64}

/-- Every call leaves a Node with its base and with its fields at the end of its
journal. -/
theorem callStep_keepsBase {call : NodeCall ε} (hbase : node.HasBase)
    (hfull : node.IsMaterialized) (hstep : callStep cls node call = some next) :
    next.HasBase ∧ next.IsMaterialized := by
  cases call with
  | journal call =>
      rcases journalStep_cases hstep with ⟨record, nowUs, hinserted⟩ | hrebuilt
      · refine ⟨?_, hinserted.materialized hfull⟩
        rw [Node.HasBase, hinserted.base]
        exact hbase
      · obtain ⟨snapshot, applied, -, hrun, hcomplete, rfl⟩ := replayFromBase_keeps hrebuilt
        exact ⟨hbase, count_of_applyRecords hrun hcomplete⟩
  | compactJournal nowUs =>
      rcases compactJournal_cases (toOption_eq_some_iff.mp hstep) with ⟨-, rfl⟩ | hcompacted
      · exact ⟨hbase, hfull⟩
      cases hcompacted with
      | everything hnothing hresult =>
          rw [hresult]
          exact ⟨⟨hbase.1, rfl⟩, rfl⟩
      | folded snapshot before rest hloaded hprefix hprefixComplete hretained hcomplete
          hresult =>
          rw [hresult]
          exact ⟨⟨hbase.1, rfl⟩, rfl⟩
  | setJournalRetentionPolicy policy =>
      cases hstep
      exact ⟨hbase, hfull⟩
  | setJournalCompactionBlocked blocked =>
      cases hstep
      exact ⟨hbase, hfull⟩
  | adoptMaterializedPersistentCheckpointJournal =>
      cases hstep
      exact ⟨hbase, rfl⟩

theorem Node.Reachable.keepsBase (h : node.Reachable cls) :
    node.HasBase ∧ node.IsMaterialized := by
  induction h with
  | created objId baseId classId fields valid => exact ⟨⟨valid, rfl⟩, rfl⟩
  | imported valid timestamps replayed =>
      obtain ⟨snapshot, applied, hbase, hrun, hcomplete, rfl⟩ := replayFromBase_keeps replayed
      exact ⟨⟨valid, Ref.isLoaded_iff.mpr ⟨snapshot, hbase⟩⟩,
        count_of_applyRecords hrun hcomplete⟩
  | called before step ih => exact callStep_keepsBase ih.1 ih.2 step
  | synced fields before ih => exact ih

/-- The new record goes to the end exactly when every other one is earlier. -/
theorem lowerBoundAtEnd_iff {record : EventRecord ε} {journal : List (EventRecord ε)} :
    lowerBoundAtEnd eventRecordOrderLess record journal = true ↔
      ∀ other ∈ journal, other.order.timestampUs < record.order.timestampUs := by
  rw [lowerBoundAtEnd, List.isEmpty_iff, List.dropWhile_eq_nil_iff]
  simp only [eventRecordOrderLess_iff, UInt64.lt_iff_toNat_lt]

/-- The timestamp of a local commit, in each of the two cases of the clock. -/
theorem commitTimestamp_of_last {journal : List (EventRecord ε)} {last : EventRecord ε}
    (hlast : journal.getLast? = some last) :
    commitTimestamp journal nowUs =
      if nowUs ≤ last.order.timestampUs then last.order.timestampUs + 1 else nowUs := by
  rw [commitTimestamp, hlast]

/-- A timestamp is left exactly when the one that `CommitInto` takes is not zero and later
than the whole journal. -/
theorem commitTimestamp_isLatest_iff :
    (commitTimestamp node.journal nowUs ≠ 0 ∧
        ∀ other ∈ node.journal,
          other.order.timestampUs < commitTimestamp node.journal nowUs) ↔
      node.LeavesTimestamp nowUs := by
  cases hlast : node.journal.getLast? with
  | none =>
      have hempty : node.journal = [] := List.getLast?_eq_none_iff.mp hlast
      simp [Node.LeavesTimestamp, hempty, commitTimestamp]
  | some last =>
      have hmem : last ∈ node.journal := List.mem_of_getLast? hlast
      have hnonempty : node.journal ≠ [] := List.ne_nil_of_mem hmem
      have hbound := last.order.timestampUs.toNat_lt
      have hone : (1 : UInt64).toNat = 1 := rfl
      have hzero : (0 : UInt64).toNat = 0 := rfl
      rw [commitTimestamp_of_last hlast]
      simp only [Node.LeavesTimestamp, hlast, hnonempty, Option.some.injEq, forall_eq',
        false_implies, true_and]
      split
      case isTrue hbehind =>
        simp only [UInt64.le_iff_toNat_le, UInt64.lt_iff_toNat_lt, ne_eq, ← UInt64.toNat_inj,
          UInt64.toNat_add, hone, hzero] at hbehind ⊢
        constructor
        · rintro ⟨hpos, hlater⟩
          refine ⟨by omega, fun other hother => Or.inl ?_⟩
          have hother := hlater other hother
          omega
        · rintro ⟨hroom, hlatest⟩
          refine ⟨by omega, fun other hother => ?_⟩
          have hother := hlatest other hother
          omega
      case isFalse hahead =>
        simp only [UInt64.le_iff_toNat_le, UInt64.lt_iff_toNat_lt, ne_eq, ← UInt64.toNat_inj,
          hzero] at hahead ⊢
        have hnow := nowUs.toNat_lt
        constructor
        · rintro ⟨-, hlater⟩
          exact ⟨by omega, fun other hother => Or.inr (hlater other hother)⟩
        · rintro ⟨-, hlatest⟩
          refine ⟨by omega, fun other hother => ?_⟩
          have hother := hlatest other hother
          omega

/-- In every state of a Node and at every reading of the clock, a local commit of an Event
that applies lands last exactly when a timestamp is left. -/
theorem commit_landsLast_iff (hnode : node.Reachable cls) {event : Ref ε} {value : ε}
    {fields : σ} (hvalid : event.isValid = true) (hvalue : event.obj = some value)
    (hcan : cls.canApplyTo node.fields value = true)
    (happly : cls.applyTo node.fields event.id value = .ok fields) :
    LandsLast cls node event nowUs ↔ node.LeavesTimestamp nowUs := by
  obtain ⟨hbase, hfull⟩ := hnode.keepsBase
  have hcursor : node.cursor = node.journal.length := hfull
  rw [← commitTimestamp_isLatest_iff]
  constructor
  · rintro ⟨next, record, known, hcommit, hjournal, -, hpositive, hlatest, -, -⟩
    obtain ⟨-, hinserted⟩ := recordInserted_of_commit hcommit
    -- The record at the end is the one that the commit made.
    have hmade : (localRecord node.journal event nowUs).stamped nowUs ∈ next.journal :=
      hinserted.mem_journal.mpr (Or.inl rfl)
    refine ⟨hinserted.timestamp, ?_⟩
    obtain ⟨before, rest, hsplit, hinsert⟩ := exists_lowerBoundInsert_split
      eventRecordOrderLess ((localRecord node.journal event nowUs).stamped nowUs) node.journal
    rw [hinserted.journal, insertedJournal, hinsert] at hjournal
    rcases List.eq_nil_or_concat rest with rfl | ⟨rest, last, rfl⟩
    · have hbefore : before = node.journal := by rw [hsplit, List.append_nil]
      rw [hbefore] at hjournal
      have hsame := List.singleton_inj.mp (List.append_cancel_left hjournal)
      rw [← hsame, stamped_order] at hlatest
      exact hlatest
    · -- The last record of the journal would be the new one, and later than itself.
      have hlast : last = record := by
        rw [List.concat_eq_append, ← List.cons_append, ← List.append_assoc] at hjournal
        exact List.singleton_inj.mp (List.append_inj' hjournal rfl).2
      have hmem : record ∈ node.journal := by
        rw [hsplit, ← hlast]
        simp
      exact absurd (hlatest record hmem) (UInt64.lt_irrefl _)
  · rintro ⟨hpositive, hlatest⟩
    have haccepted : RecordAccepted node.journal (localRecord node.journal event nowUs) :=
      ⟨hvalid, Ref.isLoaded_iff.mpr ⟨value, hvalue⟩, hpositive, fun hshared => by cases hshared⟩
    have hend : lowerBoundAtEnd eventRecordOrderLess
        ((localRecord node.journal event nowUs).stamped nowUs) node.journal = true := by
      rw [lowerBoundAtEnd_iff, stamped_order]
      exact hlatest
    have happlies : recordApplies cls node.fields
        ((localRecord node.journal event nowUs).stamped nowUs) = true := by
      rw [recordApplies, stamped_event]
      simp [localRecord, hvalid, hvalue, hcan]
    have hrun : applyRecords cls node.fields
        [(localRecord node.journal event nowUs).stamped nowUs] = .ok ⟨fields, 1, true⟩ := by
      rw [applyRecords_cons_of_applies cls happlies (by rw [stamped_event]; exact hvalue),
        stamped_event]
      show (do
        let next ← cls.applyTo node.fields event.id value
        let applied ← applyRecords cls next []
        pure { applied with count := applied.count + 1 }) = _
      rw [happly]
      rfl
    have hinsert : tryInsertEvent cls node (localRecord node.journal event nowUs) nowUs = _ :=
      tryInsertEvent_accepted hbase haccepted
    rw [hend, hcursor, List.drop_left] at hinsert
    rw [hrun] at hinsert
    have hcommit : commit cls node event nowUs =
        insertEvent cls node (localRecord node.journal event nowUs) nowUs := by
      simp only [commit, hvalid, hvalue, hcan, assertThat, if_true, bind, Except.bind]
      rfl
    refine ⟨{ node with
        journal := node.journal ++ [(localRecord node.journal event nowUs).stamped nowUs]
        fields := fields
        appliedJournalSize := some (node.journal.length + 1)
        generation := node.generation + 1 },
      (localRecord node.journal event nowUs).stamped nowUs, value, ?_, rfl, ?_, ?_, ?_,
      hvalue, happly⟩
    · rw [hcommit, insertEvent, hinsert]
      rfl
    · exact stamped_event _ _
    · rw [stamped_order]
      exact hpositive
    · rw [stamped_order]
      exact hlatest

end CommitOrder

section LastTimestamp

/-- A message of a peer with the greatest timestamp that a frame can carry. -/
def lastTimestampMessage : Arrival (SharedNodeEvent MessageAddedEvent) :=
  messageArrival 11 0xffffffffffffffff 100

/-- A Share that the replica adds itself. -/
def localShare : Ref (SharedNodeEvent MessageAddedEvent) :=
  ⟨⟨60⟩, some (.addShare ⟨⟨61⟩, none⟩ 1)⟩

theorem blankRoom_reachable : blankRoom.Reachable (chatRoom.nodeClass (idsFrom 1000)) :=
  .created ⟨1⟩ ⟨2⟩ chatRoomClassId (⟨[], [], [], []⟩ : SharedNodeFields Messages) (by decide)

/-- After a message with the greatest timestamp the next local commit asserts. -/
theorem commitAfterLastTimestamp_asserts : ∃ node,
    node.Reachable (chatRoom.nodeClass (idsFrom 1000)) ∧
      runActions (callStep (chatRoom.nodeClass (idsFrom 1000))) blankRoom
        [.journal lastTimestampMessage.call] = some node ∧
      (∃ value fields, localShare.obj = some value ∧
        (chatRoom.nodeClass (idsFrom 1000)).canApplyTo node.fields value = true ∧
        (chatRoom.nodeClass (idsFrom 1000)).applyTo node.fields localShare.id value =
          .ok fields) ∧
      commit (chatRoom.nodeClass (idsFrom 1000)) node localShare 1700000000000000 =
        .error .assertFailed ∧
      ¬ LandsLast (chatRoom.nodeClass (idsFrom 1000)) node localShare 1700000000000000 := by
  have hsome : (callStep (chatRoom.nodeClass (idsFrom 1000)) blankRoom
      (.journal lastTimestampMessage.call)).isSome = true := by decide
  obtain ⟨node, hstep⟩ := Option.isSome_iff_exists.mp hsome
  have hnode : node.Reachable (chatRoom.nodeClass (idsFrom 1000)) :=
    .called blankRoom_reachable hstep
  have hrun : runActions (callStep (chatRoom.nodeClass (idsFrom 1000))) blankRoom
      [.journal lastTimestampMessage.call] = some node := runActions_cons.mpr ⟨node, hstep, rfl⟩
  have hasserts : commit (chatRoom.nodeClass (idsFrom 1000)) node localShare
      1700000000000000 = .error .assertFailed := by
    cases hstep
    rfl
  have hcan : ∃ value fields, localShare.obj = some value ∧
      (chatRoom.nodeClass (idsFrom 1000)).canApplyTo node.fields value = true ∧
      (chatRoom.nodeClass (idsFrom 1000)).applyTo node.fields localShare.id value =
        .ok fields := by
    cases hstep
    exact ⟨_, _, rfl, rfl, rfl⟩
  refine ⟨node, hnode, hrun, hcan, hasserts, ?_⟩
  rintro ⟨next, record, value, hcommit, -⟩
  rw [hasserts] at hcommit
  cases hcommit

/-- A new room commits a Share. -/
theorem share_landsLast :
    LandsLast (chatRoom.nodeClass (idsFrom 1000)) blankRoom localShare 100 ↔
      blankRoom.LeavesTimestamp 100 :=
  commit_landsLast_iff blankRoom_reachable (by decide) rfl rfl rfl

end LastTimestamp

end AppTraverse
