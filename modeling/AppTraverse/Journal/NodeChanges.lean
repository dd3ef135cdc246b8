import AppTraverse.Journal.NodeReplay

/-!
# What a successful change of a Node did

`TryInsertEvent` and the commits over it, the rebuild and the compaction are
inverted once.  An insertion that succeeded put the stamped record at its lower
bound and replayed, the new record alone when it was appended and the whole journal
over the base otherwise.
-/

namespace AppTraverse

open Foundations

/-- The record that `TryInsertEvent` inserts: a retention stamp is set if there is
none. -/
def EventRecord.stamped {ε : Type} (record : EventRecord ε) (nowUs : UInt64) :
    EventRecord ε :=
  if record.retainedSinceUs = 0 then { record with retainedSinceUs := nowUs } else record

section Stamped

variable {ε : Type} (record : EventRecord ε) (nowUs : UInt64)

@[simp] theorem stamped_event : (record.stamped nowUs).event = record.event := by
  unfold EventRecord.stamped
  split <;> rfl

@[simp] theorem stamped_identity : (record.stamped nowUs).identity = record.identity := by
  unfold EventRecord.stamped
  split <;> rfl

@[simp] theorem stamped_order : (record.stamped nowUs).order = record.order := by
  unfold EventRecord.stamped
  split <;> rfl

@[simp] theorem stamped_hasSharedIdentity :
    (record.stamped nowUs).hasSharedIdentity = record.hasSharedIdentity := by
  simp [EventRecord.hasSharedIdentity]

end Stamped

section Insertion

variable {σ β ε : Type} {cls : NodeClass σ β ε} {node inserted : Node σ β ε}
  {record : EventRecord ε} {nowUs : UInt64}

/-- The fields of the Node are those after its whole journal. -/
def Node.IsMaterialized (node : Node σ β ε) : Prop :=
  node.appliedJournalSize.getD node.journal.length = node.journal.length

/-- A complete replay applies every record. -/
theorem count_of_applyRecords {fields : σ} {records : List (EventRecord ε)}
    {applied : Applied σ} (h : applyRecords cls fields records = .ok applied)
    (hcomplete : applied.complete = true) : applied.count = records.length := by
  have hinvariant := applyRecords_invariant cls (P := fun _ _ => True)
    (fun _ _ _ _ _ _ _ _ _ => trivial) trivial h
  exact hinvariant.2 hcomplete

/-- The journal after an insertion. -/
def insertedJournal (node : Node σ β ε) (record : EventRecord ε) (nowUs : UInt64) :
    List (EventRecord ε) :=
  lowerBoundInsert eventRecordOrderLess (record.stamped nowUs) node.journal

/-- The replay of a successful insertion: from where it started, over which records,
and what it reached. -/
inductive InsertionReplay (cls : NodeClass σ β ε) (node : Node σ β ε)
    (record : EventRecord ε) (nowUs : UInt64) (applied : Applied σ) : Prop where
  | appended
      (atEnd : lowerBoundAtEnd eventRecordOrderLess (record.stamped nowUs) node.journal =
        true)
      (run : applyRecords cls node.fields ((insertedJournal node record nowUs).drop
        (node.appliedJournalSize.getD node.journal.length)) = .ok applied)
  | rebuilt (snapshot : β)
      (notAtEnd : lowerBoundAtEnd eventRecordOrderLess (record.stamped nowUs) node.journal =
        false)
      (loaded : node.base.obj = some snapshot)
      (run : applyRecords cls (cls.loadBase node.fields snapshot)
        (insertedJournal node record nowUs) = .ok applied)

/-- What a successful insertion did. -/
structure RecordInserted (cls : NodeClass σ β ε) (node : Node σ β ε)
    (record : EventRecord ε) (nowUs : UInt64) (inserted : Node σ β ε) : Prop where
  baseValid : node.base.isValid = true
  eventValid : record.event.isValid = true
  eventLoaded : record.event.isLoaded = true
  timestamp : record.order.timestampUs ≠ 0
  unknown : record.hasSharedIdentity = true →
    hasRecordWithIdentity node.journal record.identity = false
  materialized : node.IsMaterialized → inserted.IsMaterialized
  replay : ∃ applied size generation, applied.complete = true ∧
    InsertionReplay cls node record nowUs applied ∧
    inserted = { node with
      journal := insertedJournal node record nowUs
      fields := applied.fields
      appliedJournalSize := some size
      generation := generation }

/-- `TryInsertEvent` gets past its checks. -/
structure RecordAccepted (journal : List (EventRecord ε)) (record : EventRecord ε) :
    Prop where
  eventValid : record.event.isValid = true
  eventLoaded : record.event.isLoaded = true
  timestamp : record.order.timestampUs ≠ 0
  unknown : record.hasSharedIdentity = true →
    hasRecordWithIdentity journal record.identity = false

/-- The base that `TryInsertEvent` asks for. -/
def Node.HasBase (node : Node σ β ε) : Prop :=
  node.base.isValid = true ∧ node.base.isLoaded = true

/-- The records that count as applied. -/
def Node.cursor (node : Node σ β ε) : Nat :=
  node.appliedJournalSize.getD node.journal.length

/-- `TryInsertEvent` refuses a record before it changes anything. -/
theorem tryInsertEvent_refused (h : ¬ (node.HasBase ∧ RecordAccepted node.journal record)) :
    tryInsertEvent cls node record nowUs = .ok (node, false) := by
  have hstamped : (if record.retainedSinceUs = 0 then
      { record with retainedSinceUs := nowUs } else record) = record.stamped nowUs := rfl
  unfold tryInsertEvent
  simp only [hstamped, stamped_hasSharedIdentity, stamped_identity]
  split
  case isTrue => rfl
  case isFalse hready =>
  split
  case isTrue => rfl
  case isFalse hunknown =>
  exfalso
  obtain ⟨⟨⟨⟨hvalid, hloaded⟩, heventValid⟩, heventLoaded⟩, htimestamp⟩ :
      (((node.base.isValid = true ∧ node.base.isLoaded = true) ∧
        record.event.isValid = true) ∧ record.event.isLoaded = true) ∧
        record.order.timestampUs ≠ 0 := by
    simpa [not_or] using hready
  apply h
  refine ⟨⟨hvalid, hloaded⟩, heventValid, heventLoaded, htimestamp, ?_⟩
  intro hshared
  simpa [hshared] using hunknown

/-- The checks of `TryInsertEvent` are passed. -/
theorem tryInsertEvent_accepted (hbase : node.HasBase)
    (haccepted : RecordAccepted node.journal record) :
    tryInsertEvent cls node record nowUs =
      if lowerBoundAtEnd eventRecordOrderLess (record.stamped nowUs) node.journal then do
        let applied ← applyRecords cls node.fields
          ((node.journal ++ [record.stamped nowUs]).drop node.cursor)
        if applied.complete then
          pure ({ node with
            journal := node.journal ++ [record.stamped nowUs]
            fields := applied.fields
            appliedJournalSize := some (node.cursor + applied.count)
            generation := node.generation + applied.count }, true)
        else
          pure ({ node with
            fields := applied.fields
            appliedJournalSize := some node.journal.length
            generation := node.generation + applied.count }, false)
      else
        tryRebuildFromBaseAndReplay cls
          { node with journal := insertedJournal node record nowUs } := by
  have hready : (!node.base.isValid || !node.base.isLoaded || !record.event.isValid ||
      !record.event.isLoaded || decide (record.order.timestampUs = 0)) = false := by
    simp [hbase.1, hbase.2, haccepted.eventValid, haccepted.eventLoaded, haccepted.timestamp]
  have hstamped : (if record.retainedSinceUs = 0 then
      { record with retainedSinceUs := nowUs } else record) = record.stamped nowUs := rfl
  have hunknown : (record.hasSharedIdentity &&
      hasRecordWithIdentity node.journal record.identity) = false := by
    cases hshared : record.hasSharedIdentity with
    | false => rfl
    | true => exact haccepted.unknown hshared
  unfold tryInsertEvent
  simp only [hready, hstamped, stamped_hasSharedIdentity, stamped_identity, hunknown,
    Bool.false_eq_true, if_false]
  cases hend : lowerBoundAtEnd eventRecordOrderLess (record.stamped nowUs) node.journal with
  | false => rfl
  | true =>
      have hjournal : lowerBoundInsert eventRecordOrderLess (record.stamped nowUs)
          node.journal = node.journal ++ [record.stamped nowUs] :=
        lowerBoundInsert_eq_append hend
      have hcursor : node.appliedJournalSize.getD
          ((node.journal ++ [record.stamped nowUs]).length - 1) = node.cursor := by
        simp [Node.cursor]
      simp only [hjournal, hcursor, tryEnsureCurrentGeneration, if_true]
      cases applyRecords cls node.fields
          ((node.journal ++ [record.stamped nowUs]).drop node.cursor) with
      | error fault => rfl
      | ok applied => cases hcomplete : applied.complete <;> simp [bind, Except.bind, pure,
          Except.pure, hcomplete]

/-- Inversion of `TryInsertEvent`. -/
theorem recordInserted_of_tryInsertEvent
    (h : tryInsertEvent cls node record nowUs = .ok (inserted, true)) :
    RecordInserted cls node record nowUs inserted := by
  by_cases hready : node.HasBase ∧ RecordAccepted node.journal record
  case neg =>
    rw [tryInsertEvent_refused hready] at h
    cases h
  obtain ⟨hbase, haccepted⟩ := hready
  rw [tryInsertEvent_accepted hbase haccepted] at h
  split at h
  case isTrue hend =>
    have happended : node.journal ++ [record.stamped nowUs] = insertedJournal node record nowUs :=
      (lowerBoundInsert_eq_append hend).symm
    have hlength : (insertedJournal node record nowUs).length = node.journal.length + 1 := by
      rw [← happended, List.length_append, List.length_singleton]
    rw [happended] at h
    obtain ⟨applied, hrun, h⟩ := except_bind_eq_ok_iff.mp h
    split at h
    case isTrue hcomplete =>
      cases h
      have hcount := count_of_applyRecords hrun hcomplete
      rw [List.length_drop] at hcount
      refine ⟨hbase.1, haccepted.eventValid, haccepted.eventLoaded, haccepted.timestamp,
        haccepted.unknown, ?_, applied, _, _, hcomplete, .appended hend hrun, rfl⟩
      intro hfull
      have hcursor : node.cursor = node.journal.length := hfull
      show node.cursor + applied.count = (insertedJournal node record nowUs).length
      omega
    case isFalse => cases h
  case isFalse hmiddle =>
    obtain ⟨snapshot, hsnapshot⟩ := Ref.isLoaded_iff.mp hbase.2
    have hrebuild := tryRebuildFromBaseAndReplay_eq cls
      (show ({ node with journal := insertedJournal node record nowUs } :
        Node σ β ε).base.obj = some snapshot from hsnapshot)
    rw [hrebuild] at h
    obtain ⟨applied, hrun, h⟩ := except_bind_eq_ok_iff.mp h
    obtain ⟨rfl, hcomplete⟩ := Prod.mk.inj (Except.ok.inj h)
    exact ⟨hbase.1, haccepted.eventValid, haccepted.eventLoaded, haccepted.timestamp,
      haccepted.unknown, fun _ => count_of_applyRecords hrun hcomplete, applied, _, _, hcomplete,
      .rebuilt snapshot (Bool.eq_false_of_not_eq_true hmiddle) hsnapshot hrun, rfl⟩

theorem recordInserted_accepted (h : RecordInserted cls node record nowUs inserted) :
    RecordAccepted node.journal record :=
  ⟨h.eventValid, h.eventLoaded, h.timestamp, h.unknown⟩

theorem recordInserted_of_insertEvent (h : insertEvent cls node record nowUs = .ok inserted) :
    RecordInserted cls node record nowUs inserted := by
  obtain ⟨⟨next, ok⟩, hinsert, h⟩ := except_bind_eq_ok_iff.mp h
  obtain ⟨checked, hok, h⟩ := except_bind_eq_ok_iff.mp h
  cases h
  have htrue : ok = true := assertThat_eq_ok_iff.mp hok
  subst htrue
  exact recordInserted_of_tryInsertEvent hinsert

/-- The record of a shared commit. -/
def sharedRecord (event : Ref ε) (identity : SharedEventId) (order : SharedEventOrder)
    (nowUs : UInt64) : EventRecord ε :=
  { event := event
    identity := identity
    order := order
    retainedSinceUs := nowUs }

/-- A shared commit succeeds where its checks pass and its record is inserted. -/
theorem tryCommitShared_iff {event : Ref ε} {identity : SharedEventId}
    {order : SharedEventOrder} :
    tryCommitShared cls node event identity order nowUs = .ok (inserted, true) ↔
      (event.isValid = true ∧ identity.originUid ≠ [] ∧ ∃ value, event.obj = some value ∧
        cls.matchesSharedMetadata value identity order = true) ∧
      tryInsertEvent cls node (sharedRecord event identity order nowUs) nowUs =
        .ok (inserted, true) := by
  unfold tryCommitShared
  by_cases hready : event.isValid = true ∧ identity.originUid ≠ []
  · rw [if_neg (by simpa [not_or] using hready)]
    cases hvalue : event.obj with
    | none => simp
    | some value =>
        cases hmatches : cls.matchesSharedMetadata value identity order with
        | true => simp [hready, sharedRecord, hmatches]
        | false => simp [hmatches]
  · rw [if_pos (by
      simp only [Bool.or_eq_true, Bool.not_eq_true', List.isEmpty_iff]
      by_contra hnot
      rw [not_or, Bool.not_eq_false] at hnot
      exact hready hnot)]
    constructor
    · intro hfalse
      cases hfalse
    · rintro ⟨⟨hvalid, horigin, -⟩, -⟩
      exact absurd ⟨hvalid, horigin⟩ hready

theorem commitShared_eq_ok_iff {event : Ref ε} {identity : SharedEventId}
    {order : SharedEventOrder} :
    commitShared cls node event identity order nowUs = .ok inserted ↔
      tryCommitShared cls node event identity order nowUs = .ok (inserted, true) := by
  unfold commitShared
  constructor
  · intro h
    obtain ⟨⟨next, ok⟩, hinsert, h⟩ := except_bind_eq_ok_iff.mp h
    obtain ⟨checked, hok, h⟩ := except_bind_eq_ok_iff.mp h
    cases h
    rw [hinsert, show ok = true from assertThat_eq_ok_iff.mp hok]
  · intro h
    rw [h]
    rfl

/-- Inversion of `TryCommitSharedInto`. -/
theorem recordInserted_of_tryCommitShared {event : Ref ε} {identity : SharedEventId}
    {order : SharedEventOrder}
    (h : tryCommitShared cls node event identity order nowUs = .ok (inserted, true)) :
    identity.originUid ≠ [] ∧
      (∃ value, event.obj = some value ∧
        cls.matchesSharedMetadata value identity order = true) ∧
      RecordInserted cls node (sharedRecord event identity order nowUs) nowUs inserted := by
  obtain ⟨⟨-, horigin, hmatches⟩, hinsert⟩ := tryCommitShared_iff.mp h
  exact ⟨horigin, hmatches, recordInserted_of_tryInsertEvent hinsert⟩

/-- Inversion of `CommitShared`. -/
theorem recordInserted_of_commitShared {event : Ref ε} {identity : SharedEventId}
    {order : SharedEventOrder}
    (h : commitShared cls node event identity order nowUs = .ok inserted) :
    identity.originUid ≠ [] ∧
      (∃ value, event.obj = some value ∧
        cls.matchesSharedMetadata value identity order = true) ∧
      RecordInserted cls node (sharedRecord event identity order nowUs) nowUs inserted :=
  recordInserted_of_tryCommitShared (commitShared_eq_ok_iff.mp h)

/-- The record of a local commit. -/
def localRecord (journal : List (EventRecord ε)) (event : Ref ε) (nowUs : UInt64) :
    EventRecord ε :=
  { event := event
    order := ⟨commitTimestamp journal nowUs⟩
    retainedSinceUs := nowUs }

/-- Inversion of `Commit`. -/
theorem recordInserted_of_commit {event : Ref ε}
    (h : commit cls node event nowUs = .ok inserted) :
    (∃ value, event.obj = some value ∧ cls.canApplyTo node.fields value = true) ∧
      RecordInserted cls node (localRecord node.journal event nowUs) nowUs inserted := by
  unfold commit at h
  obtain ⟨valid, -, h⟩ := except_bind_eq_ok_iff.mp h
  split at h
  case h_1 => cases h
  case h_2 value hvalue =>
    obtain ⟨checked, hcan, h⟩ := except_bind_eq_ok_iff.mp h
    exact ⟨⟨value, hvalue, assertThat_eq_ok_iff.mp hcan⟩, recordInserted_of_insertEvent h⟩

namespace RecordInserted

variable (h : RecordInserted cls node record nowUs inserted)

include h

theorem objId : inserted.objId = node.objId := by
  obtain ⟨applied, size, generation, -, -, rfl⟩ := h.replay
  rfl

theorem classId : inserted.classId = node.classId := by
  obtain ⟨applied, size, generation, -, -, rfl⟩ := h.replay
  rfl

theorem base : inserted.base = node.base := by
  obtain ⟨applied, size, generation, -, -, rfl⟩ := h.replay
  rfl

theorem journal : inserted.journal = insertedJournal node record nowUs := by
  obtain ⟨applied, size, generation, -, -, rfl⟩ := h.replay
  rfl

/-- The new journal has the stamped record and the records it had. -/
theorem mem_journal {other : EventRecord ε} :
    other ∈ inserted.journal ↔ other = record.stamped nowUs ∨ other ∈ node.journal := by
  rw [h.journal, insertedJournal, mem_lowerBoundInsert]

end RecordInserted

/-- The journal is in order. -/
def JournalSorted (journal : List (EventRecord ε)) : Prop :=
  journal.Pairwise fun a b => a.order.timestampUs.toNat ≤ b.order.timestampUs.toNat

theorem eventRecordOrderLess_iff {a b : EventRecord ε} :
    eventRecordOrderLess a b = true ↔
      a.order.timestampUs.toNat < b.order.timestampUs.toNat := by
  simp [eventRecordOrderLess, sharedEventOrderLess, UInt64.lt_iff_toNat_lt]

theorem RecordInserted.sorted (h : RecordInserted cls node record nowUs inserted)
    (hsorted : JournalSorted node.journal) : JournalSorted inserted.journal := by
  rw [h.journal]
  have hless : ∀ a b : EventRecord ε, eventRecordOrderLess a b = true ↔
      a.order.timestampUs.toNat < b.order.timestampUs.toNat := fun _ _ =>
    eventRecordOrderLess_iff
  exact pairwise_lowerBoundInsert hless hsorted

/-- A local commit goes to the end of its journal: its timestamp is past the last one,
unless that was the greatest there is, and then it is zero. -/
theorem localRecord_atEnd {event : Ref ε} (hsorted : JournalSorted node.journal)
    (htimestamp : (localRecord node.journal event nowUs).order.timestampUs ≠ 0) :
    lowerBoundAtEnd eventRecordOrderLess
      ((localRecord node.journal event nowUs).stamped nowUs) node.journal = true := by
  rw [lowerBoundAtEnd, List.isEmpty_iff, List.dropWhile_eq_nil_iff]
  intro other hother
  rw [eventRecordOrderLess_iff, stamped_order]
  rcases List.eq_nil_or_concat node.journal with hnil | ⟨before, last, hlast⟩
  · rw [hnil] at hother
    cases hother
  rw [List.concat_eq_append] at hlast
  have hle : other.order.timestampUs.toNat ≤ last.order.timestampUs.toNat := by
    rw [JournalSorted, hlast, List.pairwise_append] at hsorted
    rw [hlast] at hother
    rcases List.mem_append.mp hother with hmem | hmem
    · exact hsorted.2.2 other hmem last List.mem_cons_self
    · rw [List.mem_singleton.mp hmem]
  have hnext : (localRecord node.journal event nowUs).order.timestampUs =
      if nowUs ≤ last.order.timestampUs then last.order.timestampUs + 1 else nowUs := by
    simp [localRecord, commitTimestamp, hlast]
  rw [hnext] at htimestamp ⊢
  split at htimestamp
  case isTrue hbehind =>
    rw [if_pos hbehind]
    have hpos : (last.order.timestampUs + 1).toNat ≠ 0 := by
      intro hzero
      exact htimestamp (UInt64.toNat_inj.mp hzero)
    rw [UInt64.toNat_add] at hpos ⊢
    have hone : (1 : UInt64).toNat = 1 := rfl
    have hbound := last.order.timestampUs.toNat_lt
    omega
  case isFalse hahead =>
    rw [if_neg hahead]
    rw [UInt64.le_iff_toNat_le] at hahead
    omega

/-- A local commit on a materialized Node applies its Event to the fields. -/
theorem applied_of_localRecord {event : Ref ε} {value : ε}
    (h : RecordInserted cls node (localRecord node.journal event nowUs) nowUs inserted)
    (hevent : event.obj = some value) (hsorted : JournalSorted node.journal)
    (hfull : node.IsMaterialized) :
    inserted.journal =
        node.journal ++ [(localRecord node.journal event nowUs).stamped nowUs] ∧
      cls.canApplyTo node.fields value = true ∧
      cls.applyTo node.fields event.id value = .ok inserted.fields := by
  have hend := localRecord_atEnd hsorted h.timestamp
  have hjournal : insertedJournal node (localRecord node.journal event nowUs) nowUs =
      node.journal ++ [(localRecord node.journal event nowUs).stamped nowUs] :=
    lowerBoundInsert_eq_append hend
  obtain ⟨applied, size, generation, hcomplete, hreplay, hinserted⟩ := h.replay
  have hfields : inserted.fields = applied.fields := by rw [hinserted]
  refine ⟨by rw [h.journal, hjournal], ?_⟩
  cases hreplay with
  | rebuilt snapshot hmiddle hbase hrun =>
      rw [hend] at hmiddle
      cases hmiddle
  | appended hatEnd hrun =>
      rw [hfull, hjournal, List.drop_left] at hrun
      have hvalue : ((localRecord node.journal event nowUs).stamped nowUs).event.obj =
          some value := by
        rw [stamped_event]
        exact hevent
      cases happlies : recordApplies cls node.fields
          ((localRecord node.journal event nowUs).stamped nowUs) with
      | false =>
          rw [applyRecords_cons_of_not_applies cls happlies] at hrun
          cases hrun
          cases hcomplete
      | true =>
          rw [applyRecords_cons_of_applies cls happlies hvalue] at hrun
          obtain ⟨next, hnext, hrun⟩ := except_bind_eq_ok_iff.mp hrun
          cases hrun
          rw [stamped_event] at hnext
          rw [hfields]
          refine ⟨?_, hnext⟩
          rw [recordApplies, hvalue, Bool.and_eq_true] at happlies
          exact happlies.2

end Insertion

section Rebuild

variable {σ β ε : Type} {cls : NodeClass σ β ε} {node next : Node σ β ε}

/-- The Node that a rebuild returns keeps its identity, its base and its journal. -/
theorem replayFromBase_keeps (h : replayFromBase cls node = .ok next) :
    ∃ snapshot applied, node.base.obj = some snapshot ∧
      applyRecords cls (cls.loadBase node.fields snapshot) node.journal = .ok applied ∧
      applied.complete = true ∧
      next = { node with
        fields := applied.fields
        appliedJournalSize := some applied.count
        generation := 1 + applied.count } := by
  unfold replayFromBase at h
  obtain ⟨⟨rebuilt, ok⟩, hrebuild, h⟩ := except_bind_eq_ok_iff.mp h
  obtain ⟨checked, hok, h⟩ := except_bind_eq_ok_iff.mp h
  cases h
  have hcomplete : ok = true := assertThat_eq_ok_iff.mp hok
  subst hcomplete
  cases hbase : node.base.obj with
  | none => simp [tryRebuildFromBaseAndReplay, hbase] at hrebuild
  | some snapshot =>
      rw [tryRebuildFromBaseAndReplay_eq cls hbase] at hrebuild
      obtain ⟨applied, hrun, hrebuild⟩ := except_bind_eq_ok_iff.mp hrebuild
      obtain ⟨rfl, hcomplete⟩ := Prod.mk.inj (Except.ok.inj hrebuild)
      exact ⟨snapshot, applied, rfl, hrun, hcomplete, rfl⟩

/-- The Node with a base snapshot of the given fields. -/
def Node.rebased (cls : NodeClass σ β ε) (node : Node σ β ε) (fields : σ) : Node σ β ε :=
  { node with base := ⟨node.base.id, some (cls.saveBase fields)⟩ }

theorem captureBaseState_eq_ok (h : captureBaseState cls node = .ok next) :
    next = node.rebased cls node.fields := by
  simp only [captureBaseState, except_bind_eq_ok_iff] at h
  obtain ⟨-, -, -, -, -, -, -, -, h⟩ := h
  exact (Except.ok.inj h).symm

/-- What a compaction that did something did: the folded prefix is the new base, and
the retained records were replayed over it. -/
inductive JournalCompacted (cls : NodeClass σ β ε) (node compacted : Node σ β ε)
    (collapse : Nat) : Prop where
  | everything
      (nothingLeft : node.journal.drop collapse = [])
      (result : compacted =
        { node.rebased cls node.fields with
          journal := []
          appliedJournalSize := none })
  | folded (snapshot : β) (before after : Applied σ)
      (loaded : node.base.obj = some snapshot)
      (prefixRun : applyRecords cls (cls.loadBase node.fields snapshot)
        (node.journal.take collapse) = .ok before)
      (prefixComplete : before.complete = true)
      (retainedRun : applyRecords cls before.fields (node.journal.drop collapse) =
        .ok after)
      (retainedComplete : after.complete = true)
      (result : compacted =
        { node.rebased cls before.fields with
          journal := node.journal.drop collapse
          fields := after.fields
          appliedJournalSize := none })

/-- Inversion of `CompactJournalInto`. -/
theorem compactJournal_cases {nowUs : UInt64} (h : compactJournal cls node nowUs = .ok next) :
    (collapsiblePrefixCount node nowUs = 0 ∧ next = node) ∨
      JournalCompacted cls node next (collapsiblePrefixCount node nowUs) := by
  unfold compactJournal at h
  simp only at h
  split at h
  case isTrue hzero => exact Or.inl ⟨hzero, (Except.ok.inj h).symm⟩
  case isFalse =>
  right
  split at h
  case isTrue hempty =>
    obtain ⟨captured, hcaptured, h⟩ := except_bind_eq_ok_iff.mp h
    cases h
    rw [captureBaseState_eq_ok hcaptured]
    exact .everything (List.isEmpty_iff.mp hempty) rfl
  case isFalse =>
    obtain ⟨rebuilt, hrebuilt, h⟩ := except_bind_eq_ok_iff.mp h
    obtain ⟨captured, hcaptured, h⟩ := except_bind_eq_ok_iff.mp h
    obtain ⟨⟨replayed, ok⟩, hreplayed, h⟩ := except_bind_eq_ok_iff.mp h
    obtain ⟨checked, hok, h⟩ := except_bind_eq_ok_iff.mp h
    cases h
    have hcomplete : ok = true := assertThat_eq_ok_iff.mp hok
    subst hcomplete
    obtain ⟨snapshot, before, hloaded, hstart, hstartComplete, rfl⟩ :=
      replayFromBase_keeps hrebuilt
    cases captureBaseState_eq_ok hcaptured
    simp only [tryReplayJournal, tryEnsureCurrentGeneration, List.drop_zero] at hreplayed
    obtain ⟨after, hafter, hreplayed⟩ := except_bind_eq_ok_iff.mp hreplayed
    obtain ⟨rfl, hretainedComplete⟩ := Prod.mk.inj (Except.ok.inj hreplayed)
    exact .folded snapshot before after hloaded hstart hstartComplete hafter
      hretainedComplete rfl

/-- A compaction returns when the prefix can be replayed over the base and the rest over
that. -/
theorem compactJournal_returns {nowUs : UInt64} {snapshot : β} {before after : Applied σ}
    (hbase : node.base.obj = some snapshot) (hvalid : node.base.isValid = true)
    (hother : node.base.id ≠ node.objId)
    (hstart : applyRecords cls (cls.loadBase node.fields snapshot)
      (node.journal.take (collapsiblePrefixCount node nowUs)) = .ok before)
    (hstartComplete : before.complete = true)
    (hretained : applyRecords cls before.fields
      (node.journal.drop (collapsiblePrefixCount node nowUs)) = .ok after)
    (hretainedComplete : after.complete = true) :
    ∃ next, compactJournal cls node nowUs = .ok next := by
  have hloaded : node.base.isLoaded = true := Ref.isLoaded_iff.mpr ⟨snapshot, hbase⟩
  unfold compactJournal
  simp only
  split
  case isTrue => exact ⟨node, rfl⟩
  case isFalse =>
  split
  case isTrue =>
    simp [captureBaseState, hvalid, hloaded, hother, assertThat, bind, Except.bind, pure,
      Except.pure]
  case isFalse =>
    have hrebuild := tryRebuildFromBaseAndReplay_eq cls
      (show ({ node with journal := node.journal.take (collapsiblePrefixCount node nowUs) } :
        Node σ β ε).base.obj = some snapshot from hbase)
    simp [replayFromBase, hrebuild, hstart, hstartComplete, captureBaseState, hvalid,
      hloaded, hother, tryReplayJournal, tryEnsureCurrentGeneration, hretained,
      hretainedComplete, assertThat, bind, Except.bind, pure, Except.pure]

/-- A rebuild returns when the journal can be replayed over the base. -/
theorem replayFromBase_returns {snapshot : β} {applied : Applied σ}
    (hbase : node.base.obj = some snapshot)
    (hrun : applyRecords cls (cls.loadBase node.fields snapshot) node.journal = .ok applied)
    (hcomplete : applied.complete = true) : ∃ next, replayFromBase cls node = .ok next := by
  simp [replayFromBase, tryRebuildFromBaseAndReplay_eq cls hbase, hrun, hcomplete, assertThat,
    bind, Except.bind, pure, Except.pure]

end Rebuild

end AppTraverse
