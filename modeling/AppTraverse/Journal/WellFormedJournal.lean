import AppTraverse.Journal.Compaction

/-!
# The shape of a journal, and insertions that fail

A journal in order, with timestamps and without a repeated shared identity, stays so
under every call, whether the call succeeds or not.  A record that would be appended but
does not apply is taken out again.  What such a call leaves behind is the Node as
`TryEnsureCurrentGeneration` leaves it: its unapplied records are applied, and the cursor
counts the whole journal.  The sentinel `kJournalFullyMaterialized` and that count are the
same cursor to every later call.
-/

namespace AppTraverse

open Foundations

section Shape

variable {ε : Type}

/-- No shared identity stands twice in the journal. -/
def DistinctIdentities (journal : List (EventRecord ε)) : Prop :=
  journal.Pairwise fun a b =>
    a.hasSharedIdentity = true → b.hasSharedIdentity = true → a.identity ≠ b.identity

/-- A journal as the library keeps it. -/
structure WellFormedJournal (journal : List (EventRecord ε)) : Prop where
  sorted : JournalSorted journal
  timestamps : ∀ record ∈ journal, record.order.timestampUs ≠ 0
  identities : DistinctIdentities journal

variable {journal : List (EventRecord ε)} {record : EventRecord ε}

theorem WellFormedJournal.sublist (h : WellFormedJournal journal)
    {part : List (EventRecord ε)} (hpart : part.Sublist journal) : WellFormedJournal part where
  sorted := h.sorted.sublist hpart
  timestamps other hother := h.timestamps other (hpart.subset hother)
  identities := h.identities.sublist hpart

theorem hasRecordWithIdentity_eq_true_iff {identity : SharedEventId} :
    hasRecordWithIdentity journal identity = true ↔
      ∃ existing ∈ journal, existing.hasSharedIdentity = true ∧
        existing.identity = identity := by
  simp [hasRecordWithIdentity]

/-- An accepted record keeps the shape of the journal it is put into. -/
theorem WellFormedJournal.insert (h : WellFormedJournal journal)
    (htimestamp : record.order.timestampUs ≠ 0)
    (hunknown : record.hasSharedIdentity = true →
      hasRecordWithIdentity journal record.identity = false) :
    WellFormedJournal (lowerBoundInsert eventRecordOrderLess record journal) where
  sorted := by
    have hless : ∀ a b : EventRecord ε, eventRecordOrderLess a b = true ↔
        a.order.timestampUs.toNat < b.order.timestampUs.toNat := fun _ _ =>
      eventRecordOrderLess_iff
    exact pairwise_lowerBoundInsert hless h.sorted
  timestamps := by
    intro other hother
    rcases mem_lowerBoundInsert.mp hother with rfl | hmem
    · exact htimestamp
    · exact h.timestamps other hmem
  identities := by
    have hnew : ∀ other ∈ journal, record.hasSharedIdentity = true →
        other.hasSharedIdentity = true → record.identity ≠ other.identity := by
      intro other hother hshared hsharedOther hsame
      have hknown := hasRecordWithIdentity_eq_true_iff.mpr
        ⟨other, hother, hsharedOther, hsame.symm⟩
      rw [hunknown hshared] at hknown
      cases hknown
    apply (lowerBoundInsert_perm eventRecordOrderLess record journal).symm.pairwise
      (List.pairwise_cons.mpr ⟨hnew, h.identities⟩)
    intro a b hab hb ha hsame
    exact hab ha hb hsame.symm

end Shape

section Insertion

variable {σ β ε : Type} {cls : NodeClass σ β ε} {node after : Node σ β ε}
  {record : EventRecord ε} {nowUs : UInt64} {ok : Bool}

theorem tryRebuildFromBaseAndReplay_journal {rebuilt : Node σ β ε}
    (h : tryRebuildFromBaseAndReplay cls node = .ok (rebuilt, ok)) :
    rebuilt.journal = node.journal := by
  cases hbase : node.base.obj with
  | none => simp [tryRebuildFromBaseAndReplay, hbase] at h
  | some snapshot =>
      rw [tryRebuildFromBaseAndReplay_eq cls hbase] at h
      obtain ⟨applied, -, h⟩ := except_bind_eq_ok_iff.mp h
      obtain ⟨rfl, -⟩ := Prod.mk.inj (Except.ok.inj h)
      rfl

/-- The journal after `TryInsertEvent`, whatever it returned: as before, or with the
accepted record at its place. -/
theorem tryInsertEvent_journal (h : tryInsertEvent cls node record nowUs = .ok (after, ok)) :
    (after.journal = node.journal ∧ ok = false) ∨
      (RecordAccepted node.journal record ∧
        after.journal = insertedJournal node record nowUs) := by
  by_cases hready : node.HasBase ∧ RecordAccepted node.journal record
  case neg =>
    rw [tryInsertEvent_refused hready] at h
    cases h
    exact Or.inl ⟨rfl, rfl⟩
  case pos =>
    obtain ⟨hbase, haccepted⟩ := hready
    rw [tryInsertEvent_accepted hbase haccepted] at h
    split at h
    case isTrue hend =>
      obtain ⟨applied, -, h⟩ := except_bind_eq_ok_iff.mp h
      split at h
      case isTrue =>
        cases h
        exact Or.inr ⟨haccepted, (lowerBoundInsert_eq_append hend).symm⟩
      case isFalse =>
        cases h
        exact Or.inl ⟨rfl, rfl⟩
    case isFalse =>
      exact Or.inr ⟨haccepted, tryRebuildFromBaseAndReplay_journal h⟩

theorem WellFormedJournal.tryInsertEvent (h : WellFormedJournal node.journal)
    (hinsert : AppTraverse.tryInsertEvent cls node record nowUs = .ok (after, ok)) :
    WellFormedJournal after.journal := by
  rcases tryInsertEvent_journal hinsert with ⟨hsame, -⟩ | ⟨haccepted, hinserted⟩
  · rw [hsame]
    exact h
  · rw [hinserted]
    apply h.insert
    · rw [stamped_order]
      exact haccepted.timestamp
    · rw [stamped_hasSharedIdentity, stamped_identity]
      exact haccepted.unknown

theorem WellFormedJournal.tryCommitShared (h : WellFormedJournal node.journal)
    {event : Ref ε} {identity : SharedEventId} {order : SharedEventOrder}
    (hcommit : AppTraverse.tryCommitShared cls node event identity order nowUs =
      .ok (after, ok)) : WellFormedJournal after.journal := by
  unfold AppTraverse.tryCommitShared at hcommit
  split at hcommit
  case isTrue =>
    cases hcommit
    exact h
  case isFalse =>
  split at hcommit
  case h_1 =>
    cases hcommit
    exact h
  case h_2 =>
  split at hcommit
  case isTrue => exact h.tryInsertEvent hcommit
  case isFalse =>
    cases hcommit
    exact h

theorem WellFormedJournal.commit (h : WellFormedJournal node.journal) {event : Ref ε}
    (hcommit : AppTraverse.commit cls node event nowUs = .ok after) :
    WellFormedJournal after.journal := by
  obtain ⟨-, hinserted⟩ := recordInserted_of_commit hcommit
  rw [hinserted.journal]
  apply h.insert
  · rw [stamped_order]
    exact hinserted.timestamp
  · rw [stamped_hasSharedIdentity, stamped_identity]
    exact hinserted.unknown

theorem WellFormedJournal.compactJournal (h : WellFormedJournal node.journal)
    (hcompact : AppTraverse.compactJournal cls node nowUs = .ok after) :
    WellFormedJournal after.journal := by
  rcases compactJournal_cases hcompact with ⟨-, rfl⟩ | hcompacted
  · exact h
  cases hcompacted with
  | everything hnothing hresult =>
      rw [hresult]
      exact h.sublist (List.nil_sublist _)
  | folded snapshot before rest hloaded hprefix hprefixComplete hretained hcomplete hresult =>
      rw [hresult]
      exact h.sublist (List.drop_sublist _ _)

end Insertion

section Cursor

variable {σ β ε : Type} (cls : NodeClass σ β ε)

/-- The Node with its cursor as a count. -/
def Node.settled (node : Node σ β ε) : Node σ β ε :=
  { node with appliedJournalSize := some node.cursor }

/-- The calls of a Node that report failure instead of asserting it, the ones that assert,
and its housekeeping. -/
inductive JournalOperation (ε : Type) where
  | tryEnsureCurrentGeneration
  | tryReplayFromBase
  | tryInsertEvent (record : EventRecord ε) (nowUs : UInt64)
  | tryCommitShared (event : Ref ε) (identity : SharedEventId) (order : SharedEventOrder)
      (nowUs : UInt64)
  | commit (event : Ref ε) (nowUs : UInt64)
  | compactJournal (nowUs : UInt64)
  | setJournalRetentionPolicy (policy : JournalRetentionPolicy)
  | setJournalCompactionBlocked (blocked : Bool)
  | adoptMaterializedPersistentCheckpointJournal

/-- A call and what it returns; a call without a result returns `true`. -/
def operate (node : Node σ β ε) : JournalOperation ε → Except Fault (Node σ β ε × Bool)
  | .tryEnsureCurrentGeneration => tryEnsureCurrentGeneration cls node
  | .tryReplayFromBase => tryRebuildFromBaseAndReplay cls node
  | .tryInsertEvent record nowUs => tryInsertEvent cls node record nowUs
  | .tryCommitShared event identity order nowUs =>
      tryCommitShared cls node event identity order nowUs
  | .commit event nowUs => do
      let next ← commit cls node event nowUs
      pure (next, true)
  | .compactJournal nowUs => do
      let next ← compactJournal cls node nowUs
      pure (next, true)
  | .setJournalRetentionPolicy policy =>
      .ok ({ node with journalRetentionPolicy := policy }, true)
  | .setJournalCompactionBlocked blocked =>
      .ok ({ node with journalCompactionBlocked := blocked }, true)
  | .adoptMaterializedPersistentCheckpointJournal =>
      .ok ({ node with appliedJournalSize := none }, true)

/-- What a caller sees of a sequence of calls: after each of them the Node, its cursor as
a count, and the result; or the assertion that ends the sequence. -/
def outcomes (node : Node σ β ε) : List (JournalOperation ε) → List (Except Fault (Node σ β ε × Bool))
  | [] => []
  | operation :: rest =>
      match operate cls node operation with
      | .error fault => [.error fault]
      | .ok (next, ok) => .ok (next.settled, ok) :: outcomes next rest

variable {cls} {node other : Node σ β ε}

@[simp] theorem settled_settled : node.settled.settled = node.settled := rfl

@[simp] theorem cursor_settled : node.settled.cursor = node.cursor := rfl

@[simp] theorem journal_settled : node.settled.journal = node.journal := rfl

/-- A rebuild does not look at the cursor. -/
theorem tryRebuildFromBaseAndReplay_settled (journal : List (EventRecord ε)) :
    tryRebuildFromBaseAndReplay cls { node.settled with journal := journal } =
      tryRebuildFromBaseAndReplay cls { node with journal := journal } := by
  cases hbase : node.base.obj with
  | none => simp [tryRebuildFromBaseAndReplay, Node.settled, hbase]
  | some snapshot => simp [tryRebuildFromBaseAndReplay, Node.settled, hbase, tryReplayJournal]

/-- An outcome with the cursor of the Node as a count. -/
def settleOutcome (outcome : Node σ β ε × Bool) : Node σ β ε × Bool :=
  (outcome.1.settled, outcome.2)

theorem tryEnsureCurrentGeneration_settled :
    tryEnsureCurrentGeneration cls node.settled = tryEnsureCurrentGeneration cls node := by
  cases hsize : node.appliedJournalSize with
  | some size => simp [Node.settled, Node.cursor, hsize, tryEnsureCurrentGeneration]
  | none =>
      simp [Node.settled, Node.cursor, hsize, tryEnsureCurrentGeneration, applyRecords, bind,
        Except.bind, pure, Except.pure]

theorem tryInsertEvent_settled {record : EventRecord ε} {nowUs : UInt64} :
    (tryInsertEvent cls node.settled record nowUs).map settleOutcome =
      (tryInsertEvent cls node record nowUs).map settleOutcome := by
  by_cases hready : node.HasBase ∧ RecordAccepted node.journal record
  case neg =>
    have hready' : ¬ (node.settled.HasBase ∧ RecordAccepted node.settled.journal record) :=
      hready
    rw [tryInsertEvent_refused hready, tryInsertEvent_refused hready']
    rfl
  case pos =>
    have hready' : node.settled.HasBase ∧ RecordAccepted node.settled.journal record := hready
    rw [tryInsertEvent_accepted hready.1 hready.2,
      tryInsertEvent_accepted hready'.1 hready'.2, cursor_settled, journal_settled]
    cases lowerBoundAtEnd eventRecordOrderLess (record.stamped nowUs) node.journal with
    | true => rfl
    | false =>
        exact congrArg (Except.map settleOutcome)
          (tryRebuildFromBaseAndReplay_settled (insertedJournal node record nowUs))

/-- Two computations that agree up to `f` go on alike. -/
theorem except_bind_map_congr {α γ δ : Type} {f : α → γ} {h : δ → δ}
    {x y : Except Fault α} {k k' : α → Except Fault δ} (hstart : x.map f = y.map f)
    (hnext : ∀ a b, f a = f b → (k a).map h = (k' b).map h) :
    (x >>= k).map h = (y >>= k').map h := by
  cases x with
  | error fault => cases y with
    | error fault' =>
        cases hstart
        rfl
    | ok b => cases hstart
  | ok a => cases y with
    | error fault => cases hstart
    | ok b => exact hnext a b (Except.ok.inj hstart)

theorem insertEvent_settled {record : EventRecord ε} {nowUs : UInt64} :
    (insertEvent cls node.settled record nowUs).map Node.settled =
      (insertEvent cls node record nowUs).map Node.settled := by
  apply except_bind_map_congr tryInsertEvent_settled
  rintro ⟨left, ok⟩ ⟨right, ok'⟩ hsame
  obtain ⟨hnode, rfl⟩ := Prod.mk.inj hsame
  apply except_bind_map_congr (f := id) rfl
  rintro - - -
  exact congrArg Except.ok hnode

theorem commit_settled {event : Ref ε} {nowUs : UInt64} :
    (commit cls node.settled event nowUs).map Node.settled =
      (commit cls node event nowUs).map Node.settled := by
  unfold commit
  apply except_bind_map_congr (f := id) rfl
  rintro - - -
  cases event.obj with
  | none => rfl
  | some value =>
      apply except_bind_map_congr (f := id) rfl
      rintro - - -
      exact insertEvent_settled

theorem tryCommitShared_settled {event : Ref ε} {identity : SharedEventId}
    {order : SharedEventOrder} {nowUs : UInt64} :
    (tryCommitShared cls node.settled event identity order nowUs).map settleOutcome =
      (tryCommitShared cls node event identity order nowUs).map settleOutcome := by
  unfold tryCommitShared
  split
  case isTrue => rfl
  case isFalse =>
  cases event.obj with
  | none => rfl
  | some value =>
      show Except.map settleOutcome (if _ then _ else _) = Except.map settleOutcome (if _ then _ else _)
      split
      case isTrue => exact tryInsertEvent_settled
      case isFalse => rfl

theorem compactJournal_settled {nowUs : UInt64} :
    (compactJournal cls node.settled nowUs).map Node.settled =
      (compactJournal cls node nowUs).map Node.settled := by
  have hcollapse : collapsiblePrefixCount node.settled nowUs =
      collapsiblePrefixCount node nowUs := rfl
  unfold compactJournal
  simp only [hcollapse, journal_settled]
  split
  case isTrue => rfl
  case isFalse =>
  split
  case isTrue =>
    -- Everything is folded: the cursor of the captured Node is overwritten.
    have hcapture : (captureBaseState cls { node.settled with journal := [] }).map
        (fun captured => { captured with appliedJournalSize := none }) =
        (captureBaseState cls { node with journal := [] }).map
          (fun captured => { captured with appliedJournalSize := none }) := by
      unfold captureBaseState
      repeat
        apply except_bind_map_congr (f := id) rfl
        rintro - - -
      rfl
    apply except_bind_map_congr hcapture
    intro left right hsame
    exact congrArg (fun captured => Except.ok
      (Node.settled { captured with generation := node.generation })) hsame
  case isFalse =>
    have hrebuild : replayFromBase cls { node.settled with
          journal := node.journal.take (collapsiblePrefixCount node nowUs) } =
        replayFromBase cls { node with
          journal := node.journal.take (collapsiblePrefixCount node nowUs) } := by
      unfold replayFromBase
      rw [tryRebuildFromBaseAndReplay_settled]
    rw [hrebuild]
    rfl

/-- Every call does the same from the Node and from the Node with its cursor as a
count. -/
theorem operate_settled (operation : JournalOperation ε) :
    (operate cls node.settled operation).map settleOutcome =
      (operate cls node operation).map settleOutcome := by
  cases operation with
  | tryEnsureCurrentGeneration =>
      show (tryEnsureCurrentGeneration cls node.settled).map settleOutcome = _
      rw [tryEnsureCurrentGeneration_settled]
      rfl
  | tryReplayFromBase =>
      exact congrArg (Except.map settleOutcome)
        (tryRebuildFromBaseAndReplay_settled node.journal)
  | tryInsertEvent record nowUs => exact tryInsertEvent_settled
  | tryCommitShared event identity order nowUs => exact tryCommitShared_settled
  | commit event nowUs =>
      apply except_bind_map_congr commit_settled
      intro left right hsame
      exact congrArg (fun next => Except.ok (next, true)) hsame
  | compactJournal nowUs =>
      apply except_bind_map_congr compactJournal_settled
      intro left right hsame
      exact congrArg (fun next => Except.ok (next, true)) hsame
  | setJournalRetentionPolicy policy => rfl
  | setJournalCompactionBlocked blocked => rfl
  | adoptMaterializedPersistentCheckpointJournal => rfl

/-- One call from Nodes that differ in how the cursor is spelled. -/
theorem operate_congr (h : node.settled = other.settled) (operation : JournalOperation ε) :
    (operate cls node operation).map settleOutcome =
      (operate cls other operation).map settleOutcome := by
  rw [← operate_settled, h, operate_settled]

/-- No sequence of calls tells apart two Nodes that differ in how the cursor is
spelled. -/
theorem outcomes_congr (h : node.settled = other.settled)
    (operations : List (JournalOperation ε)) :
    outcomes cls node operations = outcomes cls other operations := by
  induction operations generalizing node other with
  | nil => rfl
  | cons operation rest ih =>
      have hcall : (operate cls node operation).map settleOutcome = _ :=
        operate_congr h operation
      unfold outcomes
      cases hnode : operate cls node operation with
      | error fault =>
          cases hother : operate cls other operation with
          | error fault' =>
              rw [hnode, hother] at hcall
              cases hcall
              rfl
          | ok result =>
              rw [hnode, hother] at hcall
              cases hcall
      | ok result =>
          cases hother : operate cls other operation with
          | error fault =>
              rw [hnode, hother] at hcall
              cases hcall
          | ok result' =>
              rw [hnode, hother] at hcall
              obtain ⟨hnext, hok⟩ := Prod.mk.inj (Except.ok.inj hcall)
              show Except.ok (result.1.settled, result.2) :: outcomes cls result.1 rest =
                Except.ok (result'.1.settled, result'.2) :: outcomes cls result'.1 rest
              rw [ih hnext, hnext, hok]

end Cursor

section Failure

variable {σ β ε : Type} {cls : NodeClass σ β ε} {node current : Node σ β ε}
  {record : EventRecord ε} {nowUs : UInt64}

/-- A replay of records that all apply, and then of one more. -/
theorem applyRecords_append {fields : σ} {front back : List (EventRecord ε)}
    {applied : Applied σ} (hfront : applyRecords cls fields front = .ok applied)
    (hcomplete : applied.complete = true) :
    applyRecords cls fields (front ++ back) = (do
      let rest ← applyRecords cls applied.fields back
      pure { rest with count := applied.count + rest.count }) := by
  induction front generalizing fields applied with
  | nil =>
      cases hfront
      rw [List.nil_append]
      cases hback : applyRecords cls fields back with
      | error fault => rfl
      | ok rest => simp [bind, Except.bind, pure, Except.pure]
  | cons first others ih =>
      cases happlies : recordApplies cls fields first with
      | false =>
          rw [applyRecords_cons_of_not_applies cls happlies] at hfront
          cases hfront
          cases hcomplete
      | true =>
          obtain ⟨event, hevent⟩ := exists_event_of_applies cls happlies
          rw [applyRecords_cons_of_applies cls happlies hevent] at hfront
          obtain ⟨next, hnext, hfront⟩ := except_bind_eq_ok_iff.mp hfront
          obtain ⟨tail, htail, hfront⟩ := except_bind_eq_ok_iff.mp hfront
          cases hfront
          rw [List.cons_append, applyRecords_cons_of_applies cls happlies hevent, hnext]
          show (do
            let applied ← applyRecords cls next (others ++ back)
            pure { applied with count := applied.count + 1 }) = _
          rw [ih htail hcomplete]
          cases applyRecords cls tail.fields back with
          | error fault => rfl
          | ok rest =>
              simp [bind, Except.bind, pure, Except.pure]
              omega

/-- What `TryEnsureCurrentGeneration` did when it reported success. -/
theorem tryEnsureCurrentGeneration_complete
    (h : tryEnsureCurrentGeneration cls node = .ok (current, true)) :
    ∃ applied, applyRecords cls node.fields (node.journal.drop node.cursor) = .ok applied ∧
      applied.complete = true ∧
      current.settled = { node with
        fields := applied.fields
        appliedJournalSize := some (node.cursor + applied.count)
        generation := node.generation + applied.count } := by
  rw [← tryEnsureCurrentGeneration_settled] at h
  obtain ⟨applied, hrun, h⟩ := except_bind_eq_ok_iff.mp h
  obtain ⟨rfl, hcomplete⟩ := Prod.mk.inj (Except.ok.inj h)
  exact ⟨applied, hrun, hcomplete, rfl⟩

/-- What an append of an inadmissible record leaves behind: the Node brought up to date,
without the record.  A Node without unapplied records is as it was. -/
structure FailedAppend (cls : NodeClass σ β ε) (node current after : Node σ β ε) : Prop where
  journal : after.journal = node.journal
  upToDate : after.settled = current.settled
  laterCalls : ∀ operations, outcomes cls after operations = outcomes cls current operations
  fields : node.IsMaterialized → after.fields = node.fields
  asBefore : node.IsMaterialized →
    ∀ operations, outcomes cls after operations = outcomes cls node operations

/-- A record that would be appended, and does not apply at the end state, is taken out
again. -/
theorem tryInsertEvent_failedAppend {value : ε} (hbase : node.HasBase)
    (haccepted : RecordAccepted node.journal record)
    (hend : lowerBoundAtEnd eventRecordOrderLess (record.stamped nowUs) node.journal = true)
    (hrange : node.cursor ≤ node.journal.length)
    (hcurrent : tryEnsureCurrentGeneration cls node = .ok (current, true))
    (hvalue : record.event.obj = some value)
    (hcan : cls.canApplyTo current.fields value = false) :
    ∃ after, tryInsertEvent cls node record nowUs = .ok (after, false) ∧
      FailedAppend cls node current after := by
  obtain ⟨applied, hrun, hcomplete, hsettled⟩ := tryEnsureCurrentGeneration_complete hcurrent
  have hfields : current.fields = applied.fields := congrArg Node.fields hsettled
  have hcount : applied.count = node.journal.length - node.cursor := by
    rw [count_of_applyRecords hrun hcomplete, List.length_drop]
  have hdrop : (node.journal ++ [record.stamped nowUs]).drop node.cursor =
      node.journal.drop node.cursor ++ [record.stamped nowUs] :=
    List.drop_append_of_le_length hrange
  have happlies : recordApplies cls applied.fields (record.stamped nowUs) = false := by
    rw [recordApplies, stamped_event, hvalue, ← hfields]
    simp [hcan]
  have hinsert : tryInsertEvent cls node record nowUs = .ok ({ node with
      fields := applied.fields
      appliedJournalSize := some node.journal.length
      generation := node.generation + applied.count }, false) := by
    rw [tryInsertEvent_accepted hbase haccepted, hend, hdrop,
      applyRecords_append hrun hcomplete, applyRecords_cons_of_not_applies cls happlies]
    rfl
  have hupToDate : ({ node with
      fields := applied.fields
      appliedJournalSize := some node.journal.length
      generation := node.generation + applied.count } : Node σ β ε).settled =
      current.settled := by
    rw [hsettled, hcount, Nat.add_sub_cancel' hrange]
    rfl
  have hsame : node.IsMaterialized → current.settled = node.settled := by
    intro hfull
    have hcursor : node.cursor = node.journal.length := hfull
    rw [hcursor, List.drop_length] at hrun
    cases hrun
    rw [hsettled]
    rfl
  refine ⟨_, hinsert, rfl, hupToDate, outcomes_congr hupToDate, ?_, ?_⟩
  · intro hfull
    have hkept := congrArg Node.fields (hsame hfull)
    exact hfields.symm.trans hkept
  · intro hfull
    exact outcomes_congr (hupToDate.trans (hsame hfull))

/-- A successful insertion put the record into its place and moved no other record. -/
theorem insertedJournal_of_tryInsertEvent {after : Node σ β ε}
    (h : tryInsertEvent cls node record nowUs = .ok (after, true)) :
    ∃ before rest, node.journal = before ++ rest ∧
      after.journal = before ++ record.stamped nowUs :: rest := by
  rw [(recordInserted_of_tryInsertEvent h).journal]
  exact exists_lowerBoundInsert_split eventRecordOrderLess _ _

/-- Every insertion and every compaction keeps the shape of the journal; a successful
insertion adds its record and moves no other; a known identity changes nothing; and a
failed append leaves the Node up to date and otherwise as it was. -/
theorem insertion_keepsJournal (hjournal : WellFormedJournal node.journal) :
    (∀ record nowUs after ok, tryInsertEvent cls node record nowUs = .ok (after, ok) →
      WellFormedJournal after.journal ∧ (ok = true →
        ∃ before rest, node.journal = before ++ rest ∧
          after.journal = before ++ record.stamped nowUs :: rest)) ∧
    (∀ event nowUs after, commit cls node event nowUs = .ok after →
      WellFormedJournal after.journal) ∧
    (∀ event identity order nowUs after ok,
      tryCommitShared cls node event identity order nowUs = .ok (after, ok) →
      WellFormedJournal after.journal) ∧
    (∀ nowUs after, compactJournal cls node nowUs = .ok after →
      WellFormedJournal after.journal) ∧
    (∀ record nowUs, record.hasSharedIdentity = true →
      hasRecordWithIdentity node.journal record.identity = true →
      tryInsertEvent cls node record nowUs = .ok (node, false)) ∧
    (∀ record nowUs value current, node.HasBase → RecordAccepted node.journal record →
      lowerBoundAtEnd eventRecordOrderLess (record.stamped nowUs) node.journal = true →
      node.cursor ≤ node.journal.length →
      tryEnsureCurrentGeneration cls node = .ok (current, true) →
      record.event.obj = some value → cls.canApplyTo current.fields value = false →
      ∃ after, tryInsertEvent cls node record nowUs = .ok (after, false) ∧
        FailedAppend cls node current after) := by
  refine ⟨?_, ?_, ?_, ?_, ?_, ?_⟩
  · intro record nowUs after ok hinsert
    refine ⟨hjournal.tryInsertEvent hinsert, ?_⟩
    rintro rfl
    exact insertedJournal_of_tryInsertEvent hinsert
  · intro event nowUs after hcommit
    exact hjournal.commit hcommit
  · intro event identity order nowUs after ok hcommit
    exact hjournal.tryCommitShared hcommit
  · intro nowUs after hcompact
    exact hjournal.compactJournal hcompact
  · intro record nowUs hshared hknown
    apply tryInsertEvent_refused
    rintro ⟨-, haccepted⟩
    rw [haccepted.unknown hshared] at hknown
    cases hknown
  · intro record nowUs value current hbase haccepted hend hrange hcurrent hvalue hcan
    exact tryInsertEvent_failedAppend hbase haccepted hend hrange hcurrent hvalue hcan

end Failure

section PushedRecord

/-- A message without text, which no room admits. -/
def emptyMessage : MessageAddedEvent := ⟨⟨⟨[7], 50⟩, 9, []⟩⟩

/-- The record of the message without text. -/
def emptyMessageRecord : EventRecord (SharedNodeEvent MessageAddedEvent) where
  event := ⟨⟨50⟩, some (.app emptyMessage)⟩
  identity := ⟨[7], 50⟩
  order := ⟨9⟩
  retainedSinceUs := 100

/-- A room whose replay has counted its journal, before a message was pushed to the end of
the journal directly. -/
def pushedRoom : SharedNode Messages MessageAddedEvent :=
  { blankRoom with
    journal := [(messageArrival 11 5 100).record]
    appliedJournalSize := some 0 }

/-- A room whose counted journal was cleared directly. -/
def clearedRoom : SharedNode Messages MessageAddedEvent :=
  { blankRoom with appliedJournalSize := some 1 }

theorem wellFormedJournal_nil {ε : Type} : WellFormedJournal ([] : List (EventRecord ε)) where
  sorted := List.Pairwise.nil
  timestamps _ hrecord := by cases hrecord
  identities := List.Pairwise.nil

theorem wellFormedJournal_pushedRoom : WellFormedJournal pushedRoom.journal where
  sorted := List.pairwise_singleton _ _
  timestamps := by decide
  identities := List.pairwise_singleton _ _

theorem emptyMessage_accepted {journal : List (EventRecord (SharedNodeEvent MessageAddedEvent))}
    (h : hasRecordWithIdentity journal ⟨[7], 50⟩ = false) :
    RecordAccepted journal emptyMessageRecord :=
  ⟨by decide, by decide, by decide, fun _ => h⟩

/-- With an unapplied record in the journal a failed append changes the fields; with a
cursor past the journal an inadmissible record is appended. -/
theorem failedAppend_appliesPendingRecord :
    (∃ current after, WellFormedJournal pushedRoom.journal ∧ pushedRoom.HasBase ∧
      RecordAccepted pushedRoom.journal emptyMessageRecord ∧
      lowerBoundAtEnd eventRecordOrderLess (emptyMessageRecord.stamped 100)
        pushedRoom.journal = true ∧
      tryEnsureCurrentGeneration (chatRoom.nodeClass (idsFrom 1000)) pushedRoom =
        .ok (current, true) ∧
      (chatRoom.nodeClass (idsFrom 1000)).canApplyTo current.fields (.app emptyMessage) =
        false ∧
      tryInsertEvent (chatRoom.nodeClass (idsFrom 1000)) pushedRoom emptyMessageRecord 100 =
        .ok (after, false) ∧
      after.fields ≠ pushedRoom.fields) ∧
    (∃ after, WellFormedJournal clearedRoom.journal ∧ clearedRoom.HasBase ∧
      RecordAccepted clearedRoom.journal emptyMessageRecord ∧
      (chatRoom.nodeClass (idsFrom 1000)).canApplyTo clearedRoom.fields (.app emptyMessage) =
        false ∧
      tryInsertEvent (chatRoom.nodeClass (idsFrom 1000)) clearedRoom emptyMessageRecord 100 =
        .ok (after, true)) := by
  constructor
  · refine ⟨_, _, wellFormedJournal_pushedRoom, ⟨by decide, by decide⟩,
      emptyMessage_accepted (by decide), by decide, rfl, by decide, rfl, by decide⟩
  · exact ⟨_, wellFormedJournal_nil, ⟨by decide, by decide⟩,
      emptyMessage_accepted (by decide), by decide, rfl⟩

/-- A room with a message is given the message without text. -/
theorem room_keepsJournal : ∃ after,
    tryInsertEvent (chatRoom.nodeClass (idsFrom 1000))
        { pushedRoom with appliedJournalSize := none } emptyMessageRecord 100 =
      .ok (after, false) ∧
    after.fields = pushedRoom.fields := by
  have hjournal : WellFormedJournal
      ({ pushedRoom with appliedJournalSize := none } :
        SharedNode Messages MessageAddedEvent).journal := wellFormedJournal_pushedRoom
  obtain ⟨-, -, -, -, -, hfailed⟩ :=
    @insertion_keepsJournal _ _ _ (chatRoom.nodeClass (idsFrom 1000)) _ hjournal
  obtain ⟨after, hinsert, hkept⟩ := hfailed emptyMessageRecord 100 (.app emptyMessage) _
    ⟨by decide, by decide⟩ (emptyMessage_accepted (by decide)) (by decide) (by decide) rfl
    rfl (by decide)
  exact ⟨after, hinsert, hkept.fields rfl⟩

end PushedRecord

end AppTraverse
