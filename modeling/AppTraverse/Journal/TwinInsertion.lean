import AppTraverse.Journal.JournalFold

/-!
# One insertion into two Nodes

Without pending records `TryInsertEvent` is one replay of the serialized state: of the new
record alone when it lands at the end, of the whole journal over the base otherwise.  So two
Nodes that agree on the journal, on the serialized state and on the base give the same answer
to the same Event, whatever their cursors, their generations and their local fields are.
-/

namespace AppTraverse

open Foundations

section Outcome

variable {σ β ε τ : Type} {cls : NodeClass σ β ε} (S : SerializedFields cls τ)

/-- What an insertion of this stamped record replays, and how far that gets. -/
def SerializedFields.insertion (node : Node σ β ε) (snapshot : β) (record : EventRecord ε) :
    τ × Bool :=
  if lowerBoundAtEnd eventRecordOrderLess record node.journal then
    S.replay (S.view node.fields) [record]
  else
    S.replay (S.ofBase snapshot) (lowerBoundInsert eventRecordOrderLess record node.journal)

/-- The Node has no pending record, stands over this base and can search its local fields. -/
structure Node.IsReady (node : Node σ β ε) (snapshot : β) : Prop where
  materialized : node.IsMaterialized
  baseValid : node.base.isValid = true
  base : node.base.obj = some snapshot
  sound : S.sound node.fields

variable {S} {node after : Node σ β ε} {snapshot : β} {record : EventRecord ε} {nowUs : UInt64}

theorem Node.IsReady.hasBase (h : node.IsReady S snapshot) : node.HasBase :=
  ⟨h.baseValid, Ref.isLoaded_iff.mpr ⟨snapshot, h.base⟩⟩

/-- A successful insertion completed its replay. -/
theorem Node.IsReady.insertion_of_inserted (h : node.IsReady S snapshot)
    (hinserted : RecordInserted cls node record nowUs after) :
    S.insertion node snapshot (record.stamped nowUs) = (S.view after.fields, true) := by
  obtain ⟨applied, size, generation, hcomplete, hreplay, rfl⟩ := hinserted.replay
  unfold SerializedFields.insertion
  cases hreplay with
  | appended atEnd run =>
      rw [h.materialized, insertedJournal, lowerBoundInsert_eq_append atEnd, List.drop_left]
        at run
      rw [if_pos atEnd, S.replay_of_applyRecords run, hcomplete]
  | rebuilt snapshot' notAtEnd loaded run =>
      cases loaded.symm.trans h.base
      have hrun := S.replay_of_applyRecords run
      rw [S.view_loadBase, hcomplete] at hrun
      rw [if_neg (by rw [notAtEnd]; exact Bool.false_ne_true)]
      exact hrun

/-- An accepted record whose replay completes is inserted. -/
theorem Node.IsReady.exists_inserted (h : node.IsReady S snapshot)
    (haccepted : RecordAccepted node.journal record) {state : τ}
    (hreplay : S.insertion node snapshot (record.stamped nowUs) = (state, true)) :
    ∃ after, tryInsertEvent cls node record nowUs = .ok (after, true) := by
  rw [tryInsertEvent_accepted h.hasBase haccepted]
  unfold SerializedFields.insertion at hreplay
  cases hend : lowerBoundAtEnd eventRecordOrderLess (record.stamped nowUs) node.journal with
  | true =>
      rw [hend, if_pos rfl] at hreplay
      obtain ⟨applied, hrun, hcomplete, -, -⟩ := S.applyRecords_of_replay h.sound hreplay
      have hpending : (node.journal ++ [record.stamped nowUs]).drop node.cursor =
          [record.stamped nowUs] := by
        rw [show node.cursor = node.journal.length from h.materialized, List.drop_left]
      rw [if_pos rfl, hpending, hrun]
      simp only [bind, Except.bind, hcomplete, if_true, pure, Except.pure]
      exact ⟨_, rfl⟩
  | false =>
      rw [hend, if_neg Bool.false_ne_true, ← S.view_loadBase node.fields] at hreplay
      obtain ⟨applied, hrun, hcomplete, -, -⟩ :=
        S.applyRecords_of_replay (S.sound_loadBase _ snapshot h.sound) hreplay
      have hrebuild := tryRebuildFromBaseAndReplay_eq cls
        (show ({ node with journal := insertedJournal node record nowUs } :
          Node σ β ε).base.obj = some snapshot from h.base)
      rw [if_neg Bool.false_ne_true, hrebuild]
      show ∃ after, (applyRecords cls (cls.loadBase node.fields snapshot)
        (lowerBoundInsert eventRecordOrderLess (record.stamped nowUs) node.journal) >>= _) = _
      rw [hrun]
      simp only [bind, Except.bind, hcomplete, pure, Except.pure]
      exact ⟨_, rfl⟩

end Outcome

/-- What a record says, whichever id its Event has at this replica and since whenever it is
retained there. -/
def EventRecord.content {ε : Type} (record : EventRecord ε) :
    SharedEventId × SharedEventOrder × Option ε :=
  (record.identity, record.order, record.event.obj)

section Twins

variable {σ β σ' β' ε τ : Type} {cls : NodeClass σ β ε} {cls' : NodeClass σ' β' ε}
  (S : SerializedFields cls τ) (S' : SerializedFields cls' τ)

/-- Records that do the same to the serialized state are replayed alike. -/
theorem SerializedFields.replay_eq_of_steps {records records' : List (EventRecord ε)}
    (h : List.Forall₂ (fun record record' => ∀ state,
      S.step state record = S'.step state record') records records') (state : τ) :
    S.replay state records = S'.replay state records' := by
  induction h generalizing state with
  | nil => rfl
  | cons hstep hrest ih =>
      rw [S.replay_cons, S'.replay_cons, hstep]
      cases S'.step state _ with
      | none => rfl
      | some next => exact ih next

/-- Two Nodes that agree on all that an insertion reads, and two records for them that do
the same. -/
structure TwinInsertions (node : Node σ β ε) (node' : Node σ' β' ε)
    (record record' : EventRecord ε) : Prop where
  steps : ∀ other state, S.step state other = S'.step state other
  journal : node'.journal = node.journal
  view : S'.view node'.fields = S.view node.fields
  ready : ∃ snapshot, node.IsReady S snapshot
  ready' : ∃ snapshot', node'.IsReady S' snapshot'
  base : ∀ snapshot snapshot', node.base.obj = some snapshot →
    node'.base.obj = some snapshot' → S'.ofBase snapshot' = S.ofBase snapshot
  recordSteps : ∀ state, S.step state record = S'.step state record'
  identity : record'.identity = record.identity
  order : record'.order = record.order
  retained : record'.retainedSinceUs = record.retainedSinceUs
  eventValid : record'.event.isValid = record.event.isValid
  event : record'.event.obj = record.event.obj

namespace TwinInsertions

variable {S S'} {node after : Node σ β ε} {node' : Node σ' β' ε} {record record' : EventRecord ε}
  {nowUs : UInt64}

theorem symm (h : TwinInsertions S S' node node' record record') :
    TwinInsertions S' S node' node record' record where
  steps other state := (h.steps other state).symm
  journal := h.journal.symm
  view := h.view.symm
  ready := h.ready'
  ready' := h.ready
  base snapshot snapshot' hbase hbase' := (h.base snapshot' snapshot hbase' hbase).symm
  recordSteps state := (h.recordSteps state).symm
  identity := h.identity.symm
  order := h.order.symm
  retained := h.retained.symm
  eventValid := h.eventValid.symm
  event := h.event.symm

/-- The place where a record lands depends on its timestamp only. -/
theorem eventRecordOrderLess_stamped (h : TwinInsertions S S' node node' record record') :
    (eventRecordOrderLess · (record'.stamped nowUs)) =
      (eventRecordOrderLess · (record.stamped nowUs)) := by
  funext other
  rw [eventRecordOrderLess, eventRecordOrderLess, stamped_order, stamped_order, h.order]

theorem step_stamped (h : TwinInsertions S S' node node' record record') (state : τ) :
    S.step state (record.stamped nowUs) = S'.step state (record'.stamped nowUs) := by
  have hstep := h.recordSteps state
  unfold SerializedFields.step at hstep ⊢
  rw [stamped_event, stamped_event]
  exact hstep

/-- The two journals say the same. -/
theorem content_insertedJournal (h : TwinInsertions S S' node node' record record') :
    (insertedJournal node' record' nowUs).map EventRecord.content =
      (insertedJournal node record nowUs).map EventRecord.content := by
  have hrecord : (record'.stamped nowUs).content = (record.stamped nowUs).content := by
    unfold EventRecord.content
    rw [stamped_identity, stamped_identity, stamped_order, stamped_order, stamped_event,
      stamped_event, h.identity, h.order, h.event]
  unfold insertedJournal lowerBoundInsert
  rw [h.journal, h.eventRecordOrderLess_stamped, List.map_append, List.map_append, List.map_cons,
    List.map_cons, hrecord]

/-- Both records land at the same place, in the same journal. -/
theorem insertion_eq (h : TwinInsertions S S' node node' record record')
    {snapshot : β} {snapshot' : β'} (hbase : node.base.obj = some snapshot)
    (hbase' : node'.base.obj = some snapshot') :
    S.insertion node snapshot (record.stamped nowUs) =
      S'.insertion node' snapshot' (record'.stamped nowUs) := by
  have hstep : ∀ state, S.step state (record.stamped nowUs) =
      S'.step state (record'.stamped nowUs) := fun state => h.step_stamped state
  have hsame : ∀ records : List (EventRecord ε), List.Forall₂ (fun record record' => ∀ state,
      S.step state record = S'.step state record') records records := by
    intro records
    rw [List.forall₂_same]
    exact fun other _ => h.steps other
  unfold SerializedFields.insertion lowerBoundAtEnd lowerBoundInsert
  rw [h.journal, h.eventRecordOrderLess_stamped, h.view, h.base snapshot snapshot' hbase hbase']
  rw [S.replay_eq_of_steps S' (List.Forall₂.cons hstep List.Forall₂.nil),
    S.replay_eq_of_steps S' (List.rel_append (hsame _) (List.Forall₂.cons hstep (hsame _)))]

/-- What `TryInsertEvent` does to one of them, it does to the other. -/
theorem exists_inserted (h : TwinInsertions S S' node node' record record')
    (hinsert : tryInsertEvent cls node record nowUs = .ok (after, true)) :
    ∃ after', tryInsertEvent cls' node' record' nowUs = .ok (after', true) ∧
      after'.journal.map EventRecord.content = after.journal.map EventRecord.content ∧
      S'.view after'.fields = S.view after.fields := by
  obtain ⟨snapshot, hready⟩ := h.ready
  obtain ⟨snapshot', hready'⟩ := h.ready'
  have hinserted := recordInserted_of_tryInsertEvent hinsert
  have hreplay := hready.insertion_of_inserted hinserted
  rw [h.insertion_eq hready.base hready'.base] at hreplay
  have haccepted : RecordAccepted node'.journal record' := by
    obtain ⟨hvalid, hloaded, htimestamp, hunknown⟩ := recordInserted_accepted hinserted
    refine ⟨h.eventValid.trans hvalid, ?_, ?_, ?_⟩
    · rw [Ref.isLoaded_iff, h.event]
      exact Ref.isLoaded_iff.mp hloaded
    · rw [h.order]
      exact htimestamp
    · rw [EventRecord.hasSharedIdentity, h.identity, h.journal]
      exact hunknown
  obtain ⟨after', hafter'⟩ := hready'.exists_inserted haccepted hreplay
  have hthere := recordInserted_of_tryInsertEvent hafter'
  refine ⟨after', hafter', ?_, ?_⟩
  · rw [hthere.journal, hinserted.journal]
    exact h.content_insertedJournal
  · exact (Prod.mk.inj ((hready'.insertion_of_inserted hthere).symm.trans hreplay)).1

end TwinInsertions

end Twins

end AppTraverse
