import AppTraverse.Foundations.TransitionSystem
import AppTraverse.Journal.NodeChanges

/-!
# The materialised state as a fold of the journal

`SerializedFields` is the abstract reading of a Node class: the part of the fields that a
base snapshot holds, and what an Event does to it.  Over it a journal is a list of
commands to a machine without a cursor.  The cursor of `TryEnsureCurrentGeneration` and
the rebuild of `TryInsertEvent` are two ways to run that machine, and after every call
the fields of the Node are the state that it reaches from the base.
-/

namespace AppTraverse

open Foundations

/-- The fields of a Node class that are serialized, with `Apply` and `CanApply` on
them: nothing else decides whether an Event applies, what it does and whether `Apply`
asserts, as long as the local part of the fields is `sound`.  A base snapshot gives the
serialized fields back when it is loaded. -/
structure SerializedFields {σ β ε : Type} (cls : NodeClass σ β ε) (τ : Type) where
  view : σ → τ
  ofBase : β → τ
  canApply : τ → ε → Bool
  apply : τ → ObjId → ε → Option τ
  sound : σ → Prop
  canApplyTo_eq : ∀ fields event, cls.canApplyTo fields event = canApply (view fields) event
  apply_view : ∀ fields id event next, cls.canApplyTo fields event = true →
    cls.applyTo fields id event = .ok next → apply (view fields) id event = some (view next)
  applyTo_returns : ∀ fields id event state, sound fields →
    cls.canApplyTo fields event = true → apply (view fields) id event = some state →
    ∃ next, cls.applyTo fields id event = .ok next
  sound_applyTo : ∀ fields id event next, sound fields →
    cls.applyTo fields id event = .ok next → sound next
  sound_loadBase : ∀ fields snapshot, sound fields → sound (cls.loadBase fields snapshot)
  view_loadBase : ∀ fields snapshot, view (cls.loadBase fields snapshot) = ofBase snapshot
  ofBase_saveBase : ∀ fields, ofBase (cls.saveBase fields) = view fields

/-- A record without the local time at which this replica began to retain it. -/
def EventRecord.shared {ε : Type} (record : EventRecord ε) : EventRecord ε :=
  { record with retainedSinceUs := 0 }

/-- No two records carry the same timestamp. -/
def DistinctTimestamps {ε : Type} (journal : List (EventRecord ε)) : Prop :=
  (journal.map fun record => record.order.timestampUs).Nodup

instance {ε : Type} (journal : List (EventRecord ε)) : Decidable (DistinctTimestamps journal) :=
  inferInstanceAs (Decidable (journal.map fun record => record.order.timestampUs).Nodup)

section Fold

variable {σ β ε τ : Type} {cls : NodeClass σ β ε} (S : SerializedFields cls τ)

namespace SerializedFields

/-- `Apply` folded over a journal in stored order. -/
def fold (state : τ) (journal : List (EventRecord ε)) : Option τ :=
  journal.foldlM (fun state record =>
    record.event.obj.bind fun event => S.apply state record.event.id event) state

/-- One record, if its Event is there and admissible. -/
def step (state : τ) (record : EventRecord ε) : Option τ :=
  match record.event.obj with
  | none => none
  | some event =>
      if record.event.isValid && S.canApply state event then
        S.apply state record.event.id event
      else
        none

/-- How far a replay of the journal gets, and whether that is all of it. -/
def replay (state : τ) : List (EventRecord ε) → τ × Bool
  | [] => (state, true)
  | record :: rest =>
      match S.step state record with
      | none => (state, false)
      | some next => replay next rest

theorem replay_cons {state : τ} {record : EventRecord ε} {rest : List (EventRecord ε)} :
    S.replay state (record :: rest) =
      match S.step state record with
      | none => (state, false)
      | some next => S.replay next rest := rfl

/-- A replay of two parts goes on with the second one where the first one ended. -/
theorem replay_append {state middle : τ} {before after : List (EventRecord ε)}
    (h : S.replay state before = (middle, true)) :
    S.replay state (before ++ after) = S.replay middle after := by
  induction before generalizing state with
  | nil =>
      cases h
      rfl
  | cons record rest ih =>
      rw [List.cons_append, replay_cons]
      rw [replay_cons] at h
      cases hstep : S.step state record with
      | none =>
          rw [hstep] at h
          cases h
      | some next =>
          rw [hstep] at h
          exact ih h

/-- The first part of a complete replay is complete. -/
theorem exists_replay_of_append {state final : τ} {before after : List (EventRecord ε)}
    (h : S.replay state (before ++ after) = (final, true)) :
    ∃ middle, S.replay state before = (middle, true) ∧
      S.replay middle after = (final, true) := by
  induction before generalizing state with
  | nil => exact ⟨state, rfl, h⟩
  | cons record rest ih =>
      rw [List.cons_append, replay_cons] at h
      rw [replay_cons]
      cases hstep : S.step state record with
      | none =>
          rw [hstep] at h
          cases h
      | some next =>
          rw [hstep] at h
          exact ih h

/-- A complete replay is the fold. -/
theorem fold_of_replay {state final : τ} {journal : List (EventRecord ε)}
    (h : S.replay state journal = (final, true)) : S.fold state journal = some final := by
  induction journal generalizing state with
  | nil =>
      cases h
      rfl
  | cons record rest ih =>
      rw [replay_cons] at h
      cases hstep : S.step state record with
      | none =>
          rw [hstep] at h
          cases h
      | some next =>
          rw [hstep] at h
          have happlied : (record.event.obj.bind fun event =>
              S.apply state record.event.id event) = some next := by
            unfold step at hstep
            cases hobj : record.event.obj with
            | none =>
                rw [hobj] at hstep
                cases hstep
            | some event =>
                simp only [hobj, Option.ite_none_right_eq_some] at hstep
                exact hstep.2
          rw [fold, List.foldlM_cons, happlied]
          exact ih h

/-- A replay does not look at retention stamps. -/
theorem replay_shared (state : τ) (journal : List (EventRecord ε)) :
    S.replay state (journal.map EventRecord.shared) = S.replay state journal := by
  induction journal generalizing state with
  | nil => rfl
  | cons record rest ih =>
      rw [List.map_cons, replay_cons, replay_cons]
      show (match S.step state record with | none => _ | some next => _) = _
      cases S.step state record with
      | none => rfl
      | some next => exact ih next

/-- A record that does not apply to the fields does not apply to the serialized part. -/
theorem step_of_not_applies {fields : σ} {record : EventRecord ε}
    (h : recordApplies cls fields record = false) : S.step (S.view fields) record = none := by
  unfold step
  cases hobj : record.event.obj with
  | none => rfl
  | some event =>
      have hrefused : (record.event.isValid && S.canApply (S.view fields) event) = false := by
        rw [← S.canApplyTo_eq]
        simpa [recordApplies, hobj] using h
      simp only [hrefused, Bool.false_eq_true, if_false]

/-- A record that applies to the fields is given to `Apply`. -/
theorem step_of_applies {fields : σ} {record : EventRecord ε} {event : ε}
    (h : recordApplies cls fields record = true) (hevent : record.event.obj = some event) :
    cls.canApplyTo fields event = true ∧
      S.step (S.view fields) record = S.apply (S.view fields) record.event.id event := by
  have hboth : record.event.isValid = true ∧ cls.canApplyTo fields event = true := by
    simpa [recordApplies, hevent] using h
  refine ⟨hboth.2, ?_⟩
  simp [step, hevent, hboth.1, ← S.canApplyTo_eq, hboth.2]

/-- What a replay on the object does, the abstract one does on the serialized part. -/
theorem replay_of_applyRecords {fields : σ} {records : List (EventRecord ε)}
    {applied : Applied σ} (h : applyRecords cls fields records = .ok applied) :
    S.replay (S.view fields) records = (S.view applied.fields, applied.complete) := by
  induction records generalizing fields applied with
  | nil =>
      cases h
      rfl
  | cons record rest ih =>
      rw [replay_cons]
      cases happlies : recordApplies cls fields record with
      | false =>
          rw [applyRecords_cons_of_not_applies cls happlies] at h
          cases h
          rw [S.step_of_not_applies happlies]
      | true =>
          obtain ⟨event, hevent⟩ := exists_event_of_applies cls happlies
          rw [applyRecords_cons_of_applies cls happlies hevent] at h
          obtain ⟨next, hnext, h⟩ := except_bind_eq_ok_iff.mp h
          obtain ⟨tail, htail, h⟩ := except_bind_eq_ok_iff.mp h
          cases Except.ok.inj h
          obtain ⟨hcan, hstep⟩ := S.step_of_applies happlies hevent
          rw [hstep, S.apply_view fields record.event.id event next hcan hnext]
          have hrest := ih htail
          exact hrest

/-- A replay that the serialized part completes, the object completes too. -/
theorem applyRecords_of_replay {fields : σ} (hsound : S.sound fields)
    {records : List (EventRecord ε)} {final : τ}
    (h : S.replay (S.view fields) records = (final, true)) :
    ∃ applied, applyRecords cls fields records = .ok applied ∧ applied.complete = true ∧
      S.sound applied.fields ∧ S.view applied.fields = final := by
  induction records generalizing fields with
  | nil =>
      cases h
      exact ⟨_, rfl, rfl, hsound, rfl⟩
  | cons record rest ih =>
      rw [replay_cons] at h
      cases happlies : recordApplies cls fields record with
      | false =>
          rw [S.step_of_not_applies happlies] at h
          cases h
      | true =>
          obtain ⟨event, hevent⟩ := exists_event_of_applies cls happlies
          obtain ⟨hcan, hstep⟩ := S.step_of_applies happlies hevent
          rw [hstep] at h
          cases happly : S.apply (S.view fields) record.event.id event with
          | none =>
              rw [happly] at h
              cases h
          | some state =>
              rw [happly] at h
              obtain ⟨next, hnext⟩ := S.applyTo_returns fields record.event.id event state
                hsound hcan happly
              have hview := S.apply_view fields record.event.id event next hcan hnext
              cases happly.symm.trans hview
              obtain ⟨applied, hrun, hcomplete, hlast, hfinal⟩ :=
                ih (S.sound_applyTo fields record.event.id event next hsound hnext) h
              refine ⟨{ applied with count := applied.count + 1 }, ?_, hcomplete, hlast, hfinal⟩
              rw [applyRecords_cons_of_applies cls happlies hevent, hnext]
              simp [bind, Except.bind, hrun, pure, Except.pure]

/-- A replay keeps the local part sound. -/
theorem sound_of_applyRecords {fields : σ} (hsound : S.sound fields)
    {records : List (EventRecord ε)} {applied : Applied σ}
    (h : applyRecords cls fields records = .ok applied) : S.sound applied.fields := by
  have hstep : StepPreserves cls fun _ fields => S.sound fields := by
    intro done fields record event next hfields hevent happlies hnext
    exact S.sound_applyTo fields record.event.id event next hfields hnext
  exact (applyRecords_invariant cls hstep hsound h).1

end SerializedFields

/-- What holds of a Node between its calls: the fields are where the journal leads from
the base. -/
structure Node.Folds (S : SerializedFields cls τ) (node : Node σ β ε) : Prop where
  materialized : node.IsMaterialized
  replay : ∃ snapshot, node.base.obj = some snapshot ∧
    S.replay (S.ofBase snapshot) node.journal = (S.view node.fields, true)

variable {S} {node next : Node σ β ε} {record : EventRecord ε} {nowUs : UInt64}

/-- A new Node is the fold of its empty journal. -/
theorem folds_initializeRuntimeNode {objId baseId : ObjId} {classId : ClassId} {fields : σ} :
    (initializeRuntimeNode cls objId classId baseId fields : Node σ β ε).Folds S where
  materialized := rfl
  replay := ⟨cls.saveBase fields, rfl, by rw [S.ofBase_saveBase]; rfl⟩

namespace Node.Folds

/-- Both ways to insert a record replay the new journal: an append from the fields that
the old journal led to, an insertion in the middle from the base. -/
theorem replay_insertedJournal (h : node.Folds S) {applied : Applied σ}
    (hreplay : InsertionReplay cls node record nowUs applied) {snapshot : β}
    (hbase : node.base.obj = some snapshot) :
    S.replay (S.ofBase snapshot) (insertedJournal node record nowUs) =
      (S.view applied.fields, applied.complete) := by
  obtain ⟨known, hknown, hold⟩ := h.replay
  cases hknown.symm.trans hbase
  cases hreplay with
  | appended hatEnd hrun =>
      have hjournal : insertedJournal node record nowUs =
          node.journal ++ [record.stamped nowUs] := lowerBoundInsert_eq_append hatEnd
      rw [hjournal] at hrun ⊢
      rw [h.materialized, List.drop_left] at hrun
      rw [S.replay_append hold]
      exact S.replay_of_applyRecords hrun
  | rebuilt snapshot' hmiddle hloaded hrun =>
      cases hloaded.symm.trans hbase
      have hstart := S.replay_of_applyRecords hrun
      rw [S.view_loadBase] at hstart
      exact hstart

theorem recordInserted (h : node.Folds S)
    (hinserted : RecordInserted cls node record nowUs next) : next.Folds S where
  materialized := hinserted.materialized h.materialized
  replay := by
    obtain ⟨snapshot, hbase, -⟩ := h.replay
    obtain ⟨applied, size, generation, hcomplete, hreplay, hnext⟩ := hinserted.replay
    refine ⟨snapshot, by rw [hinserted.base]; exact hbase, ?_⟩
    rw [hinserted.journal, h.replay_insertedJournal hreplay hbase, hcomplete, hnext]

/-- A rebuild makes any Node the fold of its journal. -/
theorem of_replayFromBase (hrebuilt : AppTraverse.replayFromBase cls node = .ok next) :
    next.Folds S := by
  obtain ⟨known, applied, hknown, hrun, hcomplete, rfl⟩ := replayFromBase_keeps hrebuilt
  have hreplay := S.replay_of_applyRecords hrun
  rw [S.view_loadBase, hcomplete] at hreplay
  exact ⟨count_of_applyRecords hrun hcomplete, known, hknown, hreplay⟩

end Node.Folds

end Fold

end AppTraverse
