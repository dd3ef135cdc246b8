import AppTraverse.Journal.Node

/-!
# Invariants of a replay

A replay applies journal records one after another until one of them is missing,
not admissible, or faults.  Two rules cover every proof about it:

* `applyRecords_invariant` carries an invariant of (records applied, fields) from
  the start of a replay to its end;
* `applyRecords_returns_iff` reduces "the replay returns" to a precondition of
  each record that it reaches, where the precondition is stated over the records
  before it and not over the fields.
-/

namespace AppTraverse

open Foundations

section Replay

variable {σ β ε : Type} (cls : NodeClass σ β ε)

/-- A record that the replay can apply: its Event is present and admissible. -/
def recordApplies (fields : σ) (record : EventRecord ε) : Bool :=
  record.event.isValid &&
    match record.event.obj with
    | none => false
    | some event => cls.canApplyTo fields event

/-- A replay stops without a fault at the first record that does not apply. -/
theorem applyRecords_cons_of_not_applies {fields : σ} {record : EventRecord ε}
    {rest : List (EventRecord ε)} (h : recordApplies cls fields record = false) :
    applyRecords cls fields (record :: rest) = .ok ⟨fields, 0, false⟩ := by
  unfold applyRecords
  cases hvalid : record.event.isValid with
  | false => simp
  | true =>
      cases hobj : record.event.obj with
      | none => simp
      | some event =>
          have hcan : cls.canApplyTo fields event = false := by
            simpa [recordApplies, hvalid, hobj] using h
          simp [hcan]

/-- A record that applies is applied before the rest is replayed. -/
theorem applyRecords_cons_of_applies {fields : σ} {record : EventRecord ε} {event : ε}
    {rest : List (EventRecord ε)} (h : recordApplies cls fields record = true)
    (hevent : record.event.obj = some event) :
    applyRecords cls fields (record :: rest) = (do
      let next ← cls.applyTo fields record.event.id event
      let applied ← applyRecords cls next rest
      pure { applied with count := applied.count + 1 }) := by
  have hvalid : record.event.isValid = true := by
    rw [recordApplies, Bool.and_eq_true] at h
    exact h.1
  have hcan : cls.canApplyTo fields event = true := by
    simpa [recordApplies, hvalid, hevent] using h
  conv_lhs => unfold applyRecords
  simp [hvalid, hevent, hcan]

/-- A record that applies holds a loaded Event. -/
theorem exists_event_of_applies {fields : σ} {record : EventRecord ε}
    (h : recordApplies cls fields record = true) :
    ∃ event, record.event.obj = some event := by
  cases hobj : record.event.obj with
  | none => simp [recordApplies, hobj] at h
  | some event => exact ⟨event, rfl⟩

/-- What one applied record does to an invariant of a replay. -/
def StepPreserves (P : List (EventRecord ε) → σ → Prop) : Prop :=
  ∀ (done : List (EventRecord ε)) (fields : σ) (record : EventRecord ε) (event : ε)
    (next : σ), P done fields → record.event.obj = some event →
    recordApplies cls fields record = true →
    cls.applyTo fields record.event.id event = .ok next → P (done ++ [record]) next

/-- The run rule of a replay, from any point of it. -/
theorem applyRecords_invariant_from {P : List (EventRecord ε) → σ → Prop}
    (hstep : StepPreserves cls P) {done rest : List (EventRecord ε)} {fields : σ}
    (hstart : P done fields) {applied : Applied σ}
    (hrun : applyRecords cls fields rest = .ok applied) :
    P (done ++ rest.take applied.count) applied.fields ∧
      (applied.complete = true → applied.count = rest.length) := by
  induction rest generalizing done fields applied with
  | nil =>
      cases hrun
      simpa using hstart
  | cons record rest ih =>
      cases happlies : recordApplies cls fields record with
      | false =>
          rw [applyRecords_cons_of_not_applies cls happlies] at hrun
          cases hrun
          simpa using hstart
      | true =>
          obtain ⟨event, hevent⟩ := exists_event_of_applies cls happlies
          rw [applyRecords_cons_of_applies cls happlies hevent] at hrun
          obtain ⟨next, hnext, hrun⟩ := except_bind_eq_ok_iff.mp hrun
          obtain ⟨tail, htail, hrun⟩ := except_bind_eq_ok_iff.mp hrun
          cases hrun
          have hafter := hstep done fields record event next hstart hevent happlies hnext
          obtain ⟨hP, hcount⟩ := ih hafter htail
          constructor
          · simpa using hP
          · intro hcomplete
            simp [hcount hcomplete]

/-- The run rule of a replay. -/
theorem applyRecords_invariant {P : List (EventRecord ε) → σ → Prop}
    (hstep : StepPreserves cls P) {records : List (EventRecord ε)} {start : σ}
    (hstart : P [] start) {applied : Applied σ}
    (hrun : applyRecords cls start records = .ok applied) :
    P (records.take applied.count) applied.fields ∧
      (applied.complete = true → applied.count = records.length) :=
  applyRecords_invariant_from cls hstep hstart hrun

/-- The records a replay gets to, when `applies done record` says whether a
record applies after the records `done`. -/
def reachedRecords (applies : List (EventRecord ε) → EventRecord ε → Bool) :
    List (EventRecord ε) → List (EventRecord ε) → List (EventRecord ε)
  | _, [] => []
  | done, record :: rest =>
      if applies done record then
        record :: reachedRecords applies (done ++ [record]) rest
      else
        []

/-- Every record that is reached satisfies a precondition over those before it. -/
def ReachedSatisfy (applies : List (EventRecord ε) → EventRecord ε → Bool)
    (precondition : List (EventRecord ε) → EventRecord ε → Prop)
    (done rest : List (EventRecord ε)) : Prop :=
  ∀ before record after,
    reachedRecords applies done rest = before ++ record :: after →
    precondition (done ++ before) record

theorem reachedSatisfy_cons_iff {applies : List (EventRecord ε) → EventRecord ε → Bool}
    {precondition : List (EventRecord ε) → EventRecord ε → Prop}
    {done rest : List (EventRecord ε)} {record : EventRecord ε}
    (h : applies done record = true) :
    ReachedSatisfy applies precondition done (record :: rest) ↔
      precondition done record ∧
        ReachedSatisfy applies precondition (done ++ [record]) rest := by
  have hreached : reachedRecords applies done (record :: rest) =
      record :: reachedRecords applies (done ++ [record]) rest := by
    simp [reachedRecords, h]
  constructor
  · intro hall
    refine ⟨by simpa using hall [] record _ hreached, ?_⟩
    intro before other after hsplit
    have hother := hall (record :: before) other after (by simp [hreached, hsplit])
    simpa using hother
  · rintro ⟨hhead, htail⟩ before other after hsplit
    rw [hreached] at hsplit
    cases before with
    | nil =>
        obtain ⟨rfl, -⟩ := List.cons.inj hsplit
        simpa using hhead
    | cons first before =>
        obtain ⟨rfl, hrest⟩ := List.cons.inj hsplit
        simpa using htail before other after hrest

/-- A replay returns exactly when every record it reaches satisfies the
precondition of its Event, provided an invariant decides both from the records
applied so far. -/
theorem applyRecords_returns_iff {P : List (EventRecord ε) → σ → Prop}
    {applies : List (EventRecord ε) → EventRecord ε → Bool}
    {precondition : List (EventRecord ε) → EventRecord ε → Prop}
    (hstep : StepPreserves cls P)
    (happlies : ∀ done fields record, P done fields →
      recordApplies cls fields record = applies done record)
    (hpre : ∀ done fields record event, P done fields →
      record.event.obj = some event → recordApplies cls fields record = true →
      ((∃ next, cls.applyTo fields record.event.id event = .ok next) ↔
        precondition done record))
    {done rest : List (EventRecord ε)} {fields : σ} (hstart : P done fields) :
    (∃ applied, applyRecords cls fields rest = .ok applied) ↔
      ReachedSatisfy applies precondition done rest := by
  induction rest generalizing done fields with
  | nil =>
      constructor
      · intro _ before record after hsplit
        simp [reachedRecords] at hsplit
      · intro _
        exact ⟨_, rfl⟩
  | cons record rest ih =>
      cases hrecord : recordApplies cls fields record with
      | false =>
          have hstop : applies done record = false := by
            rw [← happlies done fields record hstart, hrecord]
          constructor
          · intro _ before other after hsplit
            simp [reachedRecords, hstop] at hsplit
          · intro _
            exact ⟨_, applyRecords_cons_of_not_applies cls hrecord⟩
      | true =>
          have hgo : applies done record = true := by
            rw [← happlies done fields record hstart, hrecord]
          obtain ⟨event, hevent⟩ := exists_event_of_applies cls hrecord
          rw [reachedSatisfy_cons_iff hgo,
            ← hpre done fields record event hstart hevent hrecord,
            applyRecords_cons_of_applies cls hrecord hevent]
          constructor
          · rintro ⟨applied, hrun⟩
            obtain ⟨next, hnext, hrun⟩ := except_bind_eq_ok_iff.mp hrun
            obtain ⟨tail, htail, -⟩ := except_bind_eq_ok_iff.mp hrun
            have hafter :=
              hstep done fields record event next hstart hevent hrecord hnext
            exact ⟨⟨next, hnext⟩, (ih hafter).mp ⟨tail, htail⟩⟩
          · rintro ⟨⟨next, hnext⟩, hrest⟩
            have hafter :=
              hstep done fields record event next hstart hevent hrecord hnext
            obtain ⟨tail, htail⟩ := (ih hafter).mpr hrest
            rw [hnext]
            simp [bind, Except.bind, htail, pure, Except.pure]

/-- Every record of a journal satisfies a predicate over the records before it. -/
def EveryRecord (Q : List (EventRecord ε) → EventRecord ε → Prop)
    (records : List (EventRecord ε)) : Prop :=
  ∀ before record after, records = before ++ record :: after → Q before record

theorem everyRecord_nil {Q : List (EventRecord ε) → EventRecord ε → Prop} :
    EveryRecord Q [] := by
  intro before record after h
  simp at h

theorem everyRecord_snoc {Q : List (EventRecord ε) → EventRecord ε → Prop}
    {records : List (EventRecord ε)} {record : EventRecord ε} :
    EveryRecord Q (records ++ [record]) ↔ EveryRecord Q records ∧ Q records record := by
  constructor
  · intro h
    refine ⟨fun before other after hsplit => ?_, h records record [] rfl⟩
    exact h before other (after ++ [record]) (by simp [hsplit])
  · rintro ⟨hrecords, hlast⟩ before other after hsplit
    rcases List.eq_nil_or_concat after with rfl | ⟨after, last, rfl⟩
    · obtain ⟨rfl, hsame⟩ := List.append_inj' hsplit rfl
      obtain ⟨rfl, -⟩ := List.cons.inj hsame
      exact hlast
    · rw [List.concat_eq_append, ← List.cons_append, ← List.append_assoc] at hsplit
      obtain ⟨hinit, -⟩ := List.append_inj' hsplit rfl
      exact hrecords before other after hinit

/-- A rebuild is a replay of the whole journal over the base snapshot. -/
theorem tryRebuildFromBaseAndReplay_eq {node : Node σ β ε} {snapshot : β}
    (hbase : node.base.obj = some snapshot) :
    tryRebuildFromBaseAndReplay cls node = (do
      let applied ← applyRecords cls (cls.loadBase node.fields snapshot) node.journal
      pure ({ node with
        fields := applied.fields
        appliedJournalSize := some applied.count
        generation := 1 + applied.count }, applied.complete)) := by
  simp [tryRebuildFromBaseAndReplay, hbase, tryReplayJournal, tryEnsureCurrentGeneration]

end Replay

end AppTraverse
