import AppTraverse.Admission.Registration

/-!
# The journal invariant of imported Nodes

Local insertion keeps a journal sorted, free of duplicate identities and in
agreement with the metadata its Events carry.  Admission replays the records in
stored order and checks none of this; it checks the timestamps only against
zero.  So an imported journal satisfies the invariant exactly when the payload's
journal did.
-/

namespace AppTraverse

open Foundations

variable {α ε : Type} (aether : Aether α ε) (app : AppClass α ε)

/-- `Event::MatchesSharedMetadata` on the Event of a record. -/
def matchesMetadata (record : EventRecord (SharedNodeEvent ε)) : Bool :=
  match record.event.obj with
  | some (.app event) => app.matchesSharedMetadata event record.identity record.order
  | some _ => true
  | none => false

/-- Sorted by timestamp, one record per shared identity, and metadata that
agrees with the Events. -/
structure JournalOrdered (journal : List (EventRecord (SharedNodeEvent ε))) : Prop where
  sorted : journal.Pairwise fun a b => a.order.timestampUs ≤ b.order.timestampUs
  unique : (sharedIdentities journal).Nodup
  metadata : ∀ record ∈ journal, record.hasSharedIdentity = true →
    matchesMetadata app record = true

/-- What later operations rely on in a journal. -/
structure JournalInvariant (journal : List (EventRecord (SharedNodeEvent ε))) : Prop
    extends JournalOrdered app journal where
  timestamps : ∀ record ∈ journal, record.order.timestampUs ≠ 0

/-- The journal that a payload carries for its root is ordered. -/
def PayloadJournalOrdered (payload : Bytes) (nodeId : ObjId) : Prop :=
  ∀ parsed candidate, deserializeObjectGraph aether payload = some parsed →
    loadSharedNode aether (parsed.find aether) nodeId = .ok (some candidate) →
    JournalOrdered app candidate.journal

theorem matchesMetadata_recordShape (record : EventRecord (SharedNodeEvent ε)) :
    matchesMetadata app (recordShape record) = matchesMetadata app record := by
  unfold matchesMetadata recordShape
  cases record.event.obj with
  | none => rfl
  | some event => cases event <;> rfl

/-- The invariant does not depend on what references inside Events point at. -/
theorem journalOrdered_map_recordShape
    {journal : List (EventRecord (SharedNodeEvent ε))} :
    JournalOrdered app (journal.map recordShape) ↔ JournalOrdered app journal := by
  have hidentities : sharedIdentities (journal.map recordShape) =
      sharedIdentities journal := by
    unfold sharedIdentities
    rw [List.filter_map, List.map_map]
    rfl
  have hsorted : (journal.map recordShape).Pairwise
      (fun a b => a.order.timestampUs ≤ b.order.timestampUs) ↔
      journal.Pairwise fun a b => a.order.timestampUs ≤ b.order.timestampUs :=
    List.pairwise_map
  constructor
  · rintro ⟨hpairwise, hunique, hmetadata⟩
    refine ⟨hsorted.mp hpairwise, hidentities ▸ hunique, fun record h hshared => ?_⟩
    rw [← matchesMetadata_recordShape]
    exact hmetadata _ (List.mem_map_of_mem h) hshared
  · rintro ⟨hpairwise, hunique, hmetadata⟩
    refine ⟨hsorted.mpr hpairwise, hidentities ▸ hunique, fun record h hshared => ?_⟩
    obtain ⟨original, horiginal, rfl⟩ := List.mem_map.mp h
    rw [matchesMetadata_recordShape]
    exact hmetadata original horiginal hshared

/-- Admission checks every record of a candidate before the replay. -/
theorem recordIsAdmissible_of_mem {candidate : SharedNode α ε}
    (h : admissibleBeforeReplay aether app candidate = true)
    {record : EventRecord (SharedNodeEvent ε)} (hrecord : record ∈ candidate.journal) :
    record.event.isLoaded = true ∧ record.order.timestampUs ≠ 0 := by
  rw [admissibleBeforeReplay, Bool.and_eq_true, List.all_eq_true] at h
  have hadmissible := h.2 record hrecord
  rw [recordIsAdmissible, Bool.and_eq_true] at hadmissible
  cases hevent : record.event.obj with
  | none => simp [hevent] at hadmissible
  | some event =>
      simp only [hevent, Bool.and_eq_true, decide_eq_true_eq] at hadmissible
      exact ⟨Ref.isLoaded_iff.mpr ⟨event, hevent⟩, hadmissible.2.2⟩

/-- The journal of an admitted Node is the one of the payload, up to what
references inside Events point at. -/
theorem journal_eq_of_admission {env : StepEnv} {replica : Replica α ε}
    {sourceEndpoint : Bytes} {frame : NodeStateFrame} {imported : ImportedNode α ε}
    (hfresh : ScratchIdsFresh aether env frame.payload)
    (himport : (importValidatedNode aether app env replica sourceEndpoint frame).result =
      .ok (some imported)) :
    ∃ parsed candidate, deserializeObjectGraph aether frame.payload = some parsed ∧
      loadSharedNode aether (parsed.find aether) frame.targetNodeId =
        .ok (some candidate) ∧
      admissibleBeforeReplay aether app candidate = true ∧
      imported.node.journal.map recordShape = candidate.journal.map recordShape := by
  obtain ⟨parsed, validated, root, hadmission, -⟩ := exists_admission aether app himport
  obtain ⟨candidate, replayed, share, hscratch⟩ :=
    exists_scratchValidation aether app hadmission.scratch
  obtain ⟨snapshot, applied, hreplay⟩ :=
    exists_admissibleReplay aether app hscratch.admissible
  obtain ⟨-, hjournal, -⟩ := stored_eq_of_extends aether
    (hadmission.find_extends aether app hfresh) hscratch.load hadmission.load
    (fun record hrecord =>
      (recordIsAdmissible_of_mem aether app hreplay.before hrecord).1) hreplay.base
  obtain ⟨rebuiltFrom, rebuilt, -, -, -, hnode⟩ := replayFromBase_keeps hadmission.replay
  refine ⟨parsed, candidate, hadmission.parsed_eq, hscratch.load, hreplay.before, ?_⟩
  rw [hnode, hjournal]

/-- A frame after which a Node is registered leaves it with the journal invariant
exactly when the payload's own journal is ordered. -/
theorem onNodeState_journalInvariant_iff {env : StepEnv} {replica : Replica α ε}
    {sourceEndpoint : Bytes} {frame : NodeStateFrame}
    {runtime' : SharedSyncRuntime α ε} {node : SharedNode α ε}
    (hfresh : ScratchIdsFresh aether env frame.payload)
    (hnew : findNode replica.runtime.nodes frame.targetNodeId = none)
    (hresult : (onNodeState aether app env replica sourceEndpoint frame).result =
      .ok runtime')
    (hnode : findNode runtime'.nodes frame.targetNodeId = some node) :
    JournalInvariant app node.journal ↔
      PayloadJournalOrdered aether app frame.payload frame.targetNodeId := by
  obtain ⟨imported, completed, index, state, himport, hregistration, -⟩ :=
    exists_registration aether app hnew hresult hnode
  obtain ⟨parsed, candidate, hparsed, hload, hbefore, hjournal⟩ :=
    journal_eq_of_admission aether app hfresh himport
  rw [← hregistration.sameShared.journal] at hjournal
  have htimestamps : ∀ record ∈ node.journal, record.order.timestampUs ≠ 0 := by
    intro record hrecord
    have hshape : recordShape record ∈ candidate.journal.map recordShape := by
      rw [← hjournal]
      exact List.mem_map_of_mem hrecord
    obtain ⟨original, horiginal, hsame⟩ := List.mem_map.mp hshape
    have horder : record.order = original.order :=
      congrArg (fun shape => shape.order) hsame.symm
    rw [horder]
    exact (recordIsAdmissible_of_mem aether app hbefore horiginal).2
  have hordered : JournalOrdered app node.journal ↔
      JournalOrdered app candidate.journal := by
    rw [← journalOrdered_map_recordShape, hjournal, journalOrdered_map_recordShape]
  constructor
  · intro h parsed' candidate' hparsed' hload'
    cases hparsed.symm.trans hparsed'
    cases hload.symm.trans hload'
    exact hordered.mp h.toJournalOrdered
  · intro h
    exact ⟨hordered.mpr (h parsed candidate hparsed hload), htimestamps⟩

section ChatReplicas

/-- Two messages of the host, the later one first. -/
def unorderedMessages : List ChatObject :=
  [eventObject 20 (.app ⟨message hostEndpoint 1 20 [72]⟩),
    eventObject 21 (.app ⟨message hostEndpoint 2 10 [73]⟩)] ++
    sharedRoom [record 20 20 ⟨hostEndpoint, 1⟩, record 21 10 ⟨hostEndpoint, 2⟩]

/-- They are registered in that order. -/
theorem unorderedMessages_registered :
    ∃ runtime' node,
      (receiveFromHost true waitingClient (frameOf 900 10 15 unorderedMessages)).result =
        .ok runtime' ∧
      findNode runtime'.nodes ⟨10⟩ = some node ∧
      ¬ JournalInvariant chatRoom node.journal := by
  obtain ⟨runtime', hresult, htest⟩ := EffectLog.exists_ok_of_test
    (x := receiveFromHost true waitingClient (frameOf 900 10 15 unorderedMessages))
    (fun runtime' => match findNode runtime'.nodes ⟨10⟩ with
      | some node => !decide (node.journal.Pairwise fun a b =>
          a.order.timestampUs ≤ b.order.timestampUs)
      | none => false) (by decide +kernel)
  split at htest
  case h_2 => cases htest
  case h_1 node hnode =>
    refine ⟨runtime', node, hresult, hnode, fun hinvariant => ?_⟩
    rw [decide_eq_true hinvariant.sorted] at htest
    cases htest

/-- The room of the example, over the equivalence. -/
theorem sharedRoom_journalInvariant_iff :
    ∃ runtime' node,
      (receiveFromHost true waitingClient (frameOf 900 10 15 (sharedRoom []))).result =
        .ok runtime' ∧
      findNode runtime'.nodes ⟨10⟩ = some node ∧
      (JournalInvariant chatRoom node.journal ↔
        PayloadJournalOrdered chatAether chatRoom (payloadOf (sharedRoom [])) ⟨10⟩) := by
  obtain ⟨runtime', hresult, htest⟩ := EffectLog.exists_ok_of_test
    (x := receiveFromHost true waitingClient (frameOf 900 10 15 (sharedRoom [])))
    (fun runtime' => (findNode runtime'.nodes ⟨10⟩).isSome) (by decide +kernel)
  obtain ⟨node, hnode⟩ := Option.isSome_iff_exists.mp htest
  have hfresh : ScratchIdsFresh chatAether (receiverEnv true)
      (frameOf 900 10 15 (sharedRoom [])).payload :=
    receiverEnv_scratchIdsFresh true (by decide)
  have hnew : findNode waitingClient.runtime.nodes
      (frameOf 900 10 15 (sharedRoom [])).targetNodeId = none := rfl
  refine ⟨runtime', node, hresult, hnode, ?_⟩
  exact @onNodeState_journalInvariant_iff _ _ chatAether chatRoom (receiverEnv true)
    waitingClient hostEndpoint (frameOf 900 10 15 (sharedRoom [])) runtime' node hfresh hnew
    hresult hnode

end ChatReplicas

end AppTraverse
