import AppTraverse.Admission.ReplaySafety

/-!
# What an admitted snapshot went through

`ImportValidatedNode` returns a Node only after every check of the scratch Domain
passed, no object of the graph collided with the receiver, and the production
load and replay succeeded.  `Admission` collects these facts once, and the
theorems about admitted snapshots start from it.
-/

namespace AppTraverse

open Foundations

variable {α ε : Type} (aether : Aether α ε) (app : AppClass α ε)

/-- The run of `SnapshotIsAdmissible` on an admissible candidate. -/
structure AdmissibleReplay (ids : Nat → ObjId) (candidate replayed : SharedNode α ε)
    (localEndpoint sourceEndpoint : Bytes) (destinationShareId : ObjId)
    (snapshot : BaseSnapshot α) (applied : Applied (SharedNodeFields α)) : Prop where
  before : admissibleBeforeReplay aether app candidate = true
  base : candidate.base.obj = some snapshot
  run : applyRecords (app.nodeClass ids) (rebuildStart app ids candidate.fields snapshot)
    candidate.journal = .ok applied
  complete : applied.complete = true
  replayed_eq : replayed = { candidate with
    fields := applied.fields
    appliedJournalSize := some applied.count
    generation := 1 + applied.count }
  shares : sharesAreAdmissible replayed.fields.shares = true
  addressed : addressedToThisReplica replayed.fields.shares localEndpoint
    sourceEndpoint destinationShareId = true

/-- An admissible candidate was replayed to its end. -/
theorem exists_admissibleReplay {ids : Nat → ObjId} {candidate replayed : SharedNode α ε}
    {localEndpoint sourceEndpoint : Bytes} {destinationShareId : ObjId}
    (h : snapshotIsAdmissible aether app ids candidate localEndpoint sourceEndpoint
      destinationShareId = .ok (replayed, true)) :
    ∃ snapshot applied, AdmissibleReplay aether app ids candidate replayed localEndpoint
      sourceEndpoint destinationShareId snapshot applied := by
  unfold snapshotIsAdmissible at h
  cases hbefore : admissibleBeforeReplay aether app candidate with
  | false => simp [hbefore] at h
  | true =>
      have hloaded : candidate.base.isLoaded = true := by
        simp only [admissibleBeforeReplay, Bool.and_eq_true] at hbefore
        exact hbefore.1.2
      obtain ⟨snapshot, hbase⟩ := Ref.isLoaded_iff.mp hloaded
      simp only [hbefore, Bool.not_true, Bool.false_eq_true, if_false,
        tryRebuildFromBaseAndReplay_eq _ hbase, except_bind_eq_ok_iff] at h
      obtain ⟨⟨rebuilt, ok⟩, ⟨applied, hrun, hrebuilt⟩, h⟩ := h
      cases hrebuilt
      cases hcomplete : applied.complete with
      | false => simp [hcomplete, pure, Except.pure] at h
      | true =>
          simp only [hcomplete, Bool.not_true, Bool.false_eq_true, if_false] at h
          cases hshares : sharesAreAdmissible applied.fields.shares with
          | false => simp [hshares, pure, Except.pure] at h
          | true =>
              simp only [hshares, Bool.not_true, Bool.false_eq_true, if_false] at h
              obtain ⟨rfl, haddressed⟩ := Prod.mk.inj (Except.ok.inj h)
              exact ⟨snapshot, applied, hbefore, hbase, hrun, hcomplete, rfl, hshares,
                haddressed⟩

/-- The run of the scratch validation of an admitted payload. -/
structure ScratchValidation (ids : Nat → ObjId) (parsed : RamDomainStorage)
    (localEndpoint sourceEndpoint : Bytes) (frame : NodeStateFrame)
    (result : ValidatedSnapshot) (candidate replayed : SharedNode α ε)
    (share : Share) : Prop where
  load : loadSharedNode aether (parsed.find aether) frame.targetNodeId =
    .ok (some candidate)
  sharedNode : aether.derives aether.sharedNodeClassId candidate.classId = true
  admissible : snapshotIsAdmissible aether app ids candidate localEndpoint sourceEndpoint
    frame.destinationShareId = .ok (replayed, true)
  source : sharesOfEndpoint replayed.fields.shares sourceEndpoint = [share]
  source_valid : share.shareId.isValid = true
  result_eq : result = ⟨storeObjects aether parsed
    (createdObjects aether replayed.fields.created), share.shareId⟩

theorem exists_scratchValidation {ids : Nat → ObjId} {parsed : RamDomainStorage}
    {localEndpoint sourceEndpoint : Bytes} {frame : NodeStateFrame}
    {result : ValidatedSnapshot}
    (h : validateInScratch aether app ids parsed localEndpoint sourceEndpoint frame =
      .ok (some result)) :
    ∃ candidate replayed share, ScratchValidation aether app ids parsed localEndpoint
      sourceEndpoint frame result candidate replayed share := by
  unfold validateInScratch at h
  obtain ⟨loaded, hload, h⟩ := except_bind_eq_ok_iff.mp h
  cases loaded with
  | none => cases h
  | some candidate =>
      cases hclass : aether.derives aether.sharedNodeClassId candidate.classId with
      | false => simp [hclass, pure, Except.pure] at h
      | true =>
          simp only [hclass, Bool.not_true, Bool.false_eq_true, if_false] at h
          obtain ⟨⟨replayed, admissible⟩, hadmissible, h⟩ := except_bind_eq_ok_iff.mp h
          cases admissible with
          | false => simp [pure, Except.pure] at h
          | true =>
              simp only [Bool.not_true, Bool.false_eq_true, if_false] at h
              match hshares : sharesOfEndpoint replayed.fields.shares sourceEndpoint with
              | [] => simp [hshares, pure, Except.pure] at h
              | _ :: _ :: _ => simp [hshares, pure, Except.pure] at h
              | [share] =>
                  simp only [hshares] at h
                  cases hvalid : share.shareId.isValid with
                  | false => simp [hvalid, pure, Except.pure] at h
                  | true =>
                      simp only [hvalid, Bool.not_true, Bool.false_eq_true, if_false] at h
                      obtain ⟨index, -, h⟩ := except_bind_eq_ok_iff.mp h
                      split at h
                      case isFalse => cases h
                      case isTrue =>
                        cases h
                        exact ⟨candidate, replayed, share, hload, hclass, hadmissible,
                          hshares, hvalid, rfl⟩

/-- Everything that happened to a frame for which `ImportValidatedNode` returned
a Node: `root` is the Node as production loaded it. -/
structure Admission (env : StepEnv) (replica : Replica α ε) (sourceEndpoint : Bytes)
    (frame : NodeStateFrame) (imported : ImportedNode α ε) (parsed : RamDomainStorage)
    (validated : ValidatedSnapshot) (root : SharedNode α ε) : Prop where
  validate : validateSnapshot aether app env replica sourceEndpoint frame =
    .ok (some validated)
  parsed_eq : deserializeObjectGraph aether frame.payload = some parsed
  chains : (validateStoredClassChains aether parsed).isSome = true
  scratch : validateInScratch aether app env.scratch.ids parsed
    replica.runtime.localEndpoint sourceEndpoint frame = .ok (some validated)
  apart : collidesWithReceiver aether app replica validated.graph = false
  load : loadSharedNode aether
    (productionFind aether app replica.others replica.runtime.nodes
      (replica.storage.perform (.commitObjectGraph validated.graph)))
    frame.targetNodeId = .ok (some root)
  replay : replayFromBase (app.nodeClass env.ids) root = .ok imported.node
  source : imported.sourceShareId = validated.sourceShareId

/-- What `ImportValidatedNode` wrote before it returned the Node. -/
def importEffects (validated : ValidatedSnapshot) (imported : ImportedNode α ε) :
    List (Effect α ε) :=
  .commitObjectGraph validated.graph ::
    (createdObjects aether imported.node.fields.created).map fun object =>
      .storeObject object.1 (aether.saveObject object.2)

/-- The root of a payload as production loads it. -/
def IsProductionRoot (env : StepEnv) (replica : Replica α ε) (sourceEndpoint : Bytes)
    (frame : NodeStateFrame) (root : SharedNode α ε) : Prop :=
  ∃ validated, validateSnapshot aether app env replica sourceEndpoint frame =
      .ok (some validated) ∧
    loadSharedNode aether
      (productionFind aether app replica.others replica.runtime.nodes
        (replica.storage.perform (.commitObjectGraph validated.graph)))
      frame.targetNodeId = .ok (some root)

theorem validateSnapshot_eq_some {env : StepEnv} {replica : Replica α ε}
    {sourceEndpoint : Bytes} {frame : NodeStateFrame} {validated : ValidatedSnapshot}
    (h : validateSnapshot aether app env replica sourceEndpoint frame =
      .ok (some validated)) :
    ∃ parsed, deserializeObjectGraph aether frame.payload = some parsed ∧
      (validateStoredClassChains aether parsed).isSome = true ∧
      validateInScratch aether app env.scratch.ids parsed replica.runtime.localEndpoint
        sourceEndpoint frame = .ok (some validated) := by
  unfold validateSnapshot at h
  cases hexpected : expectedClassOf replica.runtime sourceEndpoint frame.targetNodeId with
  | none => simp [hexpected] at h
  | some expectedClass =>
      cases hparsed : deserializeObjectGraph aether frame.payload with
      | none => simp [hexpected, hparsed] at h
      | some parsed =>
          cases hchains : validateStoredClassChains aether parsed with
          | none => simp [hexpected, hparsed, hchains] at h
          | some chains =>
              simp only [hexpected, hparsed, hchains] at h
              split at h
              case isTrue => cases h
              case isFalse => exact ⟨parsed, rfl, by rw [hchains]; rfl, h⟩

/-- `ImportValidatedNode` writes nothing, or it commits the validated graph and
then fails to load the Node or returns it. -/
theorem importValidatedNode_cases (env : StepEnv) (replica : Replica α ε)
    (sourceEndpoint : Bytes) (frame : NodeStateFrame) :
    ((importValidatedNode aether app env replica sourceEndpoint frame).effects = [] ∧
      ∀ imported, (importValidatedNode aether app env replica sourceEndpoint frame).result ≠
        .ok (some imported)) ∨
    ∃ validated, validateSnapshot aether app env replica sourceEndpoint frame =
        .ok (some validated) ∧
      collidesWithReceiver aether app replica validated.graph = false ∧
      ((∃ reason, importValidatedNode aether app env replica sourceEndpoint frame =
          ⟨[.commitObjectGraph validated.graph], .error reason⟩) ∨
        ∃ node, loadAdmittedNode aether app env replica validated.graph
            frame.targetNodeId = .ok node ∧
          importValidatedNode aether app env replica sourceEndpoint frame =
            ⟨importEffects aether validated ⟨node, validated.sourceShareId⟩,
              .ok (some ⟨node, validated.sourceShareId⟩)⟩) := by
  unfold importValidatedNode
  cases hvalidate : validateSnapshot aether app env replica sourceEndpoint frame with
  | error reason =>
      rw [pureStep_error_bind]
      exact Or.inl ⟨rfl, by simp⟩
  | ok outcome =>
      rw [pureStep_ok_bind]
      cases outcome with
      | none => exact Or.inl ⟨rfl, by simp⟩
      | some validated =>
          simp only
          cases hcollides : collidesWithReceiver aether app replica validated.graph with
          | true => exact Or.inl ⟨by simp, by simp⟩
          | false =>
              refine Or.inr ⟨validated, rfl, hcollides, ?_⟩
              rw [if_neg Bool.false_ne_true]
              simp only [perform_bind]
              cases hload : loadAdmittedNode aether app env replica validated.graph
                  frame.targetNodeId with
              | error reason =>
                  rw [pureStep_error_bind]
                  exact Or.inl ⟨reason, rfl⟩
              | ok node =>
                  have hstore : (storeCreated aether node.fields.created :
                      RuntimeM α ε Unit).result = .ok () := rfl
                  rw [pureStep_ok_bind, EffectLog.bind_of_ok _ hstore]
                  refine Or.inr ⟨node, rfl, ?_⟩
                  simp [importEffects, storeCreated]

/-- `ImportValidatedNode` returns a Node only through an admission, and writes
nothing but the committed graph and the base snapshots of new sync states. -/
theorem exists_admission {env : StepEnv} {replica : Replica α ε} {sourceEndpoint : Bytes}
    {frame : NodeStateFrame} {imported : ImportedNode α ε}
    (h : (importValidatedNode aether app env replica sourceEndpoint frame).result =
      .ok (some imported)) :
    ∃ parsed validated root,
      Admission aether app env replica sourceEndpoint frame imported parsed validated
        root ∧
      (importValidatedNode aether app env replica sourceEndpoint frame).effects =
        importEffects aether validated imported := by
  rcases importValidatedNode_cases aether app env replica sourceEndpoint frame with
    ⟨-, hnot⟩ | ⟨validated, hvalidate, hcollides, ⟨reason, heq⟩ | ⟨node, hload, heq⟩⟩
  · exact absurd h (hnot imported)
  · rw [heq] at h
    cases h
  · rw [heq] at h ⊢
    cases h
    obtain ⟨parsed, hparsed, hchains, hscratch⟩ :=
      validateSnapshot_eq_some aether app hvalidate
    unfold loadAdmittedNode at hload
    obtain ⟨loaded, hroot, hload⟩ := except_bind_eq_ok_iff.mp hload
    cases loaded with
    | none => cases hload
    | some root =>
        exact ⟨parsed, validated, root, ⟨hvalidate, hparsed, hchains, hscratch, hcollides,
          hroot, hload, rfl⟩, rfl⟩

end AppTraverse
