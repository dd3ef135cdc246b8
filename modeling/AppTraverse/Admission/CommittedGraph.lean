import AppTraverse.Admission.Import
import AppTraverse.Storage.GraphWrites

/-!
# What admission commits

The scratch Domain is built over the parsed graph itself, which is committed
afterwards.  Replaying an `AddShareEvent` whose relationship has no sync state
creates one, and `InitializeRuntimeNode` stores its base snapshot through the
scratch Domain, that is, into the graph to commit.
-/

namespace AppTraverse

open Foundations

variable {α ε : Type}

/-- The `AddShareEvent` of a record finds a sync state that the object was loaded
with: not all entries of its relationship have been removed before it. -/
def FindsInitialState (states : List (Ref LinkSyncState))
    (done : List (EventRecord (SharedNodeEvent ε)))
    (record : EventRecord (SharedNodeEvent ε)) : Prop :=
  ∀ link access, record.event.obj = some (.addShare link access) →
    removeCount done record.event.id < syncCount states record.event.id

section Created

variable {app : AppClass α ε} {ids : Nat → ObjId} {start fields : SharedNodeFields α}
  {done : List (EventRecord (SharedNodeEvent ε))} {kept own : List (Ref LinkSyncState)}

/-- All entries count when every one of them can be loaded. -/
theorem loadedPrefix_eq_self {entries : List (Ref LinkSyncState)}
    (h : unloadedSuffix entries = []) : loadedPrefix entries = entries := by
  have hsplit := loadedPrefix_append_unloadedSuffix entries
  rwa [h, List.append_nil] at hsplit

theorem syncCount_loadedPrefix_le (entries : List (Ref LinkSyncState)) (id : ObjId) :
    syncCount (loadedPrefix entries) id ≤ syncCount entries id :=
  (List.takeWhile_sublist _).countP_le

/-- Opening a relationship creates a state exactly when it has none. -/
theorem created_of_applyAddShare (h : ReplayTrace app ids start done fields kept own)
    (hstart : ReplayStart start) (hids : ∀ n, (ids n).isValid = true) {eventId : ObjId}
    {link : Ref Link} {access : UInt8} {next : SharedNodeFields α}
    (hnext : fields.applyAddShare ids eventId link access = .ok next) :
    (0 < syncCount kept eventId + syncCount own eventId ∧
      next.created = fields.created) ∨
    (syncCount kept eventId + syncCount own eventId = 0 ∧
      unloadedSuffix start.linkSyncStates = [] ∧ next.created ≠ []) := by
  obtain ⟨-, -, -, -, index, hfind, hnext⟩ := applyAddShare_eq_ok_iff.mp hnext
  have hlt := h.find_lt_iff hstart hids hfind
  by_cases hindex : index < fields.linkSyncStates.length
  · rw [if_pos hindex] at hnext
    exact Or.inl ⟨hlt.mp hindex, by rw [hnext]; rfl⟩
  · rw [if_neg hindex] at hnext
    refine Or.inr ⟨by by_contra hpos; exact hindex (hlt.mpr (by omega)), ?_, ?_⟩
    · by_contra hsuffix
      obtain ⟨hown, -, -⟩ := h.blocked hsuffix
      have hzero : ¬ 0 < syncCount kept eventId + syncCount own eventId :=
        fun hpos => hindex (hlt.mpr hpos)
      have hreturns := (exists_find_iff h hstart hids eventId).mp ⟨index, hfind⟩
      rcases hreturns with hnil | hleft
      · exact hsuffix hnil
      · have hkept := h.kept_count eventId
        omega
    · rw [hnext]
      simp [SharedNodeFields.createLinkSyncState]

/-- A replay creates no object as long as every `AddShareEvent` finds an initial
state. -/
def CreatedTrace (start : SharedNodeFields α)
    (done : List (EventRecord (SharedNodeEvent ε))) (fields : SharedNodeFields α) : Prop :=
  fields.created = [] ↔ EveryRecord (FindsInitialState start.linkSyncStates) done

theorem createdTrace_stepPreserves (hstart : ReplayStart start)
    (hids : ∀ n, (ids n).isValid = true) :
    StepPreserves (app.nodeClass ids) fun records fields =>
      (∃ kept own, ReplayTrace app ids start records fields kept own) ∧
        CreatedTrace start records fields := by
  rintro done fields record event next ⟨htrace, hcreated⟩ hevent happlies hnext
  refine ⟨replayTrace_stepPreserves hstart hids done fields record event next htrace hevent
    happlies hnext, ?_⟩
  obtain ⟨kept, own, h⟩ := htrace
  have hbefore : fields.created = [] ↔
      EveryRecord (FindsInitialState start.linkSyncStates) done := hcreated
  unfold CreatedTrace
  rw [everyRecord_snoc, ← hbefore]
  change app.applyTo ids fields record.event.id event = .ok next at hnext
  cases event with
  | addShare link access =>
      have hcount := h.kept_count record.event.id
      have hle := syncCount_loadedPrefix_le start.linkSyncStates record.event.id
      rcases created_of_applyAddShare h hstart hids hnext with
        ⟨hpos, hsame⟩ | ⟨hzero, hsuffix, hne⟩
      · rw [hsame]
        constructor
        · intro hnil
          refine ⟨hnil, fun _ _ _ => ?_⟩
          have hown : own = [] := by
            rw [List.eq_nil_iff_forall_not_mem]
            intro entry hentry
            obtain ⟨made, hmade, -⟩ := h.own_created entry hentry
            rw [hnil] at hmade
            cases hmade
          rw [hown] at hpos
          simp only [syncCount, List.countP_nil, Nat.add_zero] at hpos hcount hle ⊢
          omega
        · exact fun hboth => hboth.1
      · constructor
        · exact fun hnil => absurd hnil hne
        · rintro ⟨-, hfinds⟩
          have hlt := hfinds link access hevent
          rw [loadedPrefix_eq_self hsuffix] at hcount
          omega
  | removeShare shareId =>
      obtain ⟨-, index, -, rfl⟩ := applyRemoveShare_eq_ok_iff.mp hnext
      refine ⟨fun hnil => ⟨hnil, fun link access hadd => ?_⟩, fun hboth => hboth.1⟩
      rw [hevent] at hadd
      cases hadd
  | changeShareAccess shareId access =>
      obtain ⟨-, rfl⟩ := applyChangeShareAccess_eq_ok_iff.mp hnext
      refine ⟨fun hnil => ⟨hnil, fun link access hadd => ?_⟩, fun hboth => hboth.1⟩
      rw [hevent] at hadd
      cases hadd
  | app event =>
      cases hnext
      refine ⟨fun hnil => ⟨hnil, fun link access hadd => ?_⟩, fun hboth => hboth.1⟩
      rw [hevent] at hadd
      cases hadd

end Created

section Committed

variable (aether : Aether α ε) (app : AppClass α ε)

/-- The ids a scratch Domain generates are valid and name no object of the
payload. -/
def ScratchIdsFresh (env : StepEnv) (payload : Bytes) : Prop :=
  ∀ n, (env.scratch.ids n).isValid = true ∧
    ∀ parsed, deserializeObjectGraph aether payload = some parsed →
      parsed.layers? (env.scratch.ids n) = none

/-- The graph that is written, which is also the one checked for collisions, has
exactly the layers of the payload. -/
def CommitsExactly (effects : List (Effect α ε)) (payload : Bytes) : Prop :=
  ∃ graph parsed, deserializeObjectGraph aether payload = some parsed ∧
    effects.head? = some (.commitObjectGraph graph) ∧
    ∀ id, graph.layers? id = parsed.layers? id

/-- Every `AddShareEvent` in the journal of the payload's root finds a sync state
that the payload itself carries for its relationship. -/
def AddSharesFindStates (payload : Bytes) (nodeId : ObjId) : Prop :=
  ∀ parsed candidate, deserializeObjectGraph aether payload = some parsed →
    loadSharedNode aether (parsed.find aether) nodeId = .ok (some candidate) →
    EveryRecord (FindsInitialState (stashedStates candidate)) candidate.journal

/-- What the complete replay of an admissible candidate left. -/
theorem AdmissibleReplay.trace {ids : Nat → ObjId} {candidate replayed : SharedNode α ε}
    {localEndpoint sourceEndpoint : Bytes} {destinationShareId : ObjId}
    {snapshot : BaseSnapshot α} {applied : Applied (SharedNodeFields α)}
    (h : AdmissibleReplay aether app ids candidate replayed localEndpoint sourceEndpoint
      destinationShareId snapshot applied) (hcreated : candidate.fields.created = [])
    (hids : ∀ n, (ids n).isValid = true) :
    (∃ kept own, ReplayTrace app ids (rebuildStart app ids candidate.fields snapshot)
      candidate.journal replayed.fields kept own) ∧
      (replayed.fields.created = [] ↔
        EveryRecord (FindsInitialState (stashedStates candidate)) candidate.journal) := by
  have hstart := rebuildStart_replayStart app ids snapshot hcreated
  obtain ⟨hboth, hcount⟩ := applyRecords_invariant (app.nodeClass ids)
    (createdTrace_stepPreserves (ε := ε) hstart hids)
    ⟨⟨_, [], replayTrace_start hstart⟩, by
      simp [CreatedTrace, hstart.created_eq, everyRecord_nil]⟩ h.run
  rw [hcount h.complete, List.take_length] at hboth
  rw [h.replayed_eq]
  exact hboth

/-- Admission commits exactly the received layers exactly when the replay in the
scratch Domain creates nothing. -/
theorem importValidatedNode_commitsExactly_iff {env : StepEnv} {replica : Replica α ε}
    {sourceEndpoint : Bytes} {frame : NodeStateFrame} {imported : ImportedNode α ε}
    (hfresh : ScratchIdsFresh aether env frame.payload)
    (himport : (importValidatedNode aether app env replica sourceEndpoint frame).result =
      .ok (some imported)) :
    CommitsExactly aether
      (importValidatedNode aether app env replica sourceEndpoint frame).effects
      frame.payload ↔
      AddSharesFindStates aether frame.payload frame.targetNodeId := by
  obtain ⟨parsed, validated, root, hadmission, heffects⟩ :=
    exists_admission aether app himport
  obtain ⟨candidate, replayed, share, hscratch⟩ :=
    exists_scratchValidation aether app hadmission.scratch
  obtain ⟨snapshot, applied, hreplay⟩ :=
    exists_admissibleReplay aether app hscratch.admissible
  obtain ⟨⟨kept, own, htrace⟩, hcreated⟩ := hreplay.trace aether app
    (created_eq_nil_of_loadSharedNode aether hscratch.load) (fun n => (hfresh n).1)
  have hcondition : AddSharesFindStates aether frame.payload frame.targetNodeId ↔
      replayed.fields.created = [] := by
    rw [hcreated]
    constructor
    · intro h
      exact h parsed candidate hadmission.parsed_eq hscratch.load
    · intro h parsed' candidate' hparsed' hload'
      cases hadmission.parsed_eq.symm.trans hparsed'
      cases hscratch.load.symm.trans hload'
      exact h
  rw [hcondition, heffects, hscratch.result_eq]
  constructor
  · rintro ⟨graph, parsed', hparsed', hhead, hlayers⟩
    cases hadmission.parsed_eq.symm.trans hparsed'
    cases hhead
    by_contra hne
    obtain ⟨made, hmade⟩ := List.exists_mem_of_ne_nil _ hne
    obtain ⟨n, -, hbase⟩ := htrace.created_ids made hmade
    have hstored := isSome_layers?_storeObjects aether parsed
      (createdObjects aether replayed.fields.created) made.baseId
      (Or.inl ⟨_, List.mem_map_of_mem hmade, rfl⟩)
    rw [hlayers, hbase, (hfresh _).2 parsed hadmission.parsed_eq] at hstored
    cases hstored
  · intro hnil
    refine ⟨_, parsed, hadmission.parsed_eq, rfl, fun id => ?_⟩
    rw [hnil]
    rfl

end Committed

section ChatReplicas

/-- The scratch ids of the receiver are fresh for a payload without them. -/
theorem receiverEnv_scratchIdsFresh (bound : Bool) {objects : List ChatObject}
    (h : ∀ k < 64, (storageOf objects).layers? ⟨UInt32.ofNat (4000 + k)⟩ = none) :
    ScratchIdsFresh chatAether (receiverEnv bound) (payloadOf objects) := by
  intro n
  refine ⟨forall_idsFrom (fun id => id.isValid = true) 4000 (by decide) n,
    fun parsed hparsed => ?_⟩
  rw [deserialize_payloadOf hparsed]
  exact forall_idsFrom (fun id => (storageOf objects).layers? id = none) 4000 h n

/-- The snapshot of a room that was just shared is committed with the base
snapshots of two scratch sync states that no byte of it holds. -/
theorem sharedRoom_commitsMore :
    (∃ imported, (importByClient true (frameOf 900 10 15 (sharedRoom []))).result =
      .ok (some imported)) ∧
    ¬ CommitsExactly chatAether
      (importByClient true (frameOf 900 10 15 (sharedRoom []))).effects
      (payloadOf (sharedRoom [])) := by
  obtain ⟨imported, himport, -⟩ := exists_imported true (frameOf 900 10 15 (sharedRoom []))
    (fun _ => true) (by decide +kernel)
  refine ⟨⟨imported, himport⟩, ?_⟩
  rintro ⟨graph, parsed, hparsed, hhead, hlayers⟩
  have hwritten : (((importByClient true (frameOf 900 10 15 (sharedRoom []))).effects.head?.bind
      Effect.committedGraph?).bind fun graph =>
        RamDomainStorage.layers? graph ⟨4001⟩).isSome = true := by decide +kernel
  have hpayload : (RamDomainStorage.layers? (storageOf (sharedRoom [])) ⟨4001⟩).isSome =
      false := by decide
  rw [hhead, Option.bind_some, Effect.committedGraph?, Option.bind_some, hlayers,
    deserialize_payloadOf hparsed, hpayload] at hwritten
  cases hwritten

/-- The room of the example, over the equivalence. -/
theorem sharedRoom_commitsExactly_iff :
    CommitsExactly chatAether
      (importByClient true (frameOf 900 10 15 (sharedRoom []))).effects
      (payloadOf (sharedRoom [])) ↔
    AddSharesFindStates chatAether (payloadOf (sharedRoom [])) ⟨10⟩ := by
  obtain ⟨imported, himport, -⟩ := exists_imported true (frameOf 900 10 15 (sharedRoom []))
    (fun _ => true) (by decide +kernel)
  exact importValidatedNode_commitsExactly_iff chatAether chatRoom
    (receiverEnv_scratchIdsFresh true (by decide)) himport

end ChatReplicas

end AppTraverse
