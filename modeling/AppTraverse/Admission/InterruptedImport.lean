import AppTraverse.Admission.ExpectationRuns
import AppTraverse.Admission.LocalSyncState

/-!
# Interrupted imports

An import is durable from `CommitObjectGraph` on, but the Node is registered only
at the end of the call.  After a restart the redelivered frame meets the objects
of the first attempt: unless the Node itself was registered again, the collision
check takes them for somebody else's.
-/

namespace AppTraverse

open Foundations

variable {α ε : Type} (aether : Aether α ε) (app : AppClass α ε)

/-- `done` is what an attempt to import had done when it was interrupted: the
graph was committed, nothing was bound or acknowledged. -/
structure InterruptedImport (env : StepEnv) (replica : Replica α ε)
    (sourceEndpoint : Bytes) (frame : NodeStateFrame) (done : List (Effect α ε)) : Prop where
  unknown : findNode replica.runtime.nodes frame.targetNodeId = none
  ofAttempt : done <+: (onNodeState aether app env replica sourceEndpoint frame).effects
  committed : ∃ graph, .commitObjectGraph graph ∈ done
  unbound : ∀ endpoint node, .bindNode endpoint node true ∉ done
  unacknowledged : ∀ destination bytes, .send destination bytes ∉ done

/-- The runtime is created again over the storage that was left: some Nodes are
registered, and the same expectation and a callback are set. -/
structure RecreatedOver (replica recreated : Replica α ε) (sourceEndpoint : Bytes)
    (done : List (Effect α ε)) : Prop where
  storage : recreated.storage = done.foldl ReplicaStorage.perform replica.storage
  localEndpoint : recreated.runtime.localEndpoint = replica.runtime.localEndpoint
  registeredOnce : (recreated.runtime.nodes.map fun node => node.objId).Nodup
  callback : recreated.runtime.callbackInstalled = true
  expected : ∃ expectation,
    expectationOf replica.runtime.expectedEndpointNodes sourceEndpoint = some expectation ∧
    expectationOf recreated.runtime.expectedEndpointNodes sourceEndpoint = some expectation

/-- The redelivered frame reaches the callback, and an answer of true finishes
the import: the frame is acknowledged and the Node registered once. -/
structure FinishesImport (env : StepEnv) (recreated : Replica α ε)
    (sourceEndpoint : Bytes) (frame : NodeStateFrame) : Prop where
  asked : ∃ node, .bindNode sourceEndpoint node env.bound ∈
      (onNodeState aether app env recreated sourceEndpoint frame).effects ∧
    node.objId = frame.targetNodeId
  finished : env.bound = true → ∃ runtime',
    (onNodeState aether app env recreated sourceEndpoint frame).result = .ok runtime' ∧
    .send sourceEndpoint (encodeAckFrame ⟨frame.packetId, frame.targetNodeId,
        frame.destinationShareId⟩) ∈
      (onNodeState aether app env recreated sourceEndpoint frame).effects ∧
    runtime'.nodes.countP (fun node => decide (node.objId = frame.targetNodeId)) = 1

section FirstAttempt

variable {aether app}
variable {env : StepEnv} {replica : Replica α ε} {sourceEndpoint : Bytes}
  {frame : NodeStateFrame}

/-- The root of a validated snapshot is a live object of the graph, with layers. -/
theorem exists_rootLayers {validated : ValidatedSnapshot}
    (h : validateSnapshot aether app env replica sourceEndpoint frame =
      .ok (some validated)) :
    ∃ parsed rootLayers, deserializeObjectGraph aether frame.payload = some parsed ∧
      parsed.layers? frame.targetNodeId = some rootLayers ∧ rootLayers ≠ [] ∧
      ∃ replayed : SharedNode α ε, validated.graph = storeObjects aether parsed
        (createdObjects aether replayed.fields.created) ∧
        (ScratchIdsFresh aether env frame.payload → ∀ made ∈ replayed.fields.created,
          made.baseId ≠ frame.targetNodeId) := by
  obtain ⟨parsed, hparsed, hchains, hvalidate⟩ := validateSnapshot_eq_some aether app h
  obtain ⟨candidate, replayed, share, hscratch⟩ := exists_scratchValidation aether app hvalidate
  obtain ⟨object, shared, states, -, hfrom, -⟩ := exists_loadedFrom aether hscratch.load
  obtain ⟨rootLayers, hlayers, -⟩ := Option.bind_eq_some_iff.mp hfrom.found
  obtain ⟨chains, hchains⟩ := Option.isSome_iff_exists.mp hchains
  obtain ⟨info, -, hchain⟩ := forall₂_exists_of_mem_left
    (mapM_option_eq_some_iff.mp hchains) (RamDomainStorage.mem_live_iff.mpr hlayers)
  obtain ⟨-, hne, -⟩ := mostDerived_of_validateStoredClassChain aether hchain
  refine ⟨parsed, rootLayers, hparsed, hlayers, hne, replayed, ?_, ?_⟩
  · rw [hscratch.result_eq]
  · intro hfresh made hmade hid
    obtain ⟨snapshot, applied, hreplay⟩ :=
      exists_admissibleReplay aether app hscratch.admissible
    obtain ⟨⟨kept, own, htrace⟩, -⟩ := hreplay.trace aether app
      (created_eq_nil_of_loadSharedNode aether hscratch.load) (fun n => (hfresh n).1)
    obtain ⟨n, -, hbase⟩ := htrace.created_ids made hmade
    have hnone := (hfresh (2 * n + 1)).2 parsed hparsed
    rw [← hbase, hid, hlayers] at hnone
    cases hnone

/-- The graph to commit has the root of the payload. -/
theorem exists_graphLayers {validated : ValidatedSnapshot}
    (hfresh : ScratchIdsFresh aether env frame.payload)
    (h : validateSnapshot aether app env replica sourceEndpoint frame =
      .ok (some validated)) :
    ∃ rootLayers, validated.graph.layers? frame.targetNodeId = some rootLayers ∧
      rootLayers ≠ [] := by
  obtain ⟨parsed, rootLayers, hparsed, hlayers, hne, replayed, hgraph, hids⟩ :=
    exists_rootLayers h
  refine ⟨rootLayers, ?_, hne⟩
  rw [hgraph, layers?_storeObjects_of_notMem, hlayers]
  intro written hwritten hid
  obtain ⟨made, hmade, rfl⟩ := List.mem_map.mp hwritten
  exact hids hfresh made hmade hid

/-- The effect leaves the stored object of that id alone. -/
def Effect.Spares (id : ObjId) : Effect α ε → Prop
  | .commitObjectGraph _ => False
  | .storeObject other _ => other ≠ id
  | _ => True

/-- Effects that spare an object keep its layers. -/
theorem layers?_foldl_perform {effects : List (Effect α ε)} {id : ObjId}
    (h : ∀ effect ∈ effects, effect.Spares id) (storage : ReplicaStorage α ε) :
    RamDomainStorage.layers? (effects.foldl ReplicaStorage.perform storage).objects id =
      RamDomainStorage.layers? storage.objects id := by
  induction effects generalizing storage with
  | nil => rfl
  | cons effect rest ih =>
      have hrest := ih (fun other hmem => h other (List.mem_cons_of_mem _ hmem))
        (storage.perform effect)
      have hhead := h effect List.mem_cons_self
      rw [List.foldl_cons, hrest]
      cases effect with
      | commitObjectGraph graph => exact hhead.elim
      | storeObject other layers =>
          change RamDomainStorage.layers? (storage.objects.insert other _) id = _
          rw [layers?_insert, if_neg (Ne.symm hhead)]
      | saveNode node => rfl
      | saveLinkSyncState nodeId state => rfl
      | bindNode endpoint node bound => rfl
      | send destination bytes => rfl

theorem spares_of_isSave {effect : Effect α ε} {id : ObjId} (h : effect.isSave = true) :
    effect.Spares id := by
  cases effect with
  | saveNode node => trivial
  | saveLinkSyncState nodeId state => trivial
  | commitObjectGraph graph => cases h
  | storeObject id layers => cases h
  | bindNode endpoint node bound => cases h
  | send destination bytes => cases h

/-- Binding and acknowledging writes no object. -/
theorem spares_of_bindAndAcknowledge {runtime : SharedSyncRuntime α ε}
    {node : SharedNode α ε} {id : ObjId} {effect : Effect α ε}
    (h : effect ∈ (bindAndAcknowledge env runtime node sourceEndpoint frame).effects) :
    effect.Spares id := by
  unfold bindAndAcknowledge at h
  cases hexpectation : expectationOf runtime.expectedEndpointNodes sourceEndpoint with
  | none =>
      simp only [hexpectation, sendAck, perform_bind, EffectLog.pure_effects,
        List.mem_singleton] at h
      rw [h]
      trivial
  | some expectation =>
      simp only [hexpectation] at h
      split at h
      case isTrue => cases h
      case isFalse =>
        simp only [perform_bind, List.mem_cons] at h
        rcases h with rfl | h
        · trivial
        · split at h
          case isTrue => cases h
          case isFalse =>
            simp only [sendAck, perform_bind, EffectLog.pure_effects,
              List.mem_singleton] at h
            rw [h]
            trivial

/-- After an import nothing but saves, the callback and the acknowledgement
follow. -/
theorem spares_of_onNodeStateOfImportedNode {runtime : SharedSyncRuntime α ε}
    {imported : ImportedNode α ε} {id : ObjId} {effect : Effect α ε}
    (h : effect ∈
      (onNodeStateOfImportedNode env runtime imported sourceEndpoint frame).effects) :
    effect.Spares id := by
  rcases onNodeStateOfImportedNode_outcome env runtime imported sourceEndpoint frame with
    ⟨hsaved, -⟩ | ⟨saved, completed, registered, index, state, -, hsaved, heffects, -⟩
  · exact spares_of_isSave (hsaved effect h)
  · rw [heffects] at h
    rcases List.mem_append.mp h with hfirst | hsecond
    · exact spares_of_isSave (hsaved effect hfirst)
    · exact spares_of_bindAndAcknowledge hsecond

/-- The Node that production replays creates objects of generated ids only. -/
theorem created_ids_of_loadAdmittedNode {graph : RamDomainStorage}
    {node : SharedNode α ε} (hids : ∀ n, (env.ids n).isValid = true)
    (h : loadAdmittedNode aether app env replica graph frame.targetNodeId = .ok node) :
    ∀ made ∈ node.fields.created, ∃ n, made.baseId = env.ids (2 * n + 1) := by
  unfold loadAdmittedNode at h
  obtain ⟨loaded, hload, h⟩ := except_bind_eq_ok_iff.mp h
  cases loaded with
  | none => cases h
  | some root =>
      obtain ⟨snapshot, applied, hbase, hrun, hcomplete, hnode⟩ := replayFromBase_keeps h
      have hstart := rebuildStart_replayStart app env.ids snapshot
        (created_eq_nil_of_loadSharedNode aether hload)
      obtain ⟨⟨kept, own, htrace⟩, -⟩ := applyRecords_invariant (app.nodeClass env.ids)
        (replayTrace_stepPreserves (ε := ε) hstart hids) ⟨_, [], replayTrace_start hstart⟩
        hrun
      intro made hmade
      rw [hnode] at hmade
      obtain ⟨n, -, hbaseId⟩ := htrace.created_ids made hmade
      exact ⟨n, hbaseId⟩

/-- An attempt that commits does so first, and spares the root afterwards. -/
theorem effects_of_committed {graph : RamDomainStorage}
    (hfresh : FreshIds aether app env replica frame.payload)
    (hunknown : findNode replica.runtime.nodes frame.targetNodeId = none)
    (hcommit : .commitObjectGraph graph ∈
      (onNodeState aether app env replica sourceEndpoint frame).effects) :
    ∃ validated rest, validateSnapshot aether app env replica sourceEndpoint frame =
        .ok (some validated) ∧
      (onNodeState aether app env replica sourceEndpoint frame).effects =
        .commitObjectGraph validated.graph :: rest ∧
      ∀ effect ∈ rest, effect.Spares frame.targetNodeId := by
  unfold onNodeState at hcommit ⊢
  rw [hunknown] at hcommit ⊢
  simp only at hcommit ⊢
  rcases importValidatedNode_cases aether app env replica sourceEndpoint frame with
    ⟨hnil, hnot⟩ | ⟨validated, hvalidate, -, ⟨reason, heq⟩ | ⟨node, hload, heq⟩⟩
  · -- Without an import there is nothing to commit.
    cases himport : (importValidatedNode aether app env replica sourceEndpoint frame).result
      with
    | error reason =>
        rw [EffectLog.bind_of_error _ himport, hnil] at hcommit
        cases hcommit
    | ok outcome =>
        rw [EffectLog.bind_of_ok _ himport, hnil] at hcommit
        cases outcome with
        | none => cases hcommit
        | some imported => exact absurd himport (hnot imported)
  · rw [heq, EffectLog.bind_of_error _ rfl]
    exact ⟨validated, [], hvalidate, rfl, by simp⟩
  · rw [heq, EffectLog.bind_of_ok _ rfl]
    refine ⟨validated, _, hvalidate, rfl, fun effect hmem => ?_⟩
    rcases List.mem_append.mp hmem with hfirst | hsecond
    · obtain ⟨object, hobject, rfl⟩ := List.mem_map.mp hfirst
      obtain ⟨made, hmade, rfl⟩ := List.mem_map.mp hobject
      obtain ⟨n, hbaseId⟩ :=
        created_ids_of_loadAdmittedNode hfresh.valid hload made hmade
      obtain ⟨parsed, rootLayers, hparsed, hlayers, -⟩ := exists_rootLayers hvalidate
      intro hid
      have hnone := hfresh.notInPayload (2 * n + 1) parsed hparsed
      rw [← hbaseId, show made.baseId = frame.targetNodeId from hid, hlayers] at hnone
      cases hnone
    · exact spares_of_onNodeStateOfImportedNode hsecond

/-- What an interrupted attempt left in storage: the layers of the root. -/
theorem InterruptedImport.stored {done : List (Effect α ε)}
    (hfresh : FreshIds aether app env replica frame.payload)
    (h : InterruptedImport aether app env replica sourceEndpoint frame done) :
    ∃ rootLayers, RamDomainStorage.layers?
        (done.foldl ReplicaStorage.perform replica.storage).objects frame.targetNodeId =
        some rootLayers ∧ rootLayers ≠ [] := by
  obtain ⟨graph, hgraph⟩ := h.committed
  obtain ⟨validated, rest, hvalidate, heffects, hspares⟩ := effects_of_committed hfresh
    h.unknown (h.ofAttempt.subset hgraph)
  obtain ⟨rootLayers, hlayers, hne⟩ := exists_graphLayers hfresh.scratch hvalidate
  have hdone' := h.ofAttempt
  rw [heffects] at hdone'
  cases hdone : done with
  | nil =>
      rw [hdone] at hgraph
      cases hgraph
  | cons first later =>
      rw [hdone, List.cons_prefix_cons] at hdone'
      obtain ⟨rfl, hlater⟩ := hdone'
      refine ⟨rootLayers, ?_, hne⟩
      rw [List.foldl_cons, layers?_foldl_perform fun effect hmem =>
        hspares effect (hlater.subset hmem)]
      change (RamDomainStorage.layers?
        (commitObjectGraph validated.graph replica.storage.objects) frame.targetNodeId) = _
      rw [layers?_commitObjectGraph, hlayers]
      rfl

end FirstAttempt

section Retry

variable {aether app}
variable {env : StepEnv} {recreated : Replica α ε} {sourceEndpoint : Bytes}
  {frame : NodeStateFrame}

/-- A graph with a root that storage has collides. -/
theorem collides_of_stored {validated : ValidatedSnapshot} {rootLayers : Layers}
    (hvalidate : validateSnapshot aether app env recreated sourceEndpoint frame =
      .ok (some validated))
    (hstored : RamDomainStorage.layers? recreated.storage.objects frame.targetNodeId =
      some rootLayers) (hne : rootLayers ≠ []) :
    collidesWithReceiver aether app recreated validated.graph = true := by
  obtain ⟨parsed, payloadLayers, -, hlayers, -, replayed, hgraph, -⟩ :=
    exists_rootLayers hvalidate
  have hlive := isSome_layers?_storeObjects aether parsed
    (createdObjects aether replayed.fields.created) frame.targetNodeId
    (Or.inr (by rw [hlayers]; rfl))
  rw [← hgraph] at hlive
  obtain ⟨graphLayers, hgraphLayers⟩ := Option.isSome_iff_exists.mp hlive
  rw [collidesWithReceiver, List.any_eq_true]
  refine ⟨(frame.targetNodeId, graphLayers), RamDomainStorage.mem_live_iff.mpr hgraphLayers,
    ?_⟩
  rw [occupiedAtReceiver, Bool.or_eq_true]
  right
  simp [hstored, hne]

/-- Over its own objects of the first attempt, an unregistered Node is refused. -/
theorem no_effects_of_stored {rootLayers : Layers}
    (hunknown : findNode recreated.runtime.nodes frame.targetNodeId = none)
    (hstored : RamDomainStorage.layers? recreated.storage.objects frame.targetNodeId =
      some rootLayers) (hne : rootLayers ≠ []) :
    (onNodeState aether app env recreated sourceEndpoint frame).effects = [] := by
  unfold onNodeState
  rw [hunknown]
  rcases importValidatedNode_cases aether app env recreated sourceEndpoint frame with
    ⟨hnil, hnot⟩ | ⟨validated, hvalidate, hfree, -⟩
  · cases himport : (importValidatedNode aether app env recreated sourceEndpoint
        frame).result with
    | error reason =>
        rw [EffectLog.bind_of_error _ himport]
        exact hnil
    | ok outcome =>
        rw [EffectLog.bind_of_ok _ himport, hnil]
        cases outcome with
        | none => rfl
        | some imported => exact absurd himport (hnot imported)
  · rw [collides_of_stored hvalidate hstored hne] at hfree
    cases hfree

/-- An answer of true acknowledges the frame and closes the expectation. -/
theorem bindAndAcknowledge_of_bound {runtime : SharedSyncRuntime α ε}
    {node : SharedNode α ε} {expectation : EndpointExpectation}
    (hopen : expectationOf runtime.expectedEndpointNodes sourceEndpoint = some expectation)
    (hcallback : runtime.callbackInstalled = true) (hbound : env.bound = true) :
    bindAndAcknowledge env runtime node sourceEndpoint frame =
      ⟨[.bindNode sourceEndpoint node true,
        .send sourceEndpoint (encodeAckFrame ⟨frame.packetId, frame.targetNodeId,
          frame.destinationShareId⟩)],
        .ok { runtime with
          expectedEndpointNodes := runtime.expectedEndpointNodes.erase expectation }⟩ := by
  unfold bindAndAcknowledge
  simp only [hopen, hcallback, hbound, Bool.not_true, Bool.false_eq_true, if_false, sendAck,
    perform_bind]
  rfl

/-- A Node of a list without repeated ids occurs once in it. -/
theorem countP_objId_eq_one {nodes : List (SharedNode α ε)} {node : SharedNode α ε}
    {nodeId : ObjId} (hfound : findNode nodes nodeId = some node)
    (hnodup : (nodes.map fun node => node.objId).Nodup) :
    nodes.countP (fun node => decide (node.objId = nodeId)) = 1 := by
  have hmem : nodeId ∈ nodes.map fun node => node.objId := by
    have hid : node.objId = nodeId := by simpa using List.find?_some hfound
    rw [← hid]
    exact List.mem_map_of_mem (List.mem_of_find?_eq_some hfound)
  have hcount := List.count_eq_one_of_mem hnodup hmem
  rw [List.count, List.countP_map] at hcount
  rw [← hcount]
  refine List.countP_congr fun other _ => ?_
  simp

/-- After an interrupted import the redelivered frame finishes it exactly when
the Node was registered again with the receipt of the packet noted. -/
theorem interruptedImport_finishes_iff {firstEnv : StepEnv} {replica : Replica α ε}
    {done : List (Effect α ε)}
    (hfresh : FreshIds aether app firstEnv replica frame.payload)
    (hinterrupted : InterruptedImport aether app firstEnv replica sourceEndpoint frame done)
    (hrecreated : RecreatedOver replica recreated sourceEndpoint done) :
    FinishesImport aether app env recreated sourceEndpoint frame ↔
      ∃ node, IsExactDuplicate recreated.runtime node sourceEndpoint frame := by
  obtain ⟨rootLayers, hstored, hne⟩ := hinterrupted.stored hfresh
  rw [← hrecreated.storage] at hstored
  obtain ⟨expectation, -, hopen⟩ := hrecreated.expected
  constructor
  · intro h
    obtain ⟨asked, hasked, -⟩ := h.asked
    cases hfound : findNode recreated.runtime.nodes frame.targetNodeId with
    | none =>
        rw [no_effects_of_stored hfound hstored hne] at hasked
        cases hasked
    | some node =>
        rw [onNodeState_of_known aether app env sourceEndpoint hfound] at hasked
        rcases onNodeStateOfKnownNode_cases env sourceEndpoint
          hfound with ⟨hduplicate, -⟩ | ⟨-, hnil, -⟩
        · exact ⟨node, hduplicate⟩
        · rw [hnil] at hasked
          cases hasked
  · rintro ⟨node, hduplicate⟩
    have hfound := hduplicate.1
    have houtcome := onNodeState_of_known aether app env sourceEndpoint hfound
    rcases onNodeStateOfKnownNode_cases env sourceEndpoint
      hfound with ⟨-, hbinds⟩ | ⟨hnot, -⟩
    · rw [hbinds] at houtcome
      refine ⟨⟨node, ?_, by simpa using List.find?_some hfound⟩, fun hbound => ?_⟩
      · rw [houtcome]
        exact bindNode_of_open hrecreated.callback hopen
      · rw [houtcome, bindAndAcknowledge_of_bound hopen hrecreated.callback hbound]
        exact ⟨_, rfl, by simp, countP_objId_eq_one hfound hrecreated.registeredOnce⟩
    · exact absurd hduplicate hnot

end Retry

section ChatReplicas

/-- The effect neither binds nor sends. -/
def Effect.isQuiet : Effect α ε → Bool
  | .bindNode _ _ bound => !bound
  | .send _ _ => false
  | _ => true

/-- What the client did with the room when its callback refused it. -/
def refusedEffects : List (Effect Messages MessageAddedEvent) :=
  (receiveFromHost false waitingClient (frameOf 900 10 15 (sharedRoom []))).effects

/-- The client after a restart: what it stored, and the expectation again. -/
def restartedClient : Replica Messages MessageAddedEvent :=
  { waitingClient with
    storage := refusedEffects.foldl ReplicaStorage.perform waitingClient.storage }

theorem refusedEffects_interrupted :
    InterruptedImport chatAether chatRoom (receiverEnv false) waitingClient hostEndpoint
      (frameOf 900 10 15 (sharedRoom [])) refusedEffects := by
  have hquiet : refusedEffects.all Effect.isQuiet = true := by decide +kernel
  have hcommits : refusedEffects.any (fun effect => effect.committedGraph?.isSome) = true :=
    by decide +kernel
  rw [List.all_eq_true] at hquiet
  rw [List.any_eq_true] at hcommits
  obtain ⟨effect, hmem, hcommit⟩ := hcommits
  refine ⟨rfl, List.prefix_refl _, ?_, fun endpoint node hbind => ?_,
    fun destination bytes hsend => ?_⟩
  · obtain ⟨graph, hgraph⟩ := Option.isSome_iff_exists.mp hcommit
    rw [Effect.committedGraph?_eq_some] at hgraph
    exact ⟨graph, hgraph ▸ hmem⟩
  · have hrefused := hquiet _ hbind
    cases hrefused
  · have hsent := hquiet _ hsend
    cases hsent

theorem restartedClient_runtime : restartedClient.runtime = waitingClient.runtime := by
  rw [restartedClient]

theorem restartedClient_recreated :
    RecreatedOver waitingClient restartedClient hostEndpoint refusedEffects where
  storage := by rw [restartedClient]
  localEndpoint := by rw [restartedClient_runtime]
  registeredOnce := by
    rw [restartedClient_runtime]
    exact List.nodup_nil
  callback := by
    rw [restartedClient_runtime]
    rfl
  expected := by
    rw [restartedClient_runtime]
    exact ⟨⟨hostEndpoint, chatRoomClassId, .empty⟩, rfl, rfl⟩

/-- The redelivered frame never reaches the callback of the restarted client. -/
theorem restartedClient_notFinished :
    InterruptedImport chatAether chatRoom (receiverEnv false) waitingClient hostEndpoint
        (frameOf 900 10 15 (sharedRoom [])) refusedEffects ∧
      RecreatedOver waitingClient restartedClient hostEndpoint refusedEffects ∧
      ¬ FinishesImport chatAether chatRoom (receiverEnv true) restartedClient hostEndpoint
        (frameOf 900 10 15 (sharedRoom [])) := by
  refine ⟨refusedEffects_interrupted, restartedClient_recreated, fun h => ?_⟩
  obtain ⟨node, hasked, -⟩ := h.asked
  have hempty : (receiveFromHost true restartedClient
      (frameOf 900 10 15 (sharedRoom []))).effects.isEmpty = true := by decide +kernel
  rw [List.isEmpty_iff] at hempty
  change _ ∈ (receiveFromHost true restartedClient
    (frameOf 900 10 15 (sharedRoom []))).effects at hasked
  rw [hempty] at hasked
  cases hasked

/-- The restart of the example, over the equivalence. -/
theorem restartedClient_finishes_iff :
    FinishesImport chatAether chatRoom (receiverEnv true) restartedClient hostEndpoint
        (frameOf 900 10 15 (sharedRoom [])) ↔
      ∃ node, IsExactDuplicate restartedClient.runtime node hostEndpoint
        (frameOf 900 10 15 (sharedRoom [])) := by
  have hfresh : FreshIds chatAether chatRoom (receiverEnv false) waitingClient
      (frameOf 900 10 15 (sharedRoom [])).payload :=
    receiverEnv_freshIds false (by decide) (by decide)
  exact interruptedImport_finishes_iff hfresh refusedEffects_interrupted
    restartedClient_recreated

end ChatReplicas

end AppTraverse
