import AppTraverse.Foundations.TransitionSystem
import AppTraverse.Admission.Registration

/-!
# Runs of expectations and received snapshots

An endpoint expectation names a class and, if it is valid, a Node id.  Frames for
an unknown Node are checked against it before the import; frames for a Node that
is registered are not, yet they reach the same lookup by source endpoint.

Runs consist of the two calls that set and drop an expectation and of received
NodeState frames.
-/

namespace AppTraverse

open Foundations

variable {α ε : Type} (aether : Aether α ε) (app : AppClass α ε)

/-- Aether creates an object as the class of its layers that all others are bases
of. -/
def LoadsMostDerived : Prop :=
  ∀ layers object top, aether.loadObject layers = some object →
    top ∈ layers.map Prod.fst →
    (∀ classId ∈ layers.map Prod.fst, classId = aether.objClassId ∨
      aether.derives classId top = true) → object.classId = top

/-- The Node is one the expectation asks for. -/
def EndpointExpectation.Asks (expectation : EndpointExpectation) (classId : ClassId)
    (nodeId : ObjId) : Prop :=
  classId = expectation.expectedRootClassId ∧
    (expectation.expectedNodeId.isValid = true → nodeId = expectation.expectedNodeId)

/-- The frame repeats the initial packet that the registered Node has recorded. -/
def IsExactDuplicate (runtime : SharedSyncRuntime α ε) (node : SharedNode α ε)
    (sourceEndpoint : Bytes) (frame : NodeStateFrame) : Prop :=
  findNode runtime.nodes frame.targetNodeId = some node ∧
    addressedToThisReplica node.fields.shares runtime.localEndpoint sourceEndpoint
      frame.destinationShareId = true ∧
    ∃ index state, destinationState node frame.destinationShareId = .ok (index, state) ∧
      state.receivedInitialPacketId = frame.packetId

/-- A replica together with the Nodes its callback has bound so far, each with
the endpoint it came from. -/
structure BindingHistory (α ε : Type) where
  replica : Replica α ε
  bound : List (Bytes × ObjId) := []

/-- The calls and frames of a run. -/
inductive ExpectationAction where
  | expect (sourceEndpoint : Bytes) (expectedRootClassId : ClassId)
      (expectedNodeId : ObjId)
  | forget (sourceEndpoint : Bytes)
  | receive (env : StepEnv) (sourceEndpoint : Bytes) (frame : NodeStateFrame)

/-- The Nodes that a call bound. -/
def boundBy (effects : List (Effect α ε)) : List (Bytes × ObjId) :=
  effects.filterMap fun effect =>
    match effect with
    | .bindNode sourceEndpoint node true => some (sourceEndpoint, node.objId)
    | _ => none

/-- What one action of a run does. -/
def ExpectationAction.outcome (replica : Replica α ε) :
    ExpectationAction → RuntimeM α ε (SharedSyncRuntime α ε)
  | .expect sourceEndpoint expectedRootClassId expectedNodeId =>
      pure (expectInitialNodeFromEndpoint replica.runtime sourceEndpoint
        expectedRootClassId expectedNodeId)
  | .forget sourceEndpoint =>
      pure (forgetInitialNodeFromEndpoint replica.runtime sourceEndpoint)
  | .receive env sourceEndpoint frame =>
      onNodeState aether app env replica sourceEndpoint frame

/-- One step of a run; a failed assertion ends it. -/
def expectationStep (history : BindingHistory α ε) (action : ExpectationAction) :
    Option (BindingHistory α ε) :=
  let outcome := action.outcome aether app history.replica
  match outcome.result with
  | .error _ => none
  | .ok runtime =>
      some ⟨history.replica.after outcome.effects runtime,
        history.bound ++ boundBy outcome.effects⟩

/-- What a received frame may do with expectations: the callback is asked, and an
expectation erased, only for a Node that the open expectation of that endpoint
asks for; and a repeat of the initial packet of a Node bound before is only
acknowledged when the open expectation asks for another Node. -/
structure RespectsExpectations (history : BindingHistory α ε) (env : StepEnv)
    (sourceEndpoint : Bytes) (frame : NodeStateFrame) : Prop where
  asked : ∀ endpoint node bound, .bindNode endpoint node bound ∈
      (onNodeState aether app env history.replica sourceEndpoint frame).effects →
    endpoint = sourceEndpoint ∧ node.objId = frame.targetNodeId ∧
      ∃ expectation, expectationOf history.replica.runtime.expectedEndpointNodes
          sourceEndpoint = some expectation ∧
        expectation.Asks node.classId frame.targetNodeId
  erased : ∀ runtime',
    (onNodeState aether app env history.replica sourceEndpoint frame).result =
      .ok runtime' →
    ∀ expectation ∈ history.replica.runtime.expectedEndpointNodes,
      expectation ∉ runtime'.expectedEndpointNodes →
      expectation.sourceEndpoint = sourceEndpoint ∧
        ∃ node, findNode runtime'.nodes frame.targetNodeId = some node ∧
          expectation.Asks node.classId frame.targetNodeId
  repeated : ∀ node, IsExactDuplicate history.replica.runtime node sourceEndpoint frame →
    (sourceEndpoint, frame.targetNodeId) ∈ history.bound →
    (∀ expectation, expectationOf history.replica.runtime.expectedEndpointNodes
        sourceEndpoint = some expectation →
      ¬ expectation.Asks node.classId frame.targetNodeId) →
    onNodeState aether app env history.replica sourceEndpoint frame =
      ⟨[.send sourceEndpoint (encodeAckFrame ⟨frame.packetId, frame.targetNodeId,
        frame.destinationShareId⟩)], .ok history.replica.runtime⟩

/-- The property of one step of a run. -/
def StepRespects (history : BindingHistory α ε) : ExpectationAction → Prop
  | .receive env sourceEndpoint frame =>
      RespectsExpectations aether app history env sourceEndpoint frame
  | _ => True

/-- No frame repeats the initial packet of a registered Node while the open
expectation of its source endpoint asks for another Node. -/
def NoForeignDuplicate (history : BindingHistory α ε) : ExpectationAction → Prop
  | .receive _ sourceEndpoint frame =>
      ∀ node, IsExactDuplicate history.replica.runtime node sourceEndpoint frame →
        ∀ expectation, expectationOf history.replica.runtime.expectedEndpointNodes
            sourceEndpoint = some expectation →
          expectation.Asks node.classId frame.targetNodeId
  | _ => True

section Binding

variable {env : StepEnv} {runtime runtime' : SharedSyncRuntime α ε} {node : SharedNode α ε}
  {sourceEndpoint : Bytes} {frame : NodeStateFrame}

/-- Binding asks the callback only under an open expectation of the endpoint, and
only about the Node at hand. -/
theorem bindNode_mem_bindAndAcknowledge {endpoint : Bytes} {asked : SharedNode α ε}
    {bound : Bool}
    (h : .bindNode endpoint asked bound ∈
      (bindAndAcknowledge env runtime node sourceEndpoint frame).effects) :
    endpoint = sourceEndpoint ∧ asked = node ∧ bound = env.bound ∧
      ∃ expectation, expectationOf runtime.expectedEndpointNodes sourceEndpoint =
        some expectation := by
  unfold bindAndAcknowledge at h
  cases hexpectation : expectationOf runtime.expectedEndpointNodes sourceEndpoint with
  | none => simp [hexpectation, sendAck] at h
  | some expectation =>
      cases hcallback : runtime.callbackInstalled with
      | false => simp [hexpectation, hcallback] at h
      | true =>
          cases hbound : env.bound with
          | false =>
              simp [hexpectation, hcallback, hbound] at h
              exact ⟨h.1, h.2.1, by rw [h.2.2], expectation, rfl⟩
          | true =>
              simp [hexpectation, hcallback, hbound, sendAck] at h
              exact ⟨h.1, h.2.1, by rw [h.2.2], expectation, rfl⟩

/-- Binding erases only the open expectation of the endpoint. -/
theorem erased_of_bindAndAcknowledge
    (h : (bindAndAcknowledge env runtime node sourceEndpoint frame).result =
      .ok runtime') {expectation : EndpointExpectation}
    (hbefore : expectation ∈ runtime.expectedEndpointNodes)
    (hafter : expectation ∉ runtime'.expectedEndpointNodes) :
    expectationOf runtime.expectedEndpointNodes sourceEndpoint = some expectation := by
  unfold bindAndAcknowledge at h
  cases hexpectation : expectationOf runtime.expectedEndpointNodes sourceEndpoint with
  | none =>
      simp only [hexpectation, sendAck, perform_bind, EffectLog.pure_result] at h
      cases h
      exact absurd hbefore hafter
  | some opened =>
      simp only [hexpectation] at h
      split at h
      case isTrue =>
        cases h
        exact absurd hbefore hafter
      case isFalse =>
        simp only [perform_bind] at h
        split at h
        case isTrue =>
          cases h
          exact absurd hbefore hafter
        case isFalse =>
          simp only [sendAck, perform_bind, EffectLog.pure_result] at h
          cases h
          by_cases hsame : expectation = opened
          · rw [hsame]
          · exact absurd ((List.mem_erase_of_ne hsame).mpr hbefore) hafter

/-- With a callback and an open expectation the callback is asked. -/
theorem bindNode_of_open {expectation : EndpointExpectation}
    (hcallback : runtime.callbackInstalled = true)
    (hopen : expectationOf runtime.expectedEndpointNodes sourceEndpoint =
      some expectation) :
    .bindNode sourceEndpoint node env.bound ∈
      (bindAndAcknowledge env runtime node sourceEndpoint frame).effects := by
  unfold bindAndAcknowledge
  cases hbound : env.bound with
  | false => simp [hopen, hcallback]
  | true => simp [hopen, hcallback, sendAck]

theorem callbackInstalled_of_bindAndAcknowledge
    (h : (bindAndAcknowledge env runtime node sourceEndpoint frame).result =
      .ok runtime') : runtime'.callbackInstalled = runtime.callbackInstalled := by
  unfold bindAndAcknowledge at h
  cases hexpectation : expectationOf runtime.expectedEndpointNodes sourceEndpoint with
  | none =>
      simp only [hexpectation, sendAck, perform_bind, EffectLog.pure_result] at h
      cases h
      rfl
  | some opened =>
      simp only [hexpectation] at h
      split at h
      case isTrue =>
        cases h
        rfl
      case isFalse =>
        simp only [perform_bind] at h
        split at h
        case isTrue =>
          cases h
          rfl
        case isFalse =>
          simp only [sendAck, perform_bind, EffectLog.pure_result] at h
          cases h
          rfl

/-- A frame for a registered Node is bound and acknowledged if it is an exact
duplicate, and ignored otherwise. -/
theorem onNodeStateOfKnownNode_cases (env : StepEnv) (sourceEndpoint : Bytes)
    (hfound : findNode runtime.nodes frame.targetNodeId = some node) :
    (IsExactDuplicate runtime node sourceEndpoint frame ∧
      onNodeStateOfKnownNode env runtime node sourceEndpoint frame =
        bindAndAcknowledge env runtime node sourceEndpoint frame) ∨
    (¬ IsExactDuplicate runtime node sourceEndpoint frame ∧
      (onNodeStateOfKnownNode env runtime node sourceEndpoint frame).effects = [] ∧
      ∀ runtime', (onNodeStateOfKnownNode env runtime node sourceEndpoint frame).result =
        .ok runtime' → runtime' = runtime) := by
  unfold onNodeStateOfKnownNode
  cases haddressed : addressedToThisReplica node.fields.shares runtime.localEndpoint
      sourceEndpoint frame.destinationShareId with
  | false =>
      refine Or.inr ⟨fun hduplicate => ?_, by simp, by simp⟩
      have htrue := hduplicate.2.1
      rw [haddressed] at htrue
      cases htrue
  | true =>
      cases hstate : destinationState node frame.destinationShareId with
      | error reason =>
          refine Or.inr ⟨?_, by simp, by simp⟩
          rintro ⟨-, -, index, state, hfind, -⟩
          rw [hstate] at hfind
          cases hfind
      | ok found =>
          obtain ⟨index, state⟩ := found
          by_cases hreceived : state.receivedInitialPacketId = frame.packetId
          · refine Or.inl ⟨⟨hfound, haddressed, index, state, hstate, hreceived⟩, ?_⟩
            simp [hreceived]
          · refine Or.inr ⟨?_, by simp [hreceived], by simp [hreceived]⟩
            rintro ⟨-, -, index', state', hfind, hsame⟩
            rw [hstate] at hfind
            cases hfind
            exact hreceived hsame

end Binding

section Import

variable {aether app}
variable {env : StepEnv} {replica : Replica α ε} {sourceEndpoint : Bytes}
  {frame : NodeStateFrame} {imported : ImportedNode α ε}

/-- The effect only writes to storage. -/
def Effect.isWrite : Effect α ε → Bool
  | .bindNode _ _ _ => false
  | .send _ _ => false
  | _ => true

theorem isWrite_of_isSave {effect : Effect α ε} (h : effect.isSave = true) :
    effect.isWrite = true := by
  cases effect with
  | saveNode node => rfl
  | saveLinkSyncState nodeId state => rfl
  | commitObjectGraph graph => cases h
  | storeObject id layers => cases h
  | bindNode endpoint node bound => cases h
  | send destination bytes => cases h

theorem isWrite_importEffects {validated : ValidatedSnapshot} :
    ∀ effect ∈ importEffects aether validated imported, effect.isWrite = true := by
  intro effect heffect
  rcases List.mem_cons.mp heffect with rfl | hmem
  · rfl
  · obtain ⟨object, -, rfl⟩ := List.mem_map.mp hmem
    rfl

/-- The Node that an import returns under an open expectation is one it asks
for. -/
theorem asks_of_importValidatedNode (hmost : LoadsMostDerived aether)
    (hfresh : ScratchIdsFresh aether env frame.payload)
    (himport : (importValidatedNode aether app env replica sourceEndpoint frame).result =
      .ok (some imported)) {expectation : EndpointExpectation}
    (hopen : expectationOf replica.runtime.expectedEndpointNodes sourceEndpoint =
      some expectation) :
    expectation.Asks imported.node.classId frame.targetNodeId ∧
      imported.node.objId = frame.targetNodeId := by
  obtain ⟨parsed, validated, root, hadmission, -⟩ := exists_admission aether app himport
  obtain ⟨candidate, replayed, share, hscratch⟩ :=
    exists_scratchValidation aether app hadmission.scratch
  obtain ⟨snapshot, applied, -, -, -, hnode⟩ := replayFromBase_keeps hadmission.replay
  have hclassId : imported.node.classId = root.classId := by rw [hnode]
  have hobjId : imported.node.objId = root.objId := by rw [hnode]
  -- The root was loaded from the object of the payload.
  obtain ⟨object, shared, states, -, hfrom, -⟩ := exists_loadedFrom aether hscratch.load
  obtain ⟨object', shared', states', -, hfrom', -⟩ :=
    exists_loadedFrom aether hadmission.load
  cases (hadmission.find_extends aether app hfresh _ _ hfrom.found).symm.trans hfrom'.found
  obtain ⟨layers, hlayers, hobject⟩ := Option.bind_eq_some_iff.mp hfrom.found
  have hvalidate := hadmission.validate
  unfold validateSnapshot at hvalidate
  cases hexpected : expectedClassOf replica.runtime sourceEndpoint frame.targetNodeId with
  | none => simp [hexpected] at hvalidate
  | some expectedClass =>
      cases hchains : validateStoredClassChains aether parsed with
      | none => simp [hexpected, hadmission.parsed_eq, hchains] at hvalidate
      | some chains =>
          simp only [hexpected, hadmission.parsed_eq, hchains] at hvalidate
          split at hvalidate
          case isTrue => cases hvalidate
          case isFalse hroot =>
            rw [Bool.not_eq_true, Bool.not_eq_false'] at hroot
            unfold expectedClassOf at hexpected
            rw [hopen] at hexpected
            simp only at hexpected
            split at hexpected
            case isTrue => cases hexpected
            case isFalse hid =>
              cases hexpected
              unfold rootClassIsExpected at hroot
              split at hroot
              case h_1 => cases hroot
              case h_2 info hfind =>
                simp only [Bool.and_eq_true, decide_eq_true_eq] at hroot
                obtain ⟨layers', hlayers', hchain⟩ :=
                  mem_of_validateStoredClassChains aether hchains
                    (List.mem_of_find?_eq_some hfind)
                have hinfoId : info.objId = frame.targetNodeId := by
                  simpa using List.find?_some hfind
                rw [hinfoId, hlayers] at hlayers'
                cases hlayers'
                obtain ⟨-, -, hmem, hall⟩ :=
                  mostDerived_of_validateStoredClassChain aether hchain
                refine ⟨⟨?_, fun hvalid => ?_⟩, hobjId.trans hfrom'.objId⟩
                · rw [hclassId, hfrom'.classId, hmost layers object _ hobject hmem hall]
                  exact hroot.2
                · rw [hvalid, Bool.true_and, decide_eq_true_eq, not_not] at hid
                  exact hid

/-- An import only writes, whether it returns a Node or not. -/
theorem isWrite_of_importValidatedNode {effect : Effect α ε}
    (h : effect ∈
      (importValidatedNode aether app env replica sourceEndpoint frame).effects) :
    effect.isWrite = true := by
  rcases importValidatedNode_cases aether app env replica sourceEndpoint frame with
    ⟨hnil, -⟩ | ⟨validated, -, -, ⟨reason, heq⟩ | ⟨node, -, heq⟩⟩
  · rw [hnil] at h
    cases h
  · rw [heq] at h
    rw [List.mem_singleton.mp h]
    rfl
  · rw [heq] at h
    exact isWrite_importEffects effect h

/-- A frame for a registered Node never gets to the import. -/
theorem onNodeState_of_known (aether : Aether α ε) (app : AppClass α ε) (env : StepEnv)
    (sourceEndpoint : Bytes) {node : SharedNode α ε}
    (hfound : findNode replica.runtime.nodes frame.targetNodeId = some node) :
    onNodeState aether app env replica sourceEndpoint frame =
      onNodeStateOfKnownNode env replica.runtime node sourceEndpoint frame := by
  unfold onNodeState
  rw [hfound]

/-- A frame for an unknown Node either only writes and leaves the runtime as it
is, or registers the imported Node, binds and acknowledges it. -/
theorem onNodeState_of_unknown (aether : Aether α ε) (app : AppClass α ε) (env : StepEnv)
    (sourceEndpoint : Bytes)
    (hunknown : findNode replica.runtime.nodes frame.targetNodeId = none) :
    ((∀ effect ∈ (onNodeState aether app env replica sourceEndpoint frame).effects,
        effect.isWrite = true) ∧
      ∀ runtime', (onNodeState aether app env replica sourceEndpoint frame).result =
        .ok runtime' → runtime' = replica.runtime) ∨
    ∃ imported saved completed registered index state,
      (importValidatedNode aether app env replica sourceEndpoint frame).result =
        .ok (some imported) ∧
      Registration env imported frame completed registered index state ∧
      (∀ effect ∈ saved, effect.isWrite = true) ∧
      (onNodeState aether app env replica sourceEndpoint frame).effects =
        saved ++ (bindAndAcknowledge env
          { replica.runtime with nodes := replica.runtime.nodes ++ [registered] }
          registered sourceEndpoint frame).effects ∧
      (onNodeState aether app env replica sourceEndpoint frame).result =
        (bindAndAcknowledge env
          { replica.runtime with nodes := replica.runtime.nodes ++ [registered] }
          registered sourceEndpoint frame).result := by
  have hwrites : ∀ effect ∈
      (importValidatedNode aether app env replica sourceEndpoint frame).effects,
      effect.isWrite = true := fun effect => isWrite_of_importValidatedNode
  unfold onNodeState
  rw [hunknown]
  cases himport : (importValidatedNode aether app env replica sourceEndpoint frame).result
    with
  | error reason =>
      simp only [EffectLog.bind_of_error _ himport]
      exact Or.inl ⟨hwrites, by simp⟩
  | ok outcome =>
      simp only [EffectLog.bind_of_ok _ himport]
      cases outcome with
      | none => exact Or.inl ⟨by simpa using hwrites, by simp⟩
      | some imported =>
          rcases onNodeStateOfImportedNode_outcome env replica.runtime imported
            sourceEndpoint frame with
            ⟨hsaved, hkept⟩ | ⟨saved, completed, registered, index, state, hregistration,
              hsaved, heffects, hresult⟩
          · refine Or.inl ⟨fun effect hmem => ?_, hkept⟩
            rcases List.mem_append.mp hmem with hfirst | hsecond
            · exact hwrites effect hfirst
            · exact isWrite_of_isSave (hsaved effect hsecond)
          · refine Or.inr ⟨imported,
              (importValidatedNode aether app env replica sourceEndpoint frame).effects ++
                saved, completed, registered, index, state, rfl, hregistration,
              fun effect hmem => ?_, ?_, hresult⟩
            · rcases List.mem_append.mp hmem with hfirst | hsecond
              · exact hwrites effect hfirst
              · exact isWrite_of_isSave (hsaved effect hsecond)
            · rw [heffects, List.append_assoc]

end Import

section Steps

variable {aether app}

theorem findNode_append_singleton {nodes : List (SharedNode α ε)} {node : SharedNode α ε}
    {nodeId : ObjId} (hunknown : findNode nodes nodeId = none) (hid : node.objId = nodeId) :
    findNode (nodes ++ [node]) nodeId = some node := by
  rw [findNode] at hunknown ⊢
  rw [List.find?_append, hunknown, Option.none_or, List.find?_singleton,
    if_pos (decide_eq_true hid)]

theorem not_isWrite_bindNode {endpoint : Bytes} {node : SharedNode α ε} {bound : Bool}
    (h : (Effect.bindNode endpoint node bound).isWrite = true) : False :=
  Bool.false_ne_true h

/-- A frame for an unknown Node was checked before its import. -/
theorem respectsExpectations_of_unknown {history : BindingHistory α ε} {env : StepEnv}
    {sourceEndpoint : Bytes} {frame : NodeStateFrame} (hmost : LoadsMostDerived aether)
    (hfresh : ScratchIdsFresh aether env frame.payload)
    (hunknown : findNode history.replica.runtime.nodes frame.targetNodeId = none) :
    RespectsExpectations aether app history env sourceEndpoint frame := by
  have hnone : ∀ node,
      ¬ IsExactDuplicate history.replica.runtime node sourceEndpoint frame := by
    rintro node ⟨hfound, -⟩
    rw [hunknown] at hfound
    cases hfound
  rcases onNodeState_of_unknown aether app env sourceEndpoint hunknown with
    ⟨hwrites, hkept⟩ | ⟨imported, saved, completed, registered, index, state, himport,
      hregistration, hsaved, heffects, hresult⟩
  · refine ⟨fun endpoint node bound hmem => ?_, fun runtime' hresult expectation hbefore
      hafter => ?_, fun node hduplicate => absurd hduplicate (hnone node)⟩
    · exact (not_isWrite_bindNode (hwrites _ hmem)).elim
    · rw [hkept runtime' hresult] at hafter
      exact absurd hbefore hafter
  · have hsame := hregistration.sameShared
    refine ⟨fun endpoint node bound hmem => ?_, fun runtime' hreturned expectation hbefore
      hafter => ?_, fun node hduplicate => absurd hduplicate (hnone node)⟩
    · rw [heffects] at hmem
      rcases List.mem_append.mp hmem with hfirst | hsecond
      · exact (not_isWrite_bindNode (hsaved _ hfirst)).elim
      · obtain ⟨rfl, rfl, -, expectation, hopen⟩ := bindNode_mem_bindAndAcknowledge hsecond
        obtain ⟨hasks, hid⟩ := asks_of_importValidatedNode hmost hfresh himport hopen
        exact ⟨rfl, hsame.objId.trans hid, expectation, hopen,
          by rw [hsame.classId]; exact hasks⟩
    · rw [hresult] at hreturned
      have hopen := erased_of_bindAndAcknowledge hreturned hbefore hafter
      obtain ⟨hasks, hid⟩ := asks_of_importValidatedNode hmost hfresh himport hopen
      obtain ⟨runtime'', hreturned', hnodes⟩ := bindAndAcknowledge_returns env
        { history.replica.runtime with
          nodes := history.replica.runtime.nodes ++ [registered] }
        registered sourceEndpoint frame
      cases hreturned.symm.trans hreturned'
      refine ⟨by simpa using List.find?_some hopen, registered, ?_,
        by rw [hsame.classId]; exact hasks⟩
      rw [hnodes]
      exact findNode_append_singleton hunknown (hsame.objId.trans hid)

/-- A received frame respects the expectations exactly when it is no duplicate
for a Node that the open expectation does not ask for. -/
theorem respectsExpectations_iff {history : BindingHistory α ε} {env : StepEnv}
    {sourceEndpoint : Bytes} {frame : NodeStateFrame} (hmost : LoadsMostDerived aether)
    (hfresh : ScratchIdsFresh aether env frame.payload)
    (hcallback : history.replica.runtime.callbackInstalled = true) :
    RespectsExpectations aether app history env sourceEndpoint frame ↔
      NoForeignDuplicate history (.receive env sourceEndpoint frame) := by
  cases hfound : findNode history.replica.runtime.nodes frame.targetNodeId with
  | none =>
      refine iff_of_true (respectsExpectations_of_unknown hmost hfresh hfound) ?_
      rintro node ⟨hknown, -⟩
      rw [hfound] at hknown
      cases hknown
  | some node =>
      have houtcome := onNodeState_of_known aether app env sourceEndpoint hfound
      have hid : node.objId = frame.targetNodeId := by
        simpa using List.find?_some hfound
      rcases onNodeStateOfKnownNode_cases env sourceEndpoint hfound with ⟨hduplicate, hbinds⟩ | ⟨hnot, heffects, hkept⟩
      · rw [hbinds] at houtcome
        constructor
        · -- The callback is asked about the duplicate, so it has to be asked for.
          intro h node' hduplicate' expectation hopen
          cases hfound.symm.trans hduplicate'.1
          obtain ⟨-, -, opened, hopened, hasks⟩ := h.asked sourceEndpoint node env.bound (by
            rw [houtcome]
            exact bindNode_of_open hcallback hopen)
          cases hopen.symm.trans hopened
          exact hasks
        · intro h
          refine ⟨fun endpoint asked bound hmem => ?_, fun runtime' hresult expectation
            hbefore hafter => ?_, fun node' hduplicate' _ hforeign => ?_⟩
          · rw [houtcome] at hmem
            obtain ⟨rfl, rfl, -, expectation, hopen⟩ := bindNode_mem_bindAndAcknowledge hmem
            exact ⟨rfl, hid, expectation, hopen, h asked hduplicate expectation hopen⟩
          · rw [houtcome] at hresult
            have hopen := erased_of_bindAndAcknowledge hresult hbefore hafter
            obtain ⟨runtime'', hresult', hnodes⟩ := bindAndAcknowledge_returns env
              history.replica.runtime node sourceEndpoint frame
            cases hresult.symm.trans hresult'
            exact ⟨by simpa using List.find?_some hopen, node, by rw [hnodes, hfound],
              h node hduplicate expectation hopen⟩
          · cases hfound.symm.trans hduplicate'.1
            rw [houtcome]
            unfold bindAndAcknowledge
            cases hopen : expectationOf history.replica.runtime.expectedEndpointNodes
                sourceEndpoint with
            | none =>
                simp only [sendAck, perform_bind]
                rfl
            | some expectation =>
                exact absurd (h node hduplicate expectation hopen)
                  (hforeign expectation hopen)
      · refine iff_of_true ⟨fun endpoint asked bound hmem => ?_, fun runtime' hresult
          expectation hbefore hafter => ?_, fun node' hduplicate _ _ => ?_⟩ ?_
        · rw [houtcome, heffects] at hmem
          cases hmem
        · rw [houtcome] at hresult
          rw [hkept runtime' hresult] at hafter
          exact absurd hbefore hafter
        · cases hfound.symm.trans hduplicate.1
          exact absurd hduplicate hnot
        · intro node' hduplicate
          cases hfound.symm.trans hduplicate.1
          exact absurd hduplicate hnot

/-- The step of a received frame whose reception returned. -/
theorem expectationStep_receive {history : BindingHistory α ε} {env : StepEnv}
    {sourceEndpoint : Bytes} {frame : NodeStateFrame} {runtime : SharedSyncRuntime α ε}
    (h : (onNodeState aether app env history.replica sourceEndpoint frame).result =
      .ok runtime) :
    expectationStep aether app history (.receive env sourceEndpoint frame) =
      some ⟨history.replica.after
          (onNodeState aether app env history.replica sourceEndpoint frame).effects runtime,
        history.bound ++ boundBy
          (onNodeState aether app env history.replica sourceEndpoint frame).effects⟩ := by
  simp [expectationStep, ExpectationAction.outcome, h]

/-- A received frame leaves the callback installed. -/
theorem callbackInstalled_of_onNodeState {env : StepEnv} {replica : Replica α ε}
    {sourceEndpoint : Bytes} {frame : NodeStateFrame} {runtime : SharedSyncRuntime α ε}
    (h : (onNodeState aether app env replica sourceEndpoint frame).result = .ok runtime) :
    runtime.callbackInstalled = replica.runtime.callbackInstalled := by
  cases hfound : findNode replica.runtime.nodes frame.targetNodeId with
  | none =>
      rcases onNodeState_of_unknown aether app env sourceEndpoint hfound with
        ⟨-, hkept⟩ | ⟨imported, saved, completed, registered, index, state, -, -, -, -, hbinds⟩
      · rw [hkept runtime h]
      · have hbound := callbackInstalled_of_bindAndAcknowledge (hbinds.symm.trans h)
        exact hbound
  | some node =>
      rw [onNodeState_of_known aether app env sourceEndpoint hfound] at h
      rcases onNodeStateOfKnownNode_cases env sourceEndpoint hfound with ⟨-, hbinds⟩ | ⟨-, -, hkept⟩
      · rw [hbinds] at h
        exact callbackInstalled_of_bindAndAcknowledge h
      · rw [hkept runtime h]

/-- No action of a run takes the callback away. -/
theorem callbackInstalled_expectationStep {history next : BindingHistory α ε}
    {action : ExpectationAction}
    (h : history.replica.runtime.callbackInstalled = true)
    (hstep : expectationStep aether app history action = some next) :
    next.replica.runtime.callbackInstalled = true := by
  unfold expectationStep at hstep
  simp only at hstep
  split at hstep
  case h_1 => cases hstep
  case h_2 runtime hresult =>
    cases hstep
    change runtime.callbackInstalled = true
    rw [← h]
    cases action with
    | expect sourceEndpoint classId nodeId =>
        cases hresult
        unfold expectInitialNodeFromEndpoint
        simp only
        split
        · rfl
        · split <;> rfl
    | forget sourceEndpoint =>
        cases hresult
        unfold forgetInitialNodeFromEndpoint
        split <;> rfl
    | receive env sourceEndpoint frame => exact callbackInstalled_of_onNodeState hresult

/-- A run respects the expectations at every step exactly when no step of it
delivers a duplicate for a Node that the open expectation does not ask for. -/
theorem expectationRun_respects_iff {history : BindingHistory α ε}
    {actions : List ExpectationAction} (hmost : LoadsMostDerived aether)
    (hfresh : ∀ env sourceEndpoint frame, .receive env sourceEndpoint frame ∈ actions →
      ScratchIdsFresh aether env frame.payload)
    (hcallback : history.replica.runtime.callbackInstalled = true) :
    EveryStep (expectationStep aether app) (StepRespects aether app) history actions ↔
      EveryStep (expectationStep aether app) NoForeignDuplicate history actions := by
  refine everyStep_congr
    (fun history => history.replica.runtime.callbackInstalled = true)
    (fun history action next h hstep => callbackInstalled_expectationStep h hstep)
    (fun history action h hmem => ?_) hcallback
  cases action with
  | expect sourceEndpoint classId nodeId => exact Iff.rfl
  | forget sourceEndpoint => exact Iff.rfl
  | receive env sourceEndpoint frame =>
      exact respectsExpectations_iff hmost (hfresh env sourceEndpoint frame hmem) h

end Steps

section ChatReplicas

theorem chatAether_loadsMostDerived : LoadsMostDerived chatAether := by
  intro layers object top hload hmem hall
  refine loadFromLayers_mostDerived chatTree _ hload hmem fun classId hclass => ?_
  rcases hall classId hclass with hroot | hderives
  · exact Or.inl hroot
  · exact Or.inr (of_decide_eq_true hderives)

/-- The room of the host is bound, another Node is expected from the same
endpoint, and the packet of the room arrives once more. -/
def roomArrivesAgain : List ExpectationAction :=
  [.receive (receiverEnv true) hostEndpoint (frameOf 900 10 15 (sharedRoom [])),
    .expect hostEndpoint chatRoomClassId ⟨555⟩,
    .receive (receiverEnv true) hostEndpoint (frameOf 900 10 15 (sharedRoom []))]

/-- The client after the first two of these actions. -/
def expectsAnotherNode (runtime : SharedSyncRuntime Messages MessageAddedEvent) :
    Replica Messages MessageAddedEvent :=
  (waitingClient.after
    (receiveFromHost true waitingClient (frameOf 900 10 15 (sharedRoom []))).effects
    runtime).after []
    (expectInitialNodeFromEndpoint runtime hostEndpoint chatRoomClassId ⟨555⟩)

/-- The effect asks the binding callback. -/
def Effect.asksCallback : Effect α ε → Bool
  | .bindNode _ _ _ => true
  | _ => false

/-- The third asks the callback about a Node that nobody expects. -/
theorem roomArrivesAgain_notRespected :
    ¬ EveryStep (expectationStep chatAether chatRoom) (StepRespects chatAether chatRoom)
      ⟨waitingClient, []⟩ roomArrivesAgain := by
  intro h
  obtain ⟨runtime, hresult, htest⟩ := EffectLog.exists_ok_of_test
    (x := receiveFromHost true waitingClient (frameOf 900 10 15 (sharedRoom [])))
    (fun runtime =>
      (receiveFromHost true (expectsAnotherNode runtime)
        (frameOf 900 10 15 (sharedRoom []))).effects.any Effect.asksCallback &&
      decide (expectationOf (expectsAnotherNode runtime).runtime.expectedEndpointNodes
        hostEndpoint = some ⟨hostEndpoint, chatRoomClassId, ⟨555⟩⟩)) (by decide +kernel)
  rw [Bool.and_eq_true, List.any_eq_true, decide_eq_true_eq] at htest
  obtain ⟨⟨effect, heffect, hbinds⟩, hopen⟩ := htest
  obtain ⟨-, hsecond⟩ := everyStep_cons.mp h
  have hfirst := @expectationStep_receive _ _ chatAether chatRoom ⟨waitingClient, []⟩
    (receiverEnv true) hostEndpoint (frameOf 900 10 15 (sharedRoom [])) runtime hresult
  obtain ⟨-, hthird⟩ := everyStep_cons.mp (hsecond _ hfirst)
  obtain ⟨hrespects, -⟩ := everyStep_cons.mp (hthird _ rfl)
  cases effect with
  | bindNode endpoint node bound =>
      obtain ⟨-, -, expectation, hexpectation, hasks⟩ :=
        RespectsExpectations.asked hrespects endpoint node bound heffect
      cases hopen.symm.trans hexpectation
      have hid := hasks.2 (by decide)
      exact absurd hid (by decide)
  | commitObjectGraph graph => cases hbinds
  | storeObject id layers => cases hbinds
  | saveNode node => cases hbinds
  | saveLinkSyncState nodeId state => cases hbinds
  | send destination bytes => cases hbinds

/-- The actions of the example, over the equivalence. -/
theorem roomArrivesAgain_respects_iff :
    EveryStep (expectationStep chatAether chatRoom) (StepRespects chatAether chatRoom)
        ⟨waitingClient, []⟩ roomArrivesAgain ↔
      EveryStep (expectationStep chatAether chatRoom) NoForeignDuplicate
        ⟨waitingClient, []⟩ roomArrivesAgain := by
  refine expectationRun_respects_iff chatAether_loadsMostDerived
    (fun env sourceEndpoint frame hmem => ?_) rfl
  have hfresh : ScratchIdsFresh chatAether (receiverEnv true)
      (frameOf 900 10 15 (sharedRoom [])).payload :=
    receiverEnv_scratchIdsFresh true (by decide)
  rcases List.mem_cons.mp hmem with heq | hmem
  · cases heq
    exact hfresh
  · rcases List.mem_cons.mp hmem with heq | hmem
    · cases heq
    · cases List.mem_singleton.mp hmem
      exact hfresh

end ChatReplicas

end AppTraverse
