import AppTraverse.Admission.ProductionLoad
import AppTraverse.Journal.NodeChanges

/-!
# Registering an imported Node

The second half of `OnNodeState`.  A Node that `ImportValidatedNode` returned is
registered with its source state completed and its destination state noted; the
binding callback only decides about the acknowledgement and the expectation.
-/

namespace AppTraverse

open Foundations

variable {α ε : Type} (aether : Aether α ε) (app : AppClass α ε)

/-- A commit on a local sync state changes that entry and nothing else. -/
theorem commitLinkSyncEvent_eq_ok_iff {node next : SharedNode α ε} {index : Nat}
    {eventId : ObjId} {event : LinkSyncEvent} :
    commitLinkSyncEvent node index eventId event = .ok next ↔
      ∃ state committed, linkSyncStateAt node index = .ok state ∧
        state.commit eventId event = .ok committed ∧
        next = setLinkSyncStateAt node index committed := by
  simp only [commitLinkSyncEvent, except_bind_eq_ok_iff]
  constructor
  · rintro ⟨state, hstate, committed, hcommitted, h⟩
    exact ⟨state, committed, hstate, hcommitted, (Except.ok.inj h).symm⟩
  · rintro ⟨state, committed, hstate, hcommitted, rfl⟩
    exact ⟨state, hstate, committed, hcommitted, rfl⟩

/-- The shared part of a Node and its identity. -/
structure SameShared (node node' : SharedNode α ε) : Prop where
  objId : node'.objId = node.objId
  classId : node'.classId = node.classId
  base : node'.base = node.base
  journal : node'.journal = node.journal
  shares : node'.fields.shares = node.fields.shares
  app : node'.fields.app = node.fields.app
  created : node'.fields.created = node.fields.created

theorem SameShared.trans {node node' node'' : SharedNode α ε} (h : SameShared node node')
    (h' : SameShared node' node'') : SameShared node node'' where
  objId := h'.objId.trans h.objId
  classId := h'.classId.trans h.classId
  base := h'.base.trans h.base
  journal := h'.journal.trans h.journal
  shares := h'.shares.trans h.shares
  app := h'.app.trans h.app
  created := h'.created.trans h.created

theorem sameShared_of_commitLinkSyncEvent {node next : SharedNode α ε} {index : Nat}
    {eventId : ObjId} {event : LinkSyncEvent}
    (h : commitLinkSyncEvent node index eventId event = .ok next) :
    SameShared node next := by
  obtain ⟨state, committed, -, -, rfl⟩ := commitLinkSyncEvent_eq_ok_iff.mp h
  exact ⟨rfl, rfl, rfl, rfl, rfl, rfl, rfl⟩

/-- A commit on a sync state keeps the relationship it belongs to. -/
theorem shareId_of_commit {state committed : LinkSyncState} {eventId : ObjId}
    {event : LinkSyncEvent} (h : state.commit eventId event = .ok committed) :
    committed.shareId = state.shareId := by
  obtain ⟨-, -, h⟩ := except_bind_eq_ok_iff.mp h
  cases event with
  | setLinkInitialSyncPhase phase => cases h; rfl
  | completeInitialSync => cases h; rfl
  | noteInitialSyncReceived packetId => cases h; rfl
  | completeFromReceivedSnapshot covered => cases h; rfl
  | beginInitialSync packet covered =>
      obtain ⟨-, -, h⟩ := except_bind_eq_ok_iff.mp h
      obtain ⟨-, -, h⟩ := except_bind_eq_ok_iff.mp h
      cases h
      rfl
  | beginIncrementalEventSync identity packet =>
      obtain ⟨-, -, h⟩ := except_bind_eq_ok_iff.mp h
      obtain ⟨-, -, h⟩ := except_bind_eq_ok_iff.mp h
      obtain ⟨-, -, h⟩ := except_bind_eq_ok_iff.mp h
      obtain ⟨-, -, h⟩ := except_bind_eq_ok_iff.mp h
      cases h
      rfl
  | completeIncrementalEventSync =>
      obtain ⟨-, -, h⟩ := except_bind_eq_ok_iff.mp h
      cases h
      rfl

theorem map_key_modify {entries : List (Ref LinkSyncState)} {index : Nat}
    {state committed : LinkSyncState}
    (hat : entries[index]?.bind Ref.obj = some state)
    (hsame : committed.shareId = state.shareId) :
    (entries.modify index fun entry => { entry with obj := some committed }).map
        (fun entry => (entry.id, syncKey entry)) =
      entries.map fun entry => (entry.id, syncKey entry) := by
  induction entries generalizing index with
  | nil => cases index <;> rfl
  | cons head tail ih =>
      cases index with
      | zero =>
          have hhead : head.obj = some state := by simpa using hat
          simp [syncKey, hhead, hsame]
      | succ index =>
          have htail := @ih index (by simpa using hat)
          simpa using htail

/-- A commit on a sync state keeps the ids and the relationships of all. -/
theorem map_key_of_commitLinkSyncEvent {node next : SharedNode α ε} {index : Nat}
    {eventId : ObjId} {event : LinkSyncEvent}
    (h : commitLinkSyncEvent node index eventId event = .ok next) :
    next.fields.linkSyncStates.map (fun entry => (entry.id, syncKey entry)) =
      node.fields.linkSyncStates.map fun entry => (entry.id, syncKey entry) := by
  obtain ⟨state, committed, hat, hcommit, rfl⟩ := commitLinkSyncEvent_eq_ok_iff.mp h
  refine map_key_modify ?_ (shareId_of_commit hcommit)
  unfold linkSyncStateAt at hat
  split at hat
  case h_1 => cases hat
  case h_2 found hfound => rw [hfound, Except.ok.inj hat]

/-- Binding and acknowledging never fails and keeps the registered Nodes. -/
theorem bindAndAcknowledge_returns (env : StepEnv) (runtime : SharedSyncRuntime α ε)
    (node : SharedNode α ε) (sourceEndpoint : Bytes) (frame : NodeStateFrame) :
    ∃ runtime', (bindAndAcknowledge env runtime node sourceEndpoint frame).result =
      .ok runtime' ∧ runtime'.nodes = runtime.nodes := by
  unfold bindAndAcknowledge
  cases hexpectation : expectationOf runtime.expectedEndpointNodes sourceEndpoint with
  | none => exact ⟨runtime, rfl, rfl⟩
  | some expectation =>
      cases hcallback : runtime.callbackInstalled with
      | false => exact ⟨runtime, rfl, rfl⟩
      | true =>
          cases hbound : env.bound with
          | false => exact ⟨runtime, rfl, rfl⟩
          | true => exact ⟨_, rfl, rfl⟩

/-- How an imported Node gets registered: its source state is completed, then its
destination state notes the packet, unless it has noted it already. -/
structure Registration (env : StepEnv) (imported : ImportedNode α ε)
    (frame : NodeStateFrame) (completed registered : SharedNode α ε) (index : Nat)
    (state : LinkSyncState) : Prop where
  source : ∃ sourceIndex, completeSourceState env imported.node imported.sourceShareId =
    .ok (completed, sourceIndex)
  destination : destinationState completed frame.destinationShareId = .ok (index, state)
  noted : (state.receivedInitialPacketId = frame.packetId ∧ registered = completed) ∨
    (state.receivedInitialPacketId.isValid = false ∧ frame.packetId.isValid = true ∧
      commitLinkSyncEvent completed index env.eventId
        (.noteInitialSyncReceived frame.packetId) = .ok registered)

/-- The effect saves a Node or one of its sync states. -/
def Effect.isSave : Effect α ε → Bool
  | .saveNode _ => true
  | .saveLinkSyncState _ _ => true
  | _ => false

/-- After an import the runtime either only saved and kept what it had, or it
registered the Node and went on to bind and acknowledge it. -/
theorem onNodeStateOfImportedNode_outcome (env : StepEnv) (runtime : SharedSyncRuntime α ε)
    (imported : ImportedNode α ε) (sourceEndpoint : Bytes) (frame : NodeStateFrame) :
    ((∀ effect ∈ (onNodeStateOfImportedNode env runtime imported sourceEndpoint
        frame).effects, effect.isSave = true) ∧
      ∀ runtime', (onNodeStateOfImportedNode env runtime imported sourceEndpoint
        frame).result = .ok runtime' → runtime' = runtime) ∨
    ∃ saved completed registered index state,
      Registration env imported frame completed registered index state ∧
      (∀ effect ∈ saved, effect.isSave = true) ∧
      (onNodeStateOfImportedNode env runtime imported sourceEndpoint frame).effects =
        saved ++ (bindAndAcknowledge env { runtime with nodes := runtime.nodes ++ [registered] }
          registered sourceEndpoint frame).effects ∧
      (onNodeStateOfImportedNode env runtime imported sourceEndpoint frame).result =
        (bindAndAcknowledge env { runtime with nodes := runtime.nodes ++ [registered] }
          registered sourceEndpoint frame).result := by
  unfold onNodeStateOfImportedNode
  cases hsource : imported.sourceShareId.isValid with
  | false =>
      rw [show assertThat false = .error .assertFailed from rfl, pureStep_error_bind]
      exact Or.inl ⟨by simp, by simp⟩
  | true =>
      rw [show assertThat true = .ok () from rfl, pureStep_ok_bind]
      cases hcomplete : completeSourceState env imported.node imported.sourceShareId with
      | error reason => exact Or.inl ⟨by simp, by simp⟩
      | ok outcome =>
          obtain ⟨completed, sourceIndex⟩ := outcome
          simp only [pureStep_ok_bind]
          cases hentry : completed.fields.linkSyncStates[sourceIndex]? with
          | none => exact Or.inl ⟨by simp, by simp⟩
          | some sourceState =>
              simp only [perform_bind]
              cases hdestination : destinationState completed frame.destinationShareId with
              | error reason => exact Or.inl ⟨by simp [Effect.isSave], by simp⟩
              | ok found =>
                  obtain ⟨index, state⟩ := found
                  simp only [pureStep_ok_bind]
                  by_cases hreceived : state.receivedInitialPacketId = frame.packetId
                  · rw [if_neg (not_not.mpr hreceived)]
                    exact Or.inr ⟨[_], completed, completed, index, state,
                      ⟨⟨sourceIndex, hcomplete⟩, hdestination, Or.inl ⟨hreceived, rfl⟩⟩,
                      by simp [Effect.isSave], rfl, rfl⟩
                  · rw [if_pos hreceived]
                    cases hvalid : state.receivedInitialPacketId.isValid with
                    | true =>
                        rw [if_pos rfl]
                        exact Or.inl ⟨by simp [Effect.isSave], by simp⟩
                    | false =>
                        rw [if_neg Bool.false_ne_true]
                        cases hpacket : frame.packetId.isValid with
                        | false =>
                            rw [show assertThat false = .error .assertFailed from rfl,
                              pureStep_error_bind]
                            exact Or.inl ⟨by simp [Effect.isSave], by simp⟩
                        | true =>
                            rw [show assertThat true = .ok () from rfl, pureStep_ok_bind]
                            cases hnoted : commitLinkSyncEvent completed index env.eventId
                                (.noteInitialSyncReceived frame.packetId) with
                            | error reason =>
                                exact Or.inl ⟨by simp [Effect.isSave], by simp⟩
                            | ok noted =>
                                simp only [pureStep_ok_bind]
                                exact Or.inr ⟨[_, _], completed, noted, index, state,
                                  ⟨⟨sourceIndex, hcomplete⟩, hdestination,
                                    Or.inr ⟨hvalid, hpacket, hnoted⟩⟩,
                                  by simp [Effect.isSave], rfl, rfl⟩

/-- After an import the runtime either registered the Node, or it found another
packet noted in the imported destination state and kept its Nodes. -/
theorem onNodeStateOfImportedNode_cases {env : StepEnv} {runtime runtime' :
    SharedSyncRuntime α ε} {imported : ImportedNode α ε} {sourceEndpoint : Bytes}
    {frame : NodeStateFrame}
    (h : (onNodeStateOfImportedNode env runtime imported sourceEndpoint frame).result =
      .ok runtime') :
    runtime' = runtime ∨
      ∃ completed registered index state,
        Registration env imported frame completed registered index state ∧
        runtime'.nodes = runtime.nodes ++ [registered] := by
  rcases onNodeStateOfImportedNode_outcome env runtime imported sourceEndpoint frame with
    ⟨-, hkept⟩ | ⟨saved, completed, registered, index, state, hregistration, -, -, hresult⟩
  · exact Or.inl (hkept runtime' h)
  · obtain ⟨final, hfinal, hnodes⟩ := bindAndAcknowledge_returns env
      { runtime with nodes := runtime.nodes ++ [registered] } registered sourceEndpoint frame
    rw [hresult, hfinal] at h
    cases h
    exact Or.inr ⟨completed, registered, index, state, hregistration, hnodes⟩

section SourceState

variable {env : StepEnv} {node completed : SharedNode α ε} {sourceShareId : ObjId}
  {index : Nat}

/-- Completing the state of the sender is one commit. -/
theorem commit_of_completeSourceState
    (h : completeSourceState env node sourceShareId = .ok (completed, index)) :
    commitLinkSyncEvent node index env.eventId
      (.completeFromReceivedSnapshot (sharedIdentities node.journal)) = .ok completed := by
  unfold completeSourceState at h
  obtain ⟨found, -, h⟩ := except_bind_eq_ok_iff.mp h
  obtain ⟨-, -, h⟩ := except_bind_eq_ok_iff.mp h
  obtain ⟨committed, hcommitted, h⟩ := except_bind_eq_ok_iff.mp h
  cases h
  exact hcommitted

theorem sameShared_of_completeSourceState
    (h : completeSourceState env node sourceShareId = .ok (completed, index)) :
    SameShared node completed :=
  sameShared_of_commitLinkSyncEvent (commit_of_completeSourceState h)

end SourceState

/-- A registered Node has the shared part of the imported one. -/
theorem Registration.sameShared {env : StepEnv} {imported : ImportedNode α ε}
    {frame : NodeStateFrame} {completed registered : SharedNode α ε} {index : Nat}
    {state : LinkSyncState}
    (h : Registration env imported frame completed registered index state) :
    SameShared imported.node registered := by
  obtain ⟨sourceIndex, hsource⟩ := h.source
  have hcompleted := sameShared_of_completeSourceState hsource
  rcases h.noted with ⟨-, rfl⟩ | ⟨-, -, hnoted⟩
  · exact hcompleted
  · exact hcompleted.trans (sameShared_of_commitLinkSyncEvent hnoted)

/-- A frame registers a new Node only through an admission. -/
theorem exists_registration {env : StepEnv} {replica : Replica α ε}
    {sourceEndpoint : Bytes} {frame : NodeStateFrame}
    {runtime' : SharedSyncRuntime α ε} {node : SharedNode α ε}
    (hnew : findNode replica.runtime.nodes frame.targetNodeId = none)
    (hresult : (onNodeState aether app env replica sourceEndpoint frame).result =
      .ok runtime')
    (hnode : findNode runtime'.nodes frame.targetNodeId = some node) :
    ∃ imported completed index state,
      (importValidatedNode aether app env replica sourceEndpoint frame).result =
        .ok (some imported) ∧
      Registration env imported frame completed node index state ∧
      runtime'.nodes = replica.runtime.nodes ++ [node] := by
  unfold onNodeState at hresult
  rw [hnew] at hresult
  obtain ⟨outcome, himport, hresult⟩ := EffectLog.bind_result_eq_ok_iff.mp hresult
  cases outcome with
  | none =>
      cases hresult
      rw [hnew] at hnode
      cases hnode
  | some imported =>
      rcases onNodeStateOfImportedNode_cases hresult with
        rfl | ⟨completed, registered, index, state, hregistration, hnodes⟩
      · rw [hnew] at hnode
        cases hnode
      · refine ⟨imported, completed, index, state, himport, ?_⟩
        have hsame : node = registered := by
          rw [hnodes, findNode, List.find?_append] at hnode
          rw [findNode] at hnew
          rw [hnew, Option.none_or, List.find?_singleton] at hnode
          split at hnode
          · exact (Option.some.inj hnode).symm
          · cases hnode
        rw [hsame]
        exact ⟨hregistration, hnodes⟩

end AppTraverse
