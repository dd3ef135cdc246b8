import AppTraverse.Admission.LocalSyncState
import AppTraverse.Delivery.Authority
import AppTraverse.Delivery.SyncOutcomes
import AppTraverse.Runtime.ReplicaRuns
import AppTraverse.Sharing.LinkSyncInvariant

/-!
# The sync states along a run

Every operation of a replica does one of three things to a Node it keeps: nothing, a
permitted commit on one local sync state, or a change that drops sync states and
creates new ones.  `nodeMoved_of_replicaStep` says so once; the invariant of
`LinkSyncState`, the way the states advance and the success of every commit follow
by cases on it.
-/

namespace AppTraverse

open Foundations

variable {α ε : Type} {aether : Aether α ε} {app : AppClass α ε}

/-- What one step does to a Node that the replica keeps. -/
inductive NodeMoved (node node' : SharedNode α ε) : Prop where
  | kept (same : node' = node)
  | committed {index : Nat} {state : LinkSyncState} {eventId : ObjId} {event : LinkSyncEvent}
      (valid : eventId.isValid = true)
      (state_eq : linkSyncStateAt node index = .ok state)
      (permitted : state.IsPermitted event)
      (commit : commitLinkSyncEvent node index eventId event = .ok node')
  | changed (objId : node'.objId = node.objId)
      (states : StatesFrom node.fields.linkSyncStates node'.fields.linkSyncStates)

/-- All local sync states of a Node were created here, and nothing has happened to
them. -/
def HasLocalStates (node : SharedNode α ε) : Prop :=
  ∀ entry ∈ node.fields.linkSyncStates, ∃ state, entry.obj = some state ∧ IsUntouched state

/-- The Events that a step creates get valid ids, and a Node that it admits brings no
sync states of its own. -/
def StepIsLocal (aether : Aether α ε) (app : AppClass α ε) (replica : Replica α ε) :
    ReplicaAction ε → Prop
  | .receive env sourceEndpoint bytes => env.eventId.isValid = true ∧
      ∀ frame imported, decodeNodeStateFrame bytes = some frame →
        (importValidatedNode aether app env replica sourceEndpoint frame).result =
          .ok (some imported) → HasLocalStates imported.node
  | .syncInitialState env _ _ => env.eventId.isValid = true
  | .syncNextEvent env _ _ => env.eventId.isValid = true
  | .operate _ _ _ _ => True
  | .saveNode _ => True
  | .restart => False

section Steps

variable {replica next : Replica α ε} {action : ReplicaAction ε}

/-- The Nodes of a runtime after one of them moved. -/
theorem moved_of_replaceNode {nodes : List (SharedNode α ε)} {node committed : SharedNode α ε}
    {nodeId : ObjId} (hfound : findNode nodes nodeId = some node)
    (hmoved : NodeMoved node committed) {node' : SharedNode α ε}
    (hmem : node' ∈ replaceNode nodes committed) :
    ∃ node ∈ nodes, NodeMoved node node' := by
  obtain ⟨other, hother, rfl⟩ := List.mem_map.mp hmem
  split
  case isTrue => exact ⟨node, List.mem_of_find?_eq_some hfound, hmoved⟩
  case isFalse => exact ⟨other, hother, .kept rfl⟩

theorem NodeMoved.objId {node node' : SharedNode α ε} (h : NodeMoved node node') :
    node'.objId = node.objId := by
  cases h with
  | kept same => rw [same]
  | committed valid state_eq permitted commit =>
      exact (sameShared_of_commitLinkSyncEvent commit).objId
  | changed objId states => exact objId

theorem encodeNodeStateFrame_ne_nil (frame : NodeStateFrame) :
    encodeNodeStateFrame frame ≠ [] := by
  intro hnil
  have hpeek := peekSyncFrameType_encodeNodeStateFrame frame
  rw [hnil] at hpeek
  cases hpeek

theorem encodeEventFrame_ne_nil (frame : EventFrame) : encodeEventFrame frame ≠ [] := by
  intro hnil
  have hpeek := peekSyncFrameType_encodeEventFrame frame
  rw [hnil] at hpeek
  cases hpeek

/-- A begun packet is a permitted commit. -/
theorem moved_of_packetBegun {runtime runtime' : SharedSyncRuntime α ε}
    {nodeId shareId : ObjId} {node : SharedNode α ε} {destination : Bytes} {index : Nat}
    {state : LinkSyncState} {eventId : ObjId} {event : LinkSyncEvent} {packet : Bytes}
    {effects : List (Effect α ε)}
    (hdestination : IsSyncDestination runtime nodeId shareId node destination index state)
    (hvalid : eventId.isValid = true) (hpermitted : state.IsPermitted event)
    (hbegun : PacketBegun runtime node index destination eventId event packet effects runtime')
    {node' : SharedNode α ε} (hmem : node' ∈ runtime'.nodes) :
    ∃ node ∈ runtime.nodes, NodeMoved node node' := by
  obtain ⟨committed, hcommit, -, rfl⟩ := hbegun.outcome
  exact moved_of_replaceNode hdestination.found
    (.committed hvalid hdestination.state_eq hpermitted hcommit) hmem

/-- The record that is frozen next is a shared one that has not been delivered. -/
theorem undelivered_of_nextUndelivered
    {journal : List (EventRecord (SharedNodeEvent ε))} {state : LinkSyncState}
    {destination : Bytes} {record : EventRecord (SharedNodeEvent ε)}
    (h : nextUndeliveredSharedEvent journal state destination = some record) :
    record ∈ journal ∧ record.identity.originUid ≠ [] ∧
      state.hasDelivered record.identity = false ∧
      record.identity.originUid ≠ destination := by
  unfold nextUndeliveredSharedEvent at h
  have hmem := List.mem_of_find?_eq_some h
  have htest := List.find?_some h
  simp only [Bool.and_eq_true, Bool.not_eq_true', EventRecord.hasSharedIdentity,
    decide_eq_true_eq, List.isEmpty_eq_false_iff] at htest
  exact ⟨hmem, htest.1.1.1, htest.1.1.2, htest.2⟩

/-- The Ack of a packet with a valid id permits the completion it asks for. -/
theorem isPermitted_completion {state : LinkSyncState} {packetId : ObjId}
    (hvalid : packetId.isValid = true) (hawaits : state.awaits packetId = true) :
    state.IsPermitted state.completion := by
  simp only [LinkSyncState.awaits, Bool.or_eq_true, Bool.and_eq_true,
    decide_eq_true_eq] at hawaits
  rcases hawaits with ⟨hphase, -⟩ | ⟨hphase, hpacket⟩
  · rw [LinkSyncState.completion, if_pos hphase]
    exact .completeInitial hphase
  · have hnot : state.initialSyncPhase ≠ .pending := by
      rw [hphase]
      simp
    rw [LinkSyncState.completion, if_neg hnot]
    refine .completeEvent hphase ?_
    rw [LinkSyncState.hasPendingEvent, hpacket]
    exact hvalid

/-- A commit that records a receipt keeps all states of a Node without a packet. -/
theorem isIdle_of_receipt {node next : SharedNode α ε} {index : Nat} {eventId : ObjId}
    {event : LinkSyncEvent} (h : commitLinkSyncEvent node index eventId event = .ok next)
    (hevent : (∃ delivered, event = .completeFromReceivedSnapshot delivered) ∨
      ∃ packetId, event = .noteInitialSyncReceived packetId)
    (hidle : ∀ entry ∈ node.fields.linkSyncStates, ∃ state, entry.obj = some state ∧
      state.IsIdle) :
    ∀ entry ∈ next.fields.linkSyncStates, ∃ state, entry.obj = some state ∧
      state.IsIdle := by
  intro entry hentry
  obtain ⟨before, after, hbefore, hafter, rfl⟩ := commitLinkSyncEvent_eq_ok_iff.mp h
  obtain ⟨position, hposition, rfl⟩ := List.mem_iff_getElem.mp hentry
  have hat := linkSyncStateAt_eq_ok_iff.mp hbefore
  obtain ⟨found, hfound, hobj⟩ := Option.bind_eq_some_iff.mp hat
  simp only [setLinkSyncStateAt, List.getElem_modify]
  split
  case isTrue =>
    obtain ⟨state, hstate, hstateIdle⟩ := hidle found (List.mem_of_getElem? hfound)
    cases hobj.symm.trans hstate
    exact ⟨after, rfl, hstateIdle.of_commit hafter hevent⟩
  case isFalse => exact hidle _ (List.getElem_mem _)

section SourceState

variable {env : StepEnv} {node completed : SharedNode α ε} {sourceShareId : ObjId}
  {index : Nat}

theorem isIdle_of_completeSourceState (hlocal : HasLocalStates node)
    (h : completeSourceState env node sourceShareId = .ok (completed, index)) :
    ∀ entry ∈ completed.fields.linkSyncStates, ∃ state, entry.obj = some state ∧
      state.IsIdle := by
  refine isIdle_of_receipt (commit_of_completeSourceState h) (Or.inl ⟨_, rfl⟩) ?_
  intro entry hentry
  obtain ⟨state, hstate, huntouched⟩ := hlocal entry hentry
  refine ⟨state, hstate, ?_⟩
  rw [huntouched]
  exact LinkSyncState.isIdle_fresh _ _

end SourceState

/-- Admission registers Nodes whose states have no packet. -/
theorem isIdle_of_registration {env : StepEnv} {imported : ImportedNode α ε}
    {frame : NodeStateFrame} {completed registered : SharedNode α ε} {index : Nat}
    {state : LinkSyncState}
    (h : Registration env imported frame completed registered index state)
    (hlocal : HasLocalStates imported.node) :
    ∀ entry ∈ registered.fields.linkSyncStates, ∃ state, entry.obj = some state ∧
      state.IsIdle := by
  obtain ⟨sourceIndex, hsource⟩ := h.source
  have hcompleted := isIdle_of_completeSourceState hlocal hsource
  rcases h.noted with ⟨-, rfl⟩ | ⟨-, -, hnoted⟩
  · exact hcompleted
  · exact isIdle_of_receipt hnoted (Or.inr ⟨_, rfl⟩) hcompleted

/-- What a step does to the registered Nodes: each was there and moved, or was
admitted by this step with states that have no packet. -/
theorem nodeMoved_of_replicaStep (hlocal : StepIsLocal aether app replica action)
    (h : replicaStep aether app replica action = some next) :
    ∀ node' ∈ next.runtime.nodes, (∃ node ∈ replica.runtime.nodes, NodeMoved node node') ∨
      (findNode replica.runtime.nodes node'.objId = none ∧
        ∀ entry ∈ node'.fields.linkSyncStates, ∃ state, entry.obj = some state ∧
          state.IsIdle) := by
  obtain ⟨runtime', hresult, rfl⟩ := replicaStep_eq_some_iff.mp h
  intro node' hmem
  replace hmem : node' ∈ runtime'.nodes := hmem
  have hkept : runtime'.nodes = replica.runtime.nodes →
      ∃ node ∈ replica.runtime.nodes, NodeMoved node node' := by
    intro hnodes
    rw [hnodes] at hmem
    exact ⟨node', hmem, .kept rfl⟩
  cases action with
  | receive env sourceEndpoint bytes =>
      obtain ⟨hvalid, hadmits⟩ := hlocal
      simp only [ReplicaAction.outcome, onBytes] at hresult
      split at hresult
      case h_1 => exact Or.inl (hkept (by cases hresult; rfl))
      case h_2 =>
        split at hresult
        case h_1 => exact Or.inl (hkept (by cases hresult; rfl))
        case h_2 frame hdecode =>
          rcases nodes_of_onNodeState hresult with hnodes |
            ⟨imported, completed, registered, index, state, himport, hregistration, hnew,
              hnodes⟩
          · exact Or.inl (hkept hnodes)
          · rw [hnodes] at hmem
            rcases List.mem_append.mp hmem with hold | hadded
            · exact Or.inl ⟨node', hold, .kept rfl⟩
            · rw [List.mem_singleton.mp hadded]
              exact Or.inr ⟨hnew, isIdle_of_registration hregistration
                (hadmits frame imported hdecode himport)⟩
      case h_3 =>
        split at hresult
        case h_1 => exact Or.inl (hkept (by cases hresult; rfl))
        case h_2 frame hdecode =>
          rcases onAck_cases hresult with ⟨-, -, rfl⟩ |
            ⟨node, index, state, committed, hawaited, hcommit, -, rfl⟩
          · exact Or.inl (hkept rfl)
          · exact Or.inl (moved_of_replaceNode hawaited.found
              (.committed hvalid hawaited.state_eq
                (isPermitted_completion (packetId_of_decodeAckFrame hdecode) hawaited.awaits)
                hcommit) hmem)
      case h_4 =>
        split at hresult
        case h_1 => exact Or.inl (hkept (by cases hresult; rfl))
        case h_2 frame hdecode =>
          rcases onEvent_cases hresult with ⟨-, rfl⟩ | ⟨_, _, _, _, -, -, -, -, rfl⟩ |
            ⟨node, parsed, wireRootId, localEvent, inserted, hadmissible, hinserted, -, rfl⟩
          · exact Or.inl (hkept rfl)
          · exact Or.inl (hkept rfl)
          · obtain ⟨-, -, hrecord⟩ := recordInserted_of_commitShared hinserted.commit
            exact Or.inl (moved_of_replaceNode hadmissible.found
              (.changed hrecord.objId (statesFrom_of_recordInserted hrecord)) hmem)
  | syncInitialState env nodeId shareId =>
      obtain ⟨node, destination, index, state, hdestination, ⟨-, -, rfl⟩ | ⟨-, -, rfl⟩ |
        ⟨frozen, hopen, -, hbegun⟩⟩ := syncInitialState_cases hresult
      · exact Or.inl (hkept rfl)
      · exact Or.inl (hkept rfl)
      · exact Or.inl (moved_of_packetBegun hdestination hlocal
          (.beginInitial hopen (encodeNodeStateFrame_ne_nil _)) hbegun hmem)
  | syncNextEvent env nodeId shareId =>
      obtain ⟨node, destination, index, state, hdestination, ⟨-, rfl⟩ | ⟨-, -, -, rfl⟩ |
        ⟨record, event, payload, hcomplete, hidle, hfrozen, hbegun⟩⟩ :=
        syncNextEvent_cases hresult
      · exact Or.inl (hkept rfl)
      · exact Or.inl (hkept rfl)
      · obtain ⟨-, hshared, hundelivered, -⟩ := undelivered_of_nextUndelivered hfrozen.next
        exact Or.inl (moved_of_packetBegun hdestination hlocal
          (.beginEvent hcomplete hidle hshared hundelivered (encodeEventFrame_ne_nil _))
          hbegun hmem)
  | operate ids nowUs nodeId operation =>
      simp only [ReplicaAction.outcome] at hresult
      split at hresult
      case h_1 => cases hresult
      case h_2 node hfound =>
        cases hrun : operation.run app ids nowUs node with
        | error reason => simp [hrun] at hresult
        | ok changed =>
            simp only [hrun, pureStep_ok_bind, EffectLog.pure_result, Except.ok.injEq]
              at hresult
            subst hresult
            have hoperated := nodeOperated_of_run hrun
            exact Or.inl (moved_of_replaceNode hfound
              (.changed (objId_of_operated hoperated) (statesFrom_of_operated hoperated))
              hmem)
  | saveNode nodeId =>
      simp only [ReplicaAction.outcome] at hresult
      split at hresult
      case h_1 => cases hresult
      case h_2 node hfound =>
        simp only [perform_bind, EffectLog.pure_result, Except.ok.injEq] at hresult
        exact Or.inl (hkept (by rw [← hresult]))
  | restart => exact hlocal.elim

end Steps

/-- All local sync states of the registered Nodes are loaded and well formed. -/
def StatesAreWellFormed (nodes : List (SharedNode α ε)) : Prop :=
  ∀ node ∈ nodes, ∀ entry ∈ node.fields.linkSyncStates, ∃ state,
    entry.obj = some state ∧ state.WellFormed

/-- Each sync state of a Node is one from before that advanced, or a new one. -/
def StatesAdvance (before after : List (Ref LinkSyncState)) : Prop :=
  ∀ entry' ∈ after, ∃ state', entry'.obj = some state' ∧
    ((∃ entry ∈ before, ∃ state, entry.id = entry'.id ∧ entry.obj = some state ∧
      state.Advances state') ∨ ∃ shareId link, state' = LinkSyncState.fresh shareId link)

section Moves

variable {node node' : SharedNode α ε}

/-- A moved Node keeps its sync states well formed and advances them. -/
theorem NodeMoved.states (h : NodeMoved node node')
    (hwell : ∀ entry ∈ node.fields.linkSyncStates, ∃ state, entry.obj = some state ∧
      state.WellFormed) :
    (∀ entry ∈ node'.fields.linkSyncStates, ∃ state, entry.obj = some state ∧
      state.WellFormed) ∧
    StatesAdvance node.fields.linkSyncStates node'.fields.linkSyncStates := by
  -- An entry that was there before is well formed and has not moved.
  have hold : ∀ entry ∈ node.fields.linkSyncStates, ∃ state', entry.obj = some state' ∧
      ((∃ before ∈ node.fields.linkSyncStates, ∃ state, before.id = entry.id ∧
        before.obj = some state ∧ state.Advances state') ∨
        ∃ shareId link, state' = LinkSyncState.fresh shareId link) := by
    intro entry hentry
    obtain ⟨state, hstate, -⟩ := hwell entry hentry
    exact ⟨state, hstate, Or.inl ⟨entry, hentry, state, rfl, hstate, .refl state⟩⟩
  cases h with
  | kept same =>
      subst same
      exact ⟨hwell, hold⟩
  | changed objId states =>
      refine ⟨fun entry hentry => ?_, fun entry hentry => ?_⟩
      · rcases states.mem hentry with hmem | ⟨shareId, link, hobj⟩
        · exact hwell entry hmem
        · exact ⟨_, hobj, (LinkSyncState.isIdle_fresh shareId link).wellFormed⟩
      · rcases states.mem hentry with hmem | ⟨shareId, link, hobj⟩
        · exact hold entry hmem
        · exact ⟨_, hobj, Or.inr ⟨shareId, link, rfl⟩⟩
  | @committed index state eventId event valid state_eq permitted commit =>
      obtain ⟨before, committed, hbefore, hcommitted, rfl⟩ :=
        commitLinkSyncEvent_eq_ok_iff.mp commit
      cases state_eq.symm.trans hbefore
      obtain ⟨found, hfound, hobj⟩ :=
        Option.bind_eq_some_iff.mp (linkSyncStateAt_eq_ok_iff.mp state_eq)
      have hmem := List.mem_of_getElem? hfound
      obtain ⟨state', hstate', hstateWell⟩ := hwell found hmem
      cases hobj.symm.trans hstate'
      obtain ⟨after, hafter, hafterWell, hadvances⟩ := hstateWell.commit valid permitted
      cases hcommitted.symm.trans hafter
      -- The entry of the commit holds the committed state, every other one is as before.
      have hentries : ∀ entry ∈ (setLinkSyncStateAt node index committed).fields.linkSyncStates,
          entry = { found with obj := some committed } ∨
            entry ∈ node.fields.linkSyncStates := by
        intro entry hentry
        obtain ⟨position, hposition, rfl⟩ := List.mem_iff_getElem.mp hentry
        simp only [setLinkSyncStateAt, List.getElem_modify]
        split
        case isTrue hsame =>
          left
          subst hsame
          obtain ⟨hlt, hget⟩ := List.getElem?_eq_some_iff.mp hfound
          rw [hget]
        case isFalse => exact Or.inr (List.getElem_mem _)
      refine ⟨fun entry hentry => ?_, fun entry hentry => ?_⟩
      · rcases hentries entry hentry with rfl | hmem
        · exact ⟨committed, rfl, hafterWell⟩
        · exact hwell entry hmem
      · rcases hentries entry hentry with rfl | hmem
        · exact ⟨committed, rfl, Or.inl ⟨found, hmem, state, rfl, hobj, hadvances⟩⟩
        · exact hold entry hmem

end Moves

/-- No commit of a Begin or Complete Event fails: a call returns whenever what it reads
is there. -/
def CommitsSucceed (aether : Aether α ε) (app : AppClass α ε) (replica : Replica α ε) :
    ReplicaAction ε → Prop
  | .syncInitialState env nodeId shareId => ∀ node destination index state frozen,
      syncDestination replica.runtime nodeId shareId = .ok (node, destination, index, state) →
      freezeNetworkSharedNodeState aether app node = .ok frozen →
      ∃ runtime', (syncInitialState aether app env replica.runtime nodeId shareId).result =
        .ok runtime'
  | .syncNextEvent env nodeId shareId => ∀ node destination index state,
      syncDestination replica.runtime nodeId shareId = .ok (node, destination, index, state) →
      (∀ record, nextUndeliveredSharedEvent node.journal state destination = some record →
        record.event.isValid = true ∧ record.event.isLoaded = true) →
      ∃ runtime', (syncNextEvent aether app env replica.runtime nodeId shareId).result =
        .ok runtime'
  | .receive env sourceEndpoint bytes =>
      (∀ frame, decodeAckFrame bytes = some frame →
        (∀ node, findNode replica.runtime.nodes frame.targetNodeId = some node →
          ∃ index, findLinkSyncIndexForShare node.fields.linkSyncStates
            frame.destinationShareId = .ok index) →
        ∃ runtime', (onBytes aether app env replica sourceEndpoint bytes).result =
          .ok runtime') ∧
      ∀ frame imported index state, decodeNodeStateFrame bytes = some frame →
        (importValidatedNode aether app env replica sourceEndpoint frame).result =
          .ok (some imported) →
        findLinkSyncIndexForShare imported.node.fields.linkSyncStates
          imported.sourceShareId = .ok index →
        linkSyncStateAt imported.node index = .ok state →
        ∃ completed, completeSourceState env imported.node imported.sourceShareId =
          .ok completed
  | _ => True

section Commits

variable {replica : Replica α ε} {env : StepEnv}

/-- A permitted commit on a state of a registered Node succeeds. -/
theorem exists_commitLinkSyncEvent {node : SharedNode α ε} {index : Nat}
    {state : LinkSyncState} {eventId : ObjId} {event : LinkSyncEvent}
    (hwell : ∀ entry ∈ node.fields.linkSyncStates, ∃ state, entry.obj = some state ∧
      state.WellFormed)
    (hvalid : eventId.isValid = true) (hstate : linkSyncStateAt node index = .ok state)
    (hpermitted : state.IsPermitted event) :
    ∃ committed, commitLinkSyncEvent node index eventId event = .ok committed := by
  obtain ⟨found, hfound, hobj⟩ :=
    Option.bind_eq_some_iff.mp (linkSyncStateAt_eq_ok_iff.mp hstate)
  obtain ⟨state', hstate', hstateWell⟩ := hwell found (List.mem_of_getElem? hfound)
  cases hobj.symm.trans hstate'
  obtain ⟨committed, hcommitted, -⟩ := hstateWell.commit hvalid hpermitted
  exact ⟨_, commitLinkSyncEvent_eq_ok_iff.mpr ⟨state, committed, hstate, hcommitted, rfl⟩⟩

theorem beginSync_returns {runtime : SharedSyncRuntime α ε} {node : SharedNode α ε}
    {index : Nat} {destination : Bytes} {eventId : ObjId} {event : LinkSyncEvent}
    {packet : Bytes}
    (h : ∃ committed, commitLinkSyncEvent node index eventId event = .ok committed) :
    ∃ runtime', (beginSync runtime node index destination eventId event packet).result =
      .ok runtime' := by
  obtain ⟨committed, hcommit⟩ := h
  simp [beginSync, hcommit]

/-- An Ack returns when the state it names can be looked up. -/
theorem onAck_returns {sourceEndpoint : Bytes} {frame : AckFrame}
    (hwell : StatesAreWellFormed replica.runtime.nodes)
    (hvalid : env.eventId.isValid = true) (hpacket : frame.packetId.isValid = true)
    (hlookup : ∀ node, findNode replica.runtime.nodes frame.targetNodeId = some node →
      ∃ index, findLinkSyncIndexForShare node.fields.linkSyncStates
        frame.destinationShareId = .ok index) :
    ∃ runtime', (onAck env replica.runtime sourceEndpoint frame).result = .ok runtime' := by
  by_cases hawaited : ∃ node index state,
      AckIsAwaited replica.runtime sourceEndpoint frame node index state
  · obtain ⟨node, index, state, hawaited⟩ := hawaited
    have hnode := hwell node (List.mem_of_find?_eq_some hawaited.found)
    obtain ⟨committed, hcommit⟩ := exists_commitLinkSyncEvent hnode hvalid hawaited.state_eq
      (isPermitted_completion hpacket hawaited.awaits)
    rw [onAck_of_awaited hawaited, completeSync]
    simp [hcommit]
  · unfold onAck
    cases hfound : findNode replica.runtime.nodes frame.targetNodeId with
    | none => exact ⟨_, rfl⟩
    | some node =>
        by_cases hendpoint : shareEndpointOf node.fields.shares frame.destinationShareId =
            some sourceEndpoint
        case neg => simp [hendpoint]
        obtain ⟨index, hindex⟩ := hlookup node hfound
        by_cases hlength : node.fields.linkSyncStates.length ≤ index
        case pos => simp [hendpoint, hindex, hlength]
        -- The entry at the index is loaded, as every entry is.
        have hlt : index < node.fields.linkSyncStates.length := by omega
        obtain ⟨state, hobj, -⟩ := hwell node (List.mem_of_find?_eq_some hfound)
          node.fields.linkSyncStates[index] (List.getElem_mem hlt)
        have hstate : linkSyncStateAt node index = .ok state :=
          linkSyncStateAt_eq_ok_iff.mpr (Option.bind_eq_some_iff.mpr
            ⟨_, List.getElem?_eq_getElem hlt, hobj⟩)
        have hnot : ¬ state.awaits frame.packetId = true := fun hawaits =>
          hawaited ⟨node, index, state, hfound, hendpoint, hindex, hstate, hawaits⟩
        simp only [LinkSyncState.awaits, Bool.or_eq_true, Bool.and_eq_true,
          decide_eq_true_eq, not_or] at hnot
        simp [hendpoint, hindex, hlength, hstate, hnot.1, hnot.2]

/-- The states of an admitted Node let the receipt be recorded. -/
theorem completeSourceState_returns {imported : ImportedNode α ε} {index : Nat}
    {state : LinkSyncState} (hlocal : HasLocalStates imported.node)
    (hindex : findLinkSyncIndexForShare imported.node.fields.linkSyncStates
      imported.sourceShareId = .ok index)
    (hstate : linkSyncStateAt imported.node index = .ok state) :
    ∃ completed, completeSourceState env imported.node imported.sourceShareId =
      .ok completed := by
  obtain ⟨found, hfound, hobj⟩ :=
    Option.bind_eq_some_iff.mp (linkSyncStateAt_eq_ok_iff.mp hstate)
  obtain ⟨state', hstate', huntouched⟩ := hlocal found (List.mem_of_getElem? hfound)
  cases hobj.symm.trans hstate'
  have hidle : state.IsIdle := by
    rw [huntouched]
    exact LinkSyncState.isIdle_fresh _ _
  have hstart : state.initialSyncPhase = .notStarted := by
    rw [huntouched]
    rfl
  obtain ⟨committed, hcommit⟩ := hidle.completeFromReceivedSnapshot hstart env.eventId
    (sharedIdentities imported.node.journal)
  have hwhole := commitLinkSyncEvent_eq_ok_iff.mpr
    ⟨state, committed, hstate, hcommit, rfl⟩
  have hlength : assertThat (decide (index < imported.node.fields.linkSyncStates.length)) =
      .ok () := by
    rw [assertThat_eq_ok_iff]
    exact decide_eq_true (lt_length_of_linkSyncStateAt hstate)
  simp [completeSourceState, hindex, hlength, hwhole, bind, Except.bind, pure, Except.pure]

/-- No commit of an allowed step fails. -/
theorem commitsSucceed_of_wellFormed {action : ReplicaAction ε}
    (hwell : StatesAreWellFormed replica.runtime.nodes)
    (hlocal : StepIsLocal aether app replica action) :
    CommitsSucceed aether app replica action := by
  cases action with
  | receive env sourceEndpoint bytes =>
      obtain ⟨hvalid, hadmits⟩ := hlocal
      refine ⟨fun frame hdecode hlookup => ?_,
        fun frame imported index state hdecode himport hindex hstate =>
          completeSourceState_returns (hadmits frame imported hdecode himport) hindex hstate⟩
      have hpacket := packetId_of_decodeAckFrame hdecode
      obtain ⟨-, rfl⟩ := encode_of_decodeAckFrame hdecode
      unfold onBytes
      simp only [peekSyncFrameType_encodeAckFrame, hdecode]
      exact onAck_returns hwell hvalid hpacket hlookup
  | syncInitialState env nodeId shareId =>
      intro node destination index state frozen hdestination hfrozen
      have hdest := isSyncDestination_of_eq_ok hdestination
      have hnode := hwell node (List.mem_of_find?_eq_some hdest.found)
      unfold syncInitialState
      simp only [hdestination, pureStep_ok_bind]
      cases hphase : state.initialSyncPhase with
      | complete => simp
      | pending => simp
      | notStarted =>
          simp only [hfrozen, pureStep_ok_bind]
          exact beginSync_returns (exists_commitLinkSyncEvent hnode hlocal hdest.state_eq
            (.beginInitial (by simp [hphase]) (encodeNodeStateFrame_ne_nil _)))
      | unnamed raw =>
          simp only [hfrozen, pureStep_ok_bind]
          exact beginSync_returns (exists_commitLinkSyncEvent hnode hlocal hdest.state_eq
            (.beginInitial (by simp [hphase]) (encodeNodeStateFrame_ne_nil _)))
  | syncNextEvent env nodeId shareId =>
      intro node destination index state hdestination hrecord
      have hdest := isSyncDestination_of_eq_ok hdestination
      have hnode := hwell node (List.mem_of_find?_eq_some hdest.found)
      unfold syncNextEvent
      simp only [hdestination, pureStep_ok_bind]
      by_cases hphase : state.initialSyncPhase = .complete
      case neg => simp [hphase]
      rw [if_neg (not_not_intro hphase)]
      cases hpending : state.hasPendingEvent with
      | true => simp
      | false =>
          simp only [Bool.false_eq_true, if_false]
          cases hnext : nextUndeliveredSharedEvent node.journal state destination with
          | none => exact ⟨_, rfl⟩
          | some record =>
              obtain ⟨hvalid, hloaded⟩ := hrecord record hnext
              obtain ⟨event, hevent⟩ := Ref.isLoaded_iff.mp hloaded
              obtain ⟨-, hshared, hundelivered, -⟩ := undelivered_of_nextUndelivered hnext
              simp only [hvalid, show assertThat true = .ok () from rfl, pureStep_ok_bind,
                hevent]
              split
              case isTrue => exact ⟨_, rfl⟩
              case isFalse =>
                split
                case h_1 => exact ⟨_, rfl⟩
                case h_2 =>
                  exact beginSync_returns (exists_commitLinkSyncEvent hnode hlocal
                    hdest.state_eq (.beginEvent hphase hpending hshared hundelivered
                      (encodeEventFrame_ne_nil _)))
  | operate ids nowUs nodeId operation => trivial
  | saveNode nodeId => trivial
  | restart => trivial

end Commits

/-- What a step of a replica keeps of the sync states. -/
structure SyncStepIsSound (aether : Aether α ε) (app : AppClass α ε)
    (replica : Replica α ε) (action : ReplicaAction ε) : Prop where
  before : StatesAreWellFormed replica.runtime.nodes
  after : ∀ next, replicaStep aether app replica action = some next →
    StatesAreWellFormed next.runtime.nodes
  advances : ∀ next, replicaStep aether app replica action = some next →
    ∀ node' ∈ next.runtime.nodes,
      (∃ node ∈ replica.runtime.nodes, node'.objId = node.objId ∧
        StatesAdvance node.fields.linkSyncStates node'.fields.linkSyncStates) ∨
      findNode replica.runtime.nodes node'.objId = none
  commits : CommitsSucceed aether app replica action

/-- The invariant of the sync states gives the guarantee of one step. -/
theorem syncStepIsSound_of_wellFormed {replica : Replica α ε} {action : ReplicaAction ε}
    (hwell : StatesAreWellFormed replica.runtime.nodes)
    (hlocal : StepIsLocal aether app replica action) :
    SyncStepIsSound aether app replica action := by
  refine ⟨hwell, fun next hnext node' hmem => ?_, fun next hnext node' hmem => ?_,
    commitsSucceed_of_wellFormed hwell hlocal⟩
  · rcases nodeMoved_of_replicaStep hlocal hnext node' hmem with
      ⟨node, hnode, hmoved⟩ | ⟨-, hidle⟩
    · exact (hmoved.states (hwell node hnode)).1
    · intro entry hentry
      obtain ⟨state, hstate, hstateIdle⟩ := hidle entry hentry
      exact ⟨state, hstate, hstateIdle.wellFormed⟩
  · rcases nodeMoved_of_replicaStep hlocal hnext node' hmem with
      ⟨node, hnode, hmoved⟩ | ⟨hnew, -⟩
    · exact Or.inl ⟨node, hnode, hmoved.objId, (hmoved.states (hwell node hnode)).2⟩
    · exact Or.inr hnew

/-- Along every run, the local sync states of a replica are well formed, they only
advance, and no commit of a Begin or Complete Event fails. -/
theorem linkSyncStates_areSound {replica : Replica α ε} {actions : List (ReplicaAction ε)}
    (hstart : ∀ node ∈ replica.runtime.nodes, HasLocalStates node)
    (hlocal : EveryStep (replicaStep aether app) (StepIsLocal aether app) replica actions) :
    EveryStep (replicaStep aether app) (SyncStepIsSound aether app) replica actions := by
  refine everyStep_of_invariant (fun replica => StatesAreWellFormed replica.runtime.nodes)
    (fun replica action next hwell hallowed hnext =>
      (syncStepIsSound_of_wellFormed hwell hallowed).after next hnext)
    (fun replica action hwell hallowed => syncStepIsSound_of_wellFormed hwell hallowed)
    (fun node hnode entry hentry => ?_) hlocal
  obtain ⟨state, hstate, huntouched⟩ := hstart node hnode entry hentry
  refine ⟨state, hstate, ?_⟩
  rw [huntouched]
  exact (LinkSyncState.isIdle_fresh _ _).wellFormed

section RoomSynchronization

/-- A host drives the initial synchronization of the client, and receives a stale Ack
in between. -/
def roomSynchronization : List (ReplicaAction MessageAddedEvent) :=
  [.syncInitialState (receiverEnv true) ⟨10⟩ ⟨15⟩,
    .receive (receiverEnv true) clientEndpoint (encodeAckFrame staleAck),
    .syncInitialState (receiverEnv true) ⟨10⟩ ⟨15⟩]

theorem roomSynchronization_isSound :
    EveryStep (replicaStep chatAether chatRoom) (SyncStepIsSound chatAether chatRoom)
      unsyncedHost roomSynchronization := by
  refine linkSyncStates_areSound ?_ ?_
  · intro node hnode entry hentry
    rw [List.mem_singleton.mp hnode] at hentry
    rcases List.mem_cons.mp hentry with rfl | hentry
    · exact ⟨hostLinkState, rfl, rfl⟩
    · rw [List.mem_singleton.mp hentry]
      exact ⟨clientLinkState, rfl, rfl⟩
  · have hvalid : (receiverEnv true).eventId.isValid = true := by decide
    refine everyStep_cons.mpr ⟨hvalid, fun first _ => everyStep_cons.mpr ⟨⟨hvalid, ?_⟩,
      fun second _ => everyStep_cons.mpr ⟨hvalid, fun last _ => trivial⟩⟩⟩
    -- An Ack does not decode as a NodeState.
    intro frame imported hdecode
    have hpeek := peekSyncFrameType_encodeNodeStateFrame frame
    rw [(encode_of_decodeNodeStateFrame hdecode).2, peekSyncFrameType_encodeAckFrame] at hpeek
    cases hpeek

end RoomSynchronization

end AppTraverse
