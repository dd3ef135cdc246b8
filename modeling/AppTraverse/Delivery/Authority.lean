import AppTraverse.Delivery.RejectedFrames
import AppTraverse.Journal.NodeChanges
import AppTraverse.Wire.FrameBijection

/-!
# Who may change a replica

A received frame changes the journal of a registered Node only when it is an Event
from a ReadWrite participant that is addressed to this replica, and an Ack changes a
local sync state only when the endpoint of that relationship sent it and it carries
the packet that is pending there.  Both are read off the outcome lemmas of the
handlers, at any state of the replica whatsoever: topology changes that happened
before only matter through the Shares the Node has now.
-/

namespace AppTraverse

open Foundations

variable {α ε : Type} {aether : Aether α ε} {app : AppClass α ε}

section Registry

variable {nodes : List (SharedNode α ε)} {node : SharedNode α ε} {nodeId : ObjId}

/-- A Node is found under its own id. -/
theorem objId_of_findNode (h : findNode nodes nodeId = some node) : node.objId = nodeId := by
  have hid := List.find?_some h
  exact of_decide_eq_true hid

/-- Replacing a Node changes what its own id finds. -/
theorem findNode_replaceNode (nodes : List (SharedNode α ε)) (node : SharedNode α ε)
    (nodeId : ObjId) :
    findNode (replaceNode nodes node) nodeId =
      (findNode nodes nodeId).map fun other =>
        if other.objId = node.objId then node else other := by
  induction nodes with
  | nil => rfl
  | cons head tail ih =>
      have hkeeps : (if head.objId = node.objId then node else head).objId = head.objId := by
        split
        case isTrue hsame => exact hsame.symm
        case isFalse => rfl
      rw [findNode, replaceNode, List.map_cons, List.find?_cons, hkeeps, findNode,
        List.find?_cons]
      cases decide (head.objId = nodeId) with
      | true => rfl
      | false => exact ih

/-- The Nodes of a runtime after one of them was committed to. -/
theorem findNode_replaceNode_of_objId {committed : SharedNode α ε}
    (hid : committed.objId = node.objId) (h : findNode nodes node.objId = some node)
    (nodeId : ObjId) :
    findNode (replaceNode nodes committed) nodeId =
      if nodeId = node.objId then some committed else findNode nodes nodeId := by
  rw [findNode_replaceNode]
  by_cases hsame : nodeId = node.objId
  · rw [if_pos hsame, hsame, h, Option.map_some, if_pos hid.symm]
  · rw [if_neg hsame]
    cases hother : findNode nodes nodeId with
    | none => rfl
    | some other =>
        have hdistinct : ¬ other.objId = committed.objId := by
          rw [objId_of_findNode hother, hid]
          exact hsame
        rw [Option.map_some, if_neg hdistinct]

/-- A Node that is added does not hide those that were there. -/
theorem findNode_append_of_found {added : List (SharedNode α ε)}
    (h : findNode nodes nodeId = some node) :
    findNode (nodes ++ added) nodeId = some node := by
  rw [findNode, List.find?_append]
  rw [findNode] at h
  rw [h, Option.some_or]

end Registry

/-- An admitted Node is the one that the frame names. -/
theorem objId_of_importValidatedNode {env : StepEnv} {replica : Replica α ε}
    {sourceEndpoint : Bytes} {frame : NodeStateFrame} {imported : ImportedNode α ε}
    (himport : (importValidatedNode aether app env replica sourceEndpoint frame).result =
      .ok (some imported)) : imported.node.objId = frame.targetNodeId := by
  obtain ⟨parsed, validated, root, hadmission, -⟩ := exists_admission aether app himport
  obtain ⟨snapshot, applied, -, -, -, hnode⟩ := replayFromBase_keeps hadmission.replay
  obtain ⟨object, shared, states, -, hfrom, -⟩ := exists_loadedFrom aether hadmission.load
  rw [hnode]
  exact hfrom.objId

/-- A received NodeState keeps the registered Nodes, or adds the one it admitted. -/
theorem nodes_of_onNodeState {env : StepEnv} {replica : Replica α ε}
    {sourceEndpoint : Bytes} {frame : NodeStateFrame} {runtime' : SharedSyncRuntime α ε}
    (h : (onNodeState aether app env replica sourceEndpoint frame).result = .ok runtime') :
    runtime'.nodes = replica.runtime.nodes ∨
      ∃ imported completed registered index state,
        (importValidatedNode aether app env replica sourceEndpoint frame).result =
          .ok (some imported) ∧
        Registration env imported frame completed registered index state ∧
        findNode replica.runtime.nodes registered.objId = none ∧
        runtime'.nodes = replica.runtime.nodes ++ [registered] := by
  cases htarget : findNode replica.runtime.nodes frame.targetNodeId with
  | some target =>
      left
      rw [onNodeState_of_known aether app env sourceEndpoint htarget] at h
      rcases onNodeStateOfKnownNode_cases env sourceEndpoint htarget with
        ⟨-, hbinds⟩ | ⟨-, -, hkept⟩
      · obtain ⟨bound, hbound, hnodes⟩ :=
          bindAndAcknowledge_returns env replica.runtime target sourceEndpoint frame
        rw [hbinds, hbound] at h
        cases h
        exact hnodes
      · rw [hkept runtime' h]
  | none =>
      rcases onNodeState_of_unknown aether app env sourceEndpoint htarget with
        ⟨-, hkept⟩ | ⟨imported, saved, completed, registered, index, state, himport,
          hregistration, -, -, hbinds⟩
      · left
        rw [hkept runtime' h]
      · obtain ⟨bound, hbound, hnodes⟩ := bindAndAcknowledge_returns env
          { replica.runtime with nodes := replica.runtime.nodes ++ [registered] }
          registered sourceEndpoint frame
        rw [hbinds, hbound] at h
        cases h
        have hid : registered.objId = frame.targetNodeId :=
          hregistration.sameShared.objId.trans (objId_of_importValidatedNode himport)
        exact Or.inr ⟨imported, completed, registered, index, state, himport,
          hregistration, by rw [hid]; exact htarget, hnodes⟩

theorem findNode_of_onNodeState {env : StepEnv} {replica : Replica α ε}
    {sourceEndpoint : Bytes} {frame : NodeStateFrame} {runtime' : SharedSyncRuntime α ε}
    (h : (onNodeState aether app env replica sourceEndpoint frame).result = .ok runtime')
    {nodeId : ObjId} {node : SharedNode α ε}
    (hfound : findNode replica.runtime.nodes nodeId = some node) :
    findNode runtime'.nodes nodeId = some node := by
  rcases nodes_of_onNodeState h with hnodes | ⟨_, _, registered, _, _, -, -, -, hnodes⟩
  · rw [hnodes]
    exact hfound
  · rw [hnodes]
    exact findNode_append_of_found hfound

section SyncStates

variable {node : SharedNode α ε} {index : Nat} {state : LinkSyncState}

/-- The state found for a relationship is the state of that relationship. -/
theorem shareId_of_findLinkSyncIndex {entries : List (Ref LinkSyncState)} {shareId : ObjId}
    {index : Nat} {state : LinkSyncState}
    (hindex : findLinkSyncIndexForShare entries shareId = .ok index)
    (hstate : entries[index]?.bind Ref.obj = some state) : state.shareId = shareId := by
  induction entries generalizing index with
  | nil => simp at hstate
  | cons entry rest ih =>
      unfold findLinkSyncIndexForShare at hindex
      -- An entry that is passed over leaves the search to the rest.
      have hskip : ∀ {index : Nat}, (entry :: rest)[index]?.bind Ref.obj = some state →
          (· + 1) <$> findLinkSyncIndexForShare rest shareId = .ok index →
          state.shareId = shareId := by
        intro index hat hrest
        obtain ⟨before, hbefore, hsucc⟩ := except_bind_eq_ok_iff.mp
          ((map_eq_pure_bind _ (findLinkSyncIndexForShare rest shareId)).symm.trans hrest)
        cases hsucc
        exact ih hbefore (by simpa using hat)
      split at hindex
      case isTrue => exact hskip hstate hindex
      case isFalse =>
        split at hindex
        case h_1 => cases hindex
        case h_2 found hfound =>
          split at hindex
          case isTrue hshare =>
            cases hindex
            have hsame : entry.obj = some state := by simpa using hstate
            cases hfound.symm.trans hsame
            exact hshare
          case isFalse => exact hskip hstate hindex

theorem linkSyncStateAt_eq_ok_iff :
    linkSyncStateAt node index = .ok state ↔
      node.fields.linkSyncStates[index]?.bind Ref.obj = some state := by
  unfold linkSyncStateAt
  cases node.fields.linkSyncStates[index]?.bind Ref.obj with
  | none => simp
  | some other => simp

/-- A commit on one sync state leaves the others as they are. -/
theorem linkSyncStateAt_setLinkSyncStateAt {other : Nat} {committed : LinkSyncState}
    (h : other ≠ index) :
    linkSyncStateAt (setLinkSyncStateAt node index committed) other =
      linkSyncStateAt node other := by
  unfold linkSyncStateAt setLinkSyncStateAt
  simp only [List.getElem?_modify, if_neg (Ne.symm h), id_map']

end SyncStates

/-- The sender of an Event may add it: the frame is addressed to a relationship that
ends here, and the first relationship of the sender is ReadWrite. -/
structure EventIsAuthorised (shares : List Share) (localEndpoint sourceEndpoint : Bytes)
    (destinationShareId : ObjId) : Prop where
  destination : shareEndpointOf shares destinationShareId = some localEndpoint
  foreign : sourceEndpoint ≠ localEndpoint
  readWrite : ∃ source, shareOfEndpoint shares sourceEndpoint = some source ∧
    source.access = ShareAccess.readWrite

theorem eventIsAuthorised_of_addressed {shares : List Share}
    {localEndpoint sourceEndpoint : Bytes} {destinationShareId : ObjId}
    (h : eventAddressedToThisReplica shares localEndpoint sourceEndpoint
      destinationShareId = true) :
    EventIsAuthorised shares localEndpoint sourceEndpoint destinationShareId := by
  unfold eventAddressedToThisReplica at h
  rw [Bool.and_eq_true, Bool.and_eq_true] at h
  obtain ⟨⟨hforeign, hdestination⟩, hsource⟩ := h
  refine ⟨of_decide_eq_true hdestination, of_decide_eq_true hforeign, ?_⟩
  cases hshare : shareOfEndpoint shares sourceEndpoint with
  | none => simp [hshare] at hsource
  | some source =>
      rw [hshare] at hsource
      exact ⟨source, rfl, of_decide_eq_true hsource⟩

/-- The sender of an Ack may complete a sync state: it is the endpoint of that
relationship, and the Ack carries the packet that is pending there. -/
structure AckIsAuthorised (node : SharedNode α ε) (sourceEndpoint : Bytes)
    (frame : AckFrame) (state : LinkSyncState) : Prop where
  target : frame.targetNodeId = node.objId
  share : frame.destinationShareId = state.shareId
  endpoint : shareEndpointOf node.fields.shares state.shareId = some sourceEndpoint
  valid : frame.packetId.isValid = true
  pending : (state.initialSyncPhase = .pending ∧
      state.pendingInitialPacketId = frame.packetId) ∨
    (state.initialSyncPhase = .complete ∧ state.hasPendingEvent = true ∧
      state.pendingEventPacketId = frame.packetId)

/-- An endpoint that no open relationship lets write: it has none, or the one it has
is not ReadWrite. -/
def MayNotWrite (shares : List Share) (endpointUid : Bytes) : Prop :=
  sharesOfEndpoint shares endpointUid = [] ∨
    ∃ share, sharesOfEndpoint shares endpointUid = [share] ∧
      share.access ≠ ShareAccess.readWrite

theorem not_eventIsAuthorised_of_mayNotWrite {shares : List Share}
    {localEndpoint sourceEndpoint : Bytes} {destinationShareId : ObjId}
    (h : MayNotWrite shares sourceEndpoint) :
    ¬ EventIsAuthorised shares localEndpoint sourceEndpoint destinationShareId := by
  intro hauthorised
  obtain ⟨source, hsource, haccess⟩ := hauthorised.readWrite
  rw [shareOfEndpoint] at hsource
  have hends := List.find?_some hsource
  have hmem : source ∈ sharesOfEndpoint shares sourceEndpoint :=
    List.mem_filter.mpr ⟨List.mem_of_find?_eq_some hsource, hends⟩
  rcases h with hnone | ⟨share, hone, hother⟩
  · rw [hnone] at hmem
    cases hmem
  · rw [hone, List.mem_singleton] at hmem
    rw [hmem] at haccess
    exact hother haccess

/-- What a received frame may do to the Nodes of a replica. -/
structure ReceptionIsAuthorised (aether : Aether α ε) (replica : Replica α ε)
    (sourceEndpoint bytes : Bytes) (runtime' : SharedSyncRuntime α ε) : Prop where
  /-- No registered Node goes away. -/
  registered : ∀ nodeId node, findNode replica.runtime.nodes nodeId = some node →
    ∃ node', findNode runtime'.nodes nodeId = some node'
  journal : ∀ nodeId node node', findNode replica.runtime.nodes nodeId = some node →
    findNode runtime'.nodes nodeId = some node' → node'.journal ≠ node.journal →
    ∃ frame, decodeEventFrame (aether.derives aether.eventClassId) bytes = some frame ∧
      frame.targetNodeId = nodeId ∧
      EventIsAuthorised node.fields.shares replica.runtime.localEndpoint sourceEndpoint
        frame.destinationShareId
  acknowledged : ∀ frame, decodeAckFrame bytes = some frame →
    ∀ nodeId node node', findNode replica.runtime.nodes nodeId = some node →
      findNode runtime'.nodes nodeId = some node' →
      ∀ index state state', linkSyncStateAt node index = .ok state →
        linkSyncStateAt node' index = .ok state' → state' ≠ state →
        AckIsAuthorised node sourceEndpoint frame state
  /-- An endpoint without a ReadWrite relationship adds no Event. -/
  noForeignEvent : ∀ nodeId node node',
    findNode replica.runtime.nodes nodeId = some node →
    findNode runtime'.nodes nodeId = some node' →
    MayNotWrite node.fields.shares sourceEndpoint → node'.journal = node.journal
  /-- Nobody acknowledges for another endpoint. -/
  noThirdParty : ∀ frame, decodeAckFrame bytes = some frame →
    ∀ nodeId node node', findNode replica.runtime.nodes nodeId = some node →
      findNode runtime'.nodes nodeId = some node' →
      ∀ index state, linkSyncStateAt node index = .ok state →
        shareEndpointOf node.fields.shares state.shareId ≠ some sourceEndpoint →
        linkSyncStateAt node' index = .ok state

section Reception

variable {env : StepEnv} {replica : Replica α ε} {sourceEndpoint : Bytes}
  {runtime' : SharedSyncRuntime α ε} {nodeId : ObjId} {node node' : SharedNode α ε}

/-- An Event frame changes the journal of its target only, and only for an authorised
sender. -/
theorem journal_of_onEvent {frame : EventFrame}
    (h : (onEvent aether app env replica sourceEndpoint frame).result = .ok runtime')
    (hfound : findNode replica.runtime.nodes nodeId = some node) :
    ∃ node', findNode runtime'.nodes nodeId = some node' ∧
      (node' = node ∨ (frame.targetNodeId = nodeId ∧
        EventIsAuthorised node.fields.shares replica.runtime.localEndpoint sourceEndpoint
          frame.destinationShareId)) := by
  rcases onEvent_cases h with ⟨-, rfl⟩ | ⟨_, _, _, _, -, -, -, -, rfl⟩ |
    ⟨target, parsed, wireRootId, localEvent, inserted, hadmissible, hinserted, -, rfl⟩
  · exact ⟨node, hfound, Or.inl rfl⟩
  · exact ⟨node, hfound, Or.inl rfl⟩
  · obtain ⟨-, -, hrecord⟩ := recordInserted_of_commitShared hinserted.commit
    have htarget := hadmissible.found
    have hid := objId_of_findNode htarget
    rw [← hid] at htarget
    have hafter := findNode_replaceNode_of_objId hrecord.objId htarget nodeId
    by_cases hsame : nodeId = target.objId
    · rw [if_pos hsame] at hafter
      refine ⟨inserted, hafter, Or.inr ⟨by rw [hsame, hid], ?_⟩⟩
      rw [hsame] at hfound
      cases htarget.symm.trans hfound
      exact eventIsAuthorised_of_addressed hadmissible.addressed
    · rw [if_neg hsame] at hafter
      exact ⟨node, hafter.trans hfound, Or.inl rfl⟩

/-- An awaited Ack is authorised. -/
theorem AckIsAwaited.isAuthorised {frame : AckFrame} {index : Nat} {state : LinkSyncState}
    (h : AckIsAwaited replica.runtime sourceEndpoint frame node index state)
    (hvalid : frame.packetId.isValid = true) :
    AckIsAuthorised node sourceEndpoint frame state := by
  have hshare : state.shareId = frame.destinationShareId :=
    shareId_of_findLinkSyncIndex h.index_eq (linkSyncStateAt_eq_ok_iff.mp h.state_eq)
  refine ⟨(objId_of_findNode h.found).symm, hshare.symm, ?_, hvalid, ?_⟩
  · rw [hshare]
    exact h.endpoint
  · have hawaits := h.awaits
    simp only [LinkSyncState.awaits, Bool.or_eq_true, Bool.and_eq_true,
      decide_eq_true_eq] at hawaits
    rcases hawaits with hinitial | ⟨hphase, hpacket⟩
    · exact Or.inl hinitial
    · refine Or.inr ⟨hphase, ?_, hpacket⟩
      rw [LinkSyncState.hasPendingEvent, hpacket]
      exact hvalid

/-- An Ack keeps every journal, and every sync state but the one it completes. -/
theorem states_of_onAck {frame : AckFrame}
    (h : (onAck env replica.runtime sourceEndpoint frame).result = .ok runtime')
    (hvalid : frame.packetId.isValid = true)
    (hfound : findNode replica.runtime.nodes nodeId = some node) :
    ∃ node', findNode runtime'.nodes nodeId = some node' ∧ node'.journal = node.journal ∧
      ∀ index state, linkSyncStateAt node index = .ok state →
        linkSyncStateAt node' index = .ok state ∨
        AckIsAuthorised node sourceEndpoint frame state := by
  rcases onAck_cases h with ⟨-, -, rfl⟩ |
    ⟨target, index, awaiting, committed, hawaited, hcommit, -, rfl⟩
  · exact ⟨node, hfound, rfl, fun index state hstate => Or.inl hstate⟩
  · have hsame := sameShared_of_commitLinkSyncEvent hcommit
    have htarget := hawaited.found
    have hid := objId_of_findNode htarget
    rw [← hid] at htarget
    have hafter := findNode_replaceNode_of_objId hsame.objId htarget nodeId
    by_cases hnode : nodeId = target.objId
    case neg =>
      rw [if_neg hnode] at hafter
      exact ⟨node, hafter.trans hfound, rfl, fun index state hstate => Or.inl hstate⟩
    rw [if_pos hnode] at hafter
    rw [hnode] at hfound
    cases htarget.symm.trans hfound
    refine ⟨committed, hafter, hsame.journal, fun other state hstate => ?_⟩
    by_cases hindex : other = index
    · rw [hindex] at hstate
      cases hawaited.state_eq.symm.trans hstate
      exact Or.inr (hawaited.isAuthorised hvalid)
    · obtain ⟨_, _, -, -, rfl⟩ := commitLinkSyncEvent_eq_ok_iff.mp hcommit
      left
      rw [linkSyncStateAt_setLinkSyncStateAt hindex]
      exact hstate

/-- A decoded Ack carries a valid packet id. -/
theorem packetId_of_decodeAckFrame {bytes : Bytes} {frame : AckFrame}
    (h : decodeAckFrame bytes = some frame) : frame.packetId.isValid = true := by
  obtain ⟨hreadable, -⟩ := encode_of_decodeAckFrame h
  rw [AckFrame.isReadable, Bool.and_eq_true, Bool.and_eq_true] at hreadable
  exact hreadable.1.1

end Reception

/-- A received frame keeps the registered Nodes, and changes the journal of one only
as an Event of an authorised sender. -/
theorem journal_of_onBytes {env : StepEnv} {replica : Replica α ε}
    {sourceEndpoint bytes : Bytes} {runtime' : SharedSyncRuntime α ε}
    (h : (onBytes aether app env replica sourceEndpoint bytes).result = .ok runtime')
    {nodeId : ObjId} {node : SharedNode α ε}
    (hfound : findNode replica.runtime.nodes nodeId = some node) :
    ∃ node', findNode runtime'.nodes nodeId = some node' ∧
      (node'.journal = node.journal ∨
        ∃ frame, decodeEventFrame (aether.derives aether.eventClassId) bytes = some frame ∧
          frame.targetNodeId = nodeId ∧
          EventIsAuthorised node.fields.shares replica.runtime.localEndpoint
            sourceEndpoint frame.destinationShareId) := by
  unfold onBytes at h
  split at h
  case h_1 =>
    cases h
    exact ⟨node, hfound, Or.inl rfl⟩
  case h_2 =>
    split at h
    case h_1 =>
      cases h
      exact ⟨node, hfound, Or.inl rfl⟩
    case h_2 frame hdecode =>
      exact ⟨node, findNode_of_onNodeState h hfound, Or.inl rfl⟩
  case h_3 =>
    split at h
    case h_1 =>
      cases h
      exact ⟨node, hfound, Or.inl rfl⟩
    case h_2 frame hdecode =>
      obtain ⟨node', hfound', hjournal, -⟩ :=
        states_of_onAck h (packetId_of_decodeAckFrame hdecode) hfound
      exact ⟨node', hfound', Or.inl hjournal⟩
  case h_4 =>
    split at h
    case h_1 =>
      cases h
      exact ⟨node, hfound, Or.inl rfl⟩
    case h_2 frame hdecode =>
      obtain ⟨node', hfound', rfl | ⟨htarget, hauthorised⟩⟩ := journal_of_onEvent h hfound
      · exact ⟨node', hfound', Or.inl rfl⟩
      · exact ⟨node', hfound', Or.inr ⟨frame, hdecode, htarget, hauthorised⟩⟩

/-- A received Ack changes a sync state only as an Ack of the endpoint of that
relationship. -/
theorem states_of_onBytes_ack {env : StepEnv} {replica : Replica α ε}
    {sourceEndpoint bytes : Bytes} {runtime' : SharedSyncRuntime α ε} {frame : AckFrame}
    (h : (onBytes aether app env replica sourceEndpoint bytes).result = .ok runtime')
    (hdecode : decodeAckFrame bytes = some frame)
    {nodeId : ObjId} {node node' : SharedNode α ε}
    (hfound : findNode replica.runtime.nodes nodeId = some node)
    (hfound' : findNode runtime'.nodes nodeId = some node')
    {index : Nat} {state : LinkSyncState} (hstate : linkSyncStateAt node index = .ok state) :
    linkSyncStateAt node' index = .ok state ∨
      AckIsAuthorised node sourceEndpoint frame state := by
  have hvalid := packetId_of_decodeAckFrame hdecode
  obtain ⟨-, rfl⟩ := encode_of_decodeAckFrame hdecode
  unfold onBytes at h
  simp only [peekSyncFrameType_encodeAckFrame, hdecode] at h
  obtain ⟨after, hafter, -, hstates⟩ := states_of_onAck h hvalid hfound
  cases hfound'.symm.trans hafter
  exact hstates index state hstate

section AwaitedAck

/-- The sync state of the client after the room was sent under packet 99. -/
def awaitingClientState : LinkSyncState :=
  { clientLinkState with
    initialSyncPhase := .pending
    pendingInitialPacketId := ⟨99⟩
    pendingInitialPacket := [1] }

/-- A host that waits for the client to acknowledge the room. -/
def awaitingHost : Replica Messages MessageAddedEvent :=
  roomReplica hostEndpoint (syncedRoom hostLinkState awaitingClientState [] [])

end AwaitedAck

end AppTraverse
