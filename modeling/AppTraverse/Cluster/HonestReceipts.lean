import AppTraverse.Cluster.HonestSteps

/-!
# Received frames among honest peers

A snapshot that is imported leaves the receiver with the Events the packet carries,
all of them saved before the Ack; an Event is saved before its Ack, or was held
before; and an exact duplicate is acknowledged for a packet that was noted when it
was imported.
-/

namespace AppTraverse

open Foundations

variable {α ε : Type} {aether : Aether α ε} {app : AppClass α ε}
  {history next : PacketHistory α ε} {peer : ReplicaView} {env : StepEnv}
  {runtime runtime' : SharedSyncRuntime α ε} {sourceEndpoint bytes : Bytes}

/-- The Ack that answers a NodeState frame. -/
def NodeStateFrame.answer (frame : NodeStateFrame) : AckFrame :=
  ⟨frame.packetId, frame.targetNodeId, frame.destinationShareId⟩

theorem decodeAckFrame_encode_eq {frame decoded : AckFrame}
    (h : decodeAckFrame (encodeAckFrame frame) = some decoded) : decoded = frame := by
  rw [decodeAckFrame_encode] at h
  split at h
  case isTrue => exact (Option.some.inj h).symm
  case isFalse => cases h

/-- Binding asks the callback, and acknowledges the frame at most. -/
theorem answers_of_bindAndAcknowledge {node : SharedNode α ε} {frame : NodeStateFrame}
    {effect : Effect α ε}
    (hmem : effect ∈ (bindAndAcknowledge env runtime node sourceEndpoint frame).effects) :
    (∃ bound, effect = .bindNode sourceEndpoint node bound) ∨
      effect = .send sourceEndpoint (encodeAckFrame frame.answer) := by
  have hensures : (bindAndAcknowledge env runtime node sourceEndpoint frame).Ensures
      (fun effect => (∃ bound, effect = .bindNode sourceEndpoint node bound) ∨
        effect = .send sourceEndpoint (encodeAckFrame frame.answer)) fun _ => True := by
    unfold bindAndAcknowledge
    split
    case h_1 =>
      exact .bind (EffectLog.ensures_emit (Or.inr rfl)) fun _ _ =>
        EffectLog.ensures_pure trivial
    case h_2 expectation hexpectation =>
      split
      case isTrue => exact EffectLog.ensures_pure trivial
      case isFalse =>
        refine .bind (EffectLog.ensures_emit (Or.inl ⟨_, rfl⟩)) fun _ _ => ?_
        split
        case isTrue => exact EffectLog.ensures_pure trivial
        case isFalse =>
          exact .bind (EffectLog.ensures_emit (Or.inr rfl)) fun _ _ =>
            EffectLog.ensures_pure trivial
  exact hensures.effects effect hmem

/-- Binding is true if the Ack is. -/
theorem binding_isTrue (env : StepEnv) (runtime : SharedSyncRuntime α ε)
    (sourceEndpoint : Bytes) (node : SharedNode α ε) {after : ReplicaView}
    {frame : NodeStateFrame}
    (hack : AckIsTrue aether after peer
      ⟨frame.targetNodeId, frame.destinationShareId, frame.packetId⟩) :
    (∀ effect ∈ (bindAndAcknowledge env runtime node sourceEndpoint frame).effects,
      effect.SavesTrue aether after peer) ∧
    sentPackets (bindAndAcknowledge env runtime node sourceEndpoint frame).effects = [] ∧
    ∀ destination bytes decoded, .send destination bytes ∈
        (bindAndAcknowledge env runtime node sourceEndpoint frame).effects →
      decodeAckFrame bytes = some decoded → AckIsTrue aether after peer
        ⟨decoded.targetNodeId, decoded.destinationShareId, decoded.packetId⟩ := by
  refine ⟨fun effect hmem => ?_, sentPackets_eq_nil fun effect hmem =>
    (bindAndAcknowledge_savesNothing effect hmem).1,
    fun destination bytes decoded hmem hdecode => ?_⟩
  · rcases answers_of_bindAndAcknowledge hmem with ⟨bound, rfl⟩ | rfl
    · trivial
    · trivial
  · rcases answers_of_bindAndAcknowledge hmem with ⟨bound, hbind⟩ | hsend
    · cases hbind
    · cases hsend
      rw [decodeAckFrame_encode_eq hdecode]
      exact hack

section Event

/-- An Event that is acknowledged is held, and was sent by the other side. -/
theorem outcome_onEvent (h : DeliveryInvariant aether history peer)
    (hgrows : history.view.Grows next.view) (hapart : peer.endpoint ≠ history.view.endpoint)
    {frame : EventFrame}
    (hdecode : decodeEventFrame (aether.derives aether.eventClassId) bytes = some frame)
    (htrue : FrameIsTrue aether peer history.view bytes)
    (hresult : (onEvent aether app env history.replica sourceEndpoint frame).result =
      .ok runtime')
    (hafter : IsAfterCall history next
      (onEvent aether app env history.replica sourceEndpoint frame).effects runtime') :
    OutcomeIsTrue aether history next.view peer
      (onEvent aether app env history.replica sourceEndpoint frame).effects runtime' := by
  obtain ⟨hsent, hpacket⟩ := htrue.packet _ (packetKeyOf_of_decodeEventFrame hdecode)
  have hcarried : carriedIdentities aether bytes = some [frame.identity] :=
    carriedIdentities_of_event hdecode
  obtain ⟨-, hcarries⟩ := hpacket.carries _ hcarried
  obtain ⟨hfits, hthere, hhere⟩ := hcarries frame.identity (List.mem_singleton.mpr rfl)
  -- The Ack is true once the Event is held here.
  have hack : next.view.holds frame.targetNodeId frame.identity →
      ∀ destination bytes decoded, (.send destination bytes : Effect α ε) =
        ackEffect sourceEndpoint frame.packetId frame.targetNodeId frame.destinationShareId →
      decodeAckFrame bytes = some decoded → AckIsTrue aether next.view peer
        ⟨decoded.targetNodeId, decoded.destinationShareId, decoded.packetId⟩ := by
    intro hholds destination bytes' decoded heffect hdecoded
    cases heffect
    rw [decodeAckFrame_encode_eq hdecoded]
    refine ⟨bytes, _, hsent, hcarried, fun identity hidentity => ?_⟩
    rw [List.mem_singleton.mp hidentity]
    exact hholds
  have hquiet : sentPackets [(ackEffect sourceEndpoint frame.packetId frame.targetNodeId
      frame.destinationShareId : Effect α ε)] = [] :=
    sentPackets_eq_nil fun effect heffect => by
      rw [List.mem_singleton.mp heffect]
      exact sendAck_sendsNoPacket _ _
  rcases onEvent_cases hresult with ⟨heffects, rfl⟩ |
    ⟨node, parsed, wireRootId, existing, hadmissible, hfound, -, heffects, rfl⟩ |
    ⟨node, parsed, wireRootId, localEvent, inserted, hadmissible, hinserted, heffects, rfl⟩
  · rw [heffects]
    exact outcome_nothing h hgrows rfl
  · -- The journal has the record: it is foreign to one of the two sides.
    have hid := objId_of_findNode hadmissible.found
    have hholds : history.view.holds frame.targetNodeId frame.identity := by
      by_cases horigin : frame.identity.originUid = peer.endpoint
      · have hforeign := (h.live (List.mem_of_find?_eq_some hadmissible.found)).foreign
          frame.identity (mem_sharedIdentities_of_findSharedEvent hfound)
          (by rw [horigin]; exact hapart)
        rw [← hid]
        exact hforeign.1
      · exact hhere horigin
    rw [heffects]
    refine ⟨live_of_same h hgrows rfl, by simp [ackEffect, Effect.SavesTrue], ?_, ?_⟩
    · rw [hquiet]
      simp
    · intro destination bytes' decoded heffect
      exact hack (hgrows.holds _ _ hholds) destination bytes' decoded
        (List.mem_singleton.mp heffect)
  · -- The record is saved before it is acknowledged.
    obtain ⟨-, -, hrecord⟩ := recordInserted_of_commitShared hinserted.commit
    have hid := objId_of_findNode hadmissible.found
    have hmem : frame.identity ∈ sharedIdentities inserted.journal :=
      mem_sharedIdentities_of_findSharedEvent
        (hasRecord_of_commitShared hinserted.unknown
          (recordInserted_of_commitShared hinserted.commit).1 hrecord).found
    have hlive : next.replica.runtime.nodes =
        replaceNode history.replica.runtime.nodes inserted := by
      rw [hafter.runtime]
    have hsaved : next.replica.storage.nodes =
        saveNodeValue history.replica.storage.nodes inserted := by
      rw [hafter.storage, heffects]
      rfl
    have hholds : next.view.holds frame.targetNodeId frame.identity :=
      holds_of_committed hadmissible.found hrecord.objId hlive hsaved hmem
    have hnode := (h.live (List.mem_of_find?_eq_some hadmissible.found)).mono hgrows (.refl peer)
    have htrueInserted : NodeIsTrue aether next.view peer inserted := by
      refine nodeIsTrue_of_recordInserted hnode hrecord hfits fun _ => ?_
      rw [hid]
      exact ⟨hholds, hthere⟩
    rw [heffects]
    refine ⟨live_of_replaced h hgrows htrueInserted rfl, ?_, ?_, ?_⟩
    · simp [Effect.SavesTrue, htrueInserted, ackEffect]
    · change ∀ packet ∈ sentPackets [(ackEffect sourceEndpoint frame.packetId
        frame.targetNodeId frame.destinationShareId : Effect α ε)], _
      rw [hquiet]
      simp
    · intro destination bytes' decoded heffect
      simp only [List.mem_cons, reduceCtorEq, List.not_mem_nil, or_false, false_or] at heffect
      exact hack hholds destination bytes' decoded heffect

end Event

section NodeState

variable {frame : NodeStateFrame}

/-- How a Node without sync states of its own gets registered: the state of the sender
is completed and saved, the packet is noted, the Node is saved, and only then bound and
acknowledged. -/
structure IsRegistered (env : StepEnv) (runtime runtime' : SharedSyncRuntime α ε)
    (imported : ImportedNode α ε) (sourceEndpoint : Bytes) (frame : NodeStateFrame)
    (completed noted : SharedNode α ε) (entry : Ref LinkSyncState) : Prop where
  source : ∃ sourceIndex, completeSourceState env imported.node imported.sourceShareId =
    .ok (completed, sourceIndex)
  entry_mem : entry ∈ completed.fields.linkSyncStates
  destination : ∃ index state, destinationState completed frame.destinationShareId =
    .ok (index, state) ∧ commitLinkSyncEvent completed index env.eventId
      (.noteInitialSyncReceived frame.packetId) = .ok noted
  effects : (onNodeStateOfImportedNode env runtime imported sourceEndpoint frame).effects =
    .saveLinkSyncState completed.objId entry :: .saveNode noted ::
      (bindAndAcknowledge env { runtime with nodes := runtime.nodes ++ [noted] } noted
        sourceEndpoint frame).effects
  nodes : runtime'.nodes = runtime.nodes ++ [noted]

/-- Untouched states have noted no packet, and completing one of them notes none. -/
theorem received_of_completeSourceState {node completed : SharedNode α ε}
    {sourceShareId : ObjId} {sourceIndex : Nat} (hlocal : HasLocalStates node)
    (h : completeSourceState env node sourceShareId = .ok (completed, sourceIndex)) :
    ∀ entry ∈ completed.fields.linkSyncStates, ∀ state, entry.obj = some state →
      state.receivedInitialPacketId = .empty := by
  refine forall_states_of_commit (fun entry hentry state hstate => ?_)
    (commit_of_completeSourceState h) fun state committed _ hcommit hnone => ?_
  · obtain ⟨found, hfound, huntouched⟩ := hlocal entry hentry
    cases hfound.symm.trans hstate
    rw [huntouched]
    rfl
  · obtain ⟨-, -, happly⟩ := except_bind_eq_ok_iff.mp hcommit
    cases happly
    exact hnone

/-- A Node whose states were all created here is registered, if the call returns. -/
theorem exists_registered {imported : ImportedNode α ε} (hlocal : HasLocalStates imported.node)
    (hvalid : frame.packetId.isValid = true)
    (hresult : (onNodeStateOfImportedNode env runtime imported sourceEndpoint frame).result =
      .ok runtime') :
    ∃ completed noted entry,
      IsRegistered env runtime runtime' imported sourceEndpoint frame completed noted entry := by
  cases hshare : imported.sourceShareId.isValid with
  | false =>
      rw [onNodeStateOfImportedNode, hshare, show assertThat false = .error .assertFailed from rfl,
        pureStep_error_bind] at hresult
      cases hresult
  | true =>
  cases hsource : completeSourceState env imported.node imported.sourceShareId with
  | error reason => simp [onNodeStateOfImportedNode, hshare, hsource, assertThat] at hresult
  | ok outcome =>
  obtain ⟨completed, sourceIndex⟩ := outcome
  cases hentry : completed.fields.linkSyncStates[sourceIndex]? with
  | none => simp [onNodeStateOfImportedNode, hshare, hsource, hentry, assertThat] at hresult
  | some entry =>
  cases hdestination : destinationState completed frame.destinationShareId with
  | error reason =>
      simp [onNodeStateOfImportedNode, hshare, hsource, hentry, hdestination, assertThat]
        at hresult
  | ok found =>
  obtain ⟨index, state⟩ := found
  -- Nothing was noted before, so the packet is noted now.
  have hempty : state.receivedInitialPacketId = .empty := by
    obtain ⟨position, -, hrest⟩ := except_bind_eq_ok_iff.mp hdestination
    obtain ⟨-, -, hrest⟩ := except_bind_eq_ok_iff.mp hrest
    obtain ⟨reached, hreached, hrest⟩ := except_bind_eq_ok_iff.mp hrest
    cases hrest
    obtain ⟨listed, hlisted, hobj⟩ :=
      Option.bind_eq_some_iff.mp (linkSyncStateAt_eq_ok_iff.mp hreached)
    exact received_of_completeSourceState hlocal hsource listed (List.mem_of_getElem? hlisted)
      state hobj
  have hother : state.receivedInitialPacketId ≠ frame.packetId := by
    intro hsame
    rw [← hsame, hempty] at hvalid
    cases hvalid
  have hunnoted : state.receivedInitialPacketId.isValid = false := by
    rw [hempty]
    rfl
  cases hnoted : commitLinkSyncEvent completed index env.eventId
      (.noteInitialSyncReceived frame.packetId) with
  | error reason =>
      simp [onNodeStateOfImportedNode, hshare, hsource, hentry, hdestination, hother, hunnoted,
        hvalid, hnoted, assertThat] at hresult
  | ok noted =>
  have hcall : onNodeStateOfImportedNode env runtime imported sourceEndpoint frame =
      ⟨.saveLinkSyncState completed.objId entry :: .saveNode noted ::
        (bindAndAcknowledge env { runtime with nodes := runtime.nodes ++ [noted] } noted
          sourceEndpoint frame).effects,
        (bindAndAcknowledge env { runtime with nodes := runtime.nodes ++ [noted] } noted
          sourceEndpoint frame).result⟩ := by
    simp [onNodeStateOfImportedNode, hshare, hsource, hentry, hdestination, hother, hunnoted,
      hvalid, hnoted, assertThat]
  obtain ⟨bound, hbound, hnodes⟩ := bindAndAcknowledge_returns env
    { runtime with nodes := runtime.nodes ++ [noted] } noted sourceEndpoint frame
  rw [hcall] at hresult
  cases hresult.symm.trans hbound
  exact ⟨completed, noted, entry, ⟨sourceIndex, hsource⟩, List.mem_of_getElem? hentry,
    ⟨index, state, hdestination, hnoted⟩, by rw [hcall], hnodes⟩

/-- Effects that save no Node. -/
def Effect.SavesNothing : Effect α ε → Prop
  | .saveNode _ => False
  | .saveLinkSyncState _ _ => False
  | _ => True

theorem nodes_of_savesNothing {effects : List (Effect α ε)} {storage : ReplicaStorage α ε}
    (h : ∀ effect ∈ effects, effect.SavesNothing) :
    (effects.foldl ReplicaStorage.perform storage).nodes = storage.nodes := by
  induction effects generalizing storage with
  | nil => rfl
  | cons effect rest ih =>
      rw [List.forall_mem_cons] at h
      rw [List.foldl_cons, ih h.2]
      cases effect with
      | saveNode node => exact h.1.elim
      | saveLinkSyncState nodeId entry => exact h.1.elim
      | _ => rfl

theorem importEffects_saveNothing {validated : ValidatedSnapshot} {imported : ImportedNode α ε} :
    ∀ effect ∈ importEffects aether validated imported,
      effect.SavesNothing ∧ ∀ destination bytes, effect ≠ .send destination bytes := by
  intro effect hmem
  rcases List.mem_cons.mp hmem with rfl | hstored
  · exact ⟨trivial, by simp⟩
  · obtain ⟨object, -, rfl⟩ := List.mem_map.mp hstored
    exact ⟨trivial, by simp⟩

theorem bindAndAcknowledge_saveNothing {node : SharedNode α ε} :
    ∀ effect ∈ (bindAndAcknowledge env runtime node sourceEndpoint frame).effects,
      effect.SavesNothing := by
  intro effect hmem
  rcases answers_of_bindAndAcknowledge hmem with ⟨bound, rfl⟩ | rfl
  · trivial
  · trivial

/-- The Node that a snapshot registers is true, and everything it carries is held. -/
theorem noted_isTrue {imported : ImportedNode α ε} {completed noted : SharedNode α ε}
    {entry : Ref LinkSyncState} {after : ReplicaView} {bytes : Bytes}
    (hregistered : IsRegistered env runtime runtime' imported sourceEndpoint frame completed
      noted entry)
    (hlocal : HasLocalStates imported.node) (hid : imported.node.objId = frame.targetNodeId)
    (hidentities : sharedIdentities imported.node.journal =
      payloadIdentities aether frame.payload frame.targetNodeId)
    (hdecode : decodeNodeStateFrame bytes = some frame)
    (hsent : peer.sent ⟨frame.targetNodeId, frame.destinationShareId, frame.packetId⟩ bytes)
    (hcarries : (payloadIdentities aether frame.payload frame.targetNodeId).Nodup ∧
      ∀ identity ∈ payloadIdentities aether frame.payload frame.targetNodeId,
        identity.originUid.length < 2 ^ 32 ∧ peer.holds frame.targetNodeId identity)
    (hholds : ∀ identity ∈ payloadIdentities aether frame.payload frame.targetNodeId,
      after.holds frame.targetNodeId identity) :
    NodeIsTrue aether after peer completed ∧ NodeIsTrue aether after peer noted := by
  have himported : NodeIsTrue aether after peer imported.node := by
    refine ⟨?_, ?_, ?_, fun found hfound state hstate => ?_⟩
    · rw [hidentities]
      exact hcarries.1
    · rw [hidentities]
      exact fun identity hidentity => (hcarries.2 identity hidentity).1
    · rw [hidentities, hid]
      exact fun identity hidentity _ =>
        ⟨hholds identity hidentity, (hcarries.2 identity hidentity).2⟩
    · obtain ⟨untouched, hobj, huntouched⟩ := hlocal found hfound
      cases hobj.symm.trans hstate
      rw [huntouched]
      exact stateIsTrue_fresh _ _ _
  obtain ⟨sourceIndex, hsource⟩ := hregistered.source
  have hcompletedId : completed.objId = frame.targetNodeId :=
    (sameShared_of_completeSourceState hsource).objId.trans hid
  have hcompleted : NodeIsTrue aether after peer completed := by
    refine nodeIsTrue_of_commit himported (commit_of_completeSourceState hsource)
      fun state committed _ hcommit hstate =>
        stateIsTrue_of_completeFromReceivedSnapshot hstate hcommit fun identity hidentity => ?_
    rw [hidentities] at hidentity
    rw [hid]
    exact (hcarries.2 identity hidentity).2
  obtain ⟨index, state, hdestination, hnoted⟩ := hregistered.destination
  refine ⟨hcompleted, nodeIsTrue_of_commit hcompleted hnoted
    fun found committed hfound hcommit hstate => ?_⟩
  -- The state that notes the packet belongs to the relationship the frame names.
  have hshare : found.shareId = frame.destinationShareId := by
    obtain ⟨position, hposition, hrest⟩ := except_bind_eq_ok_iff.mp hdestination
    obtain ⟨-, -, hrest⟩ := except_bind_eq_ok_iff.mp hrest
    obtain ⟨reached, hreached, hrest⟩ := except_bind_eq_ok_iff.mp hrest
    cases hrest
    exact shareId_of_findLinkSyncIndex hposition (linkSyncStateAt_eq_ok_iff.mp hfound)
  have hsent' : peer.sent ⟨completed.objId, found.shareId, frame.packetId⟩ bytes := by
    rw [hshare, hcompletedId]
    exact hsent
  refine stateIsTrue_of_noteInitialSyncReceived hstate hcommit hsent'
    (carriedIdentities_of_nodeState hdecode) ?_
  rw [hcompletedId]
  exact hholds

/-- A snapshot was admitted and its Node registered: the objects of the graph are written,
the state of the sender, the Node, and the answer follows. -/
structure SnapshotIsRegistered (aether : Aether α ε) (app : AppClass α ε) (env : StepEnv)
    (replica : Replica α ε) (runtime' : SharedSyncRuntime α ε) (sourceEndpoint : Bytes)
    (frame : NodeStateFrame) (imported : ImportedNode α ε) (completed noted : SharedNode α ε)
    (entry : Ref LinkSyncState) : Prop where
  unknown : findNode replica.runtime.nodes frame.targetNodeId = none
  admitted : (importValidatedNode aether app env replica sourceEndpoint frame).result =
    .ok (some imported)
  localStates : HasLocalStates imported.node
  registered : IsRegistered env replica.runtime runtime' imported sourceEndpoint frame completed
    noted entry
  effects : ∃ validated, (onNodeState aether app env replica sourceEndpoint frame).effects =
    importEffects aether validated imported ++
      .saveLinkSyncState completed.objId entry :: .saveNode noted ::
        (bindAndAcknowledge env { replica.runtime with nodes := replica.runtime.nodes ++ [noted] }
          noted sourceEndpoint frame).effects

/-- What a NodeState frame of an honest peer did: nothing, a known Node was bound for the
packet it had noted, or a new Node was registered. -/
theorem onNodeState_cases {replica : Replica α ε} (hcuts : CutsLocalStates aether bytes)
    (hdecode : decodeNodeStateFrame bytes = some frame)
    (hscratch : ScratchIdsFresh aether env frame.payload)
    (hvalid : frame.packetId.isValid = true)
    (hresult : (onNodeState aether app env replica sourceEndpoint frame).result =
      .ok runtime') :
    ((onNodeState aether app env replica sourceEndpoint frame).effects = [] ∧
        runtime' = replica.runtime) ∨
      (∃ node, findNode replica.runtime.nodes frame.targetNodeId = some node ∧
        IsExactDuplicate replica.runtime node sourceEndpoint frame ∧
        (onNodeState aether app env replica sourceEndpoint frame).effects =
          (bindAndAcknowledge env replica.runtime node sourceEndpoint frame).effects ∧
        runtime'.nodes = replica.runtime.nodes) ∨
      ∃ imported completed noted entry, SnapshotIsRegistered aether app env replica runtime'
        sourceEndpoint frame imported completed noted entry := by
  cases hfound : findNode replica.runtime.nodes frame.targetNodeId with
  | some node =>
      rw [onNodeState_of_known aether app env sourceEndpoint hfound] at hresult ⊢
      rcases onNodeStateOfKnownNode_cases env sourceEndpoint hfound with
        ⟨hduplicate, hbinds⟩ | ⟨-, hnil, hkept⟩
      · rw [hbinds] at hresult ⊢
        obtain ⟨bound, hbound, hnodes⟩ :=
          bindAndAcknowledge_returns env replica.runtime node sourceEndpoint frame
        cases hresult.symm.trans hbound
        exact Or.inr (Or.inl ⟨node, rfl, hduplicate, rfl, hnodes⟩)
      · exact Or.inl ⟨hnil, hkept runtime' hresult⟩
  | none =>
      unfold onNodeState at hresult
      rw [hfound] at hresult
      obtain ⟨outcome, himport, hrest⟩ := EffectLog.bind_result_eq_ok_iff.mp hresult
      cases outcome with
      | none =>
          -- Nothing is written before a frame is refused.
          have hnil : (importValidatedNode aether app env replica sourceEndpoint
              frame).effects = [] := by
            rcases importValidatedNode_cases aether app env replica sourceEndpoint frame
              with ⟨hnil, -⟩ | ⟨validated, -, -, ⟨reason, heq⟩ | ⟨node, -, heq⟩⟩
            · exact hnil
            · rw [heq] at himport
              cases himport
            · rw [heq] at himport
              cases himport
          cases hrest
          refine Or.inl ⟨?_, rfl⟩
          unfold onNodeState
          rw [hfound, EffectLog.bind_of_ok _ himport, hnil]
          rfl
      | some imported =>
          obtain ⟨parsed, validated, root, -, hwrites⟩ := exists_admission aether app himport
          have hlocal := hasLocalStates_of_cuts hcuts hdecode hscratch himport
          obtain ⟨completed, noted, entry, hregistered⟩ := exists_registered hlocal hvalid hrest
          refine Or.inr (Or.inr ⟨imported, completed, noted, entry, hfound, himport, hlocal,
            hregistered, validated, ?_⟩)
          unfold onNodeState
          rw [hfound, EffectLog.bind_of_ok _ himport, hwrites, ← hregistered.effects]

/-- The Node that is noted has the id and the journal of the imported one, and it is
registered and saved when the call returns. -/
theorem SnapshotIsRegistered.noted_spec {replica : Replica α ε} {imported : ImportedNode α ε}
    {completed noted : SharedNode α ε} {entry : Ref LinkSyncState}
    (h : SnapshotIsRegistered aether app env replica runtime' sourceEndpoint frame imported
      completed noted entry) :
    noted.objId = frame.targetNodeId ∧ noted.journal = imported.node.journal ∧
      findNode runtime'.nodes frame.targetNodeId = some noted ∧
      findNode ((onNodeState aether app env replica sourceEndpoint frame).effects.foldl
        ReplicaStorage.perform replica.storage).nodes frame.targetNodeId = some noted := by
  obtain ⟨sourceIndex, hsource⟩ := h.registered.source
  obtain ⟨index, state, -, hnoted⟩ := h.registered.destination
  obtain ⟨validated, heffects⟩ := h.effects
  have hsame := (sameShared_of_completeSourceState hsource).trans
    (sameShared_of_commitLinkSyncEvent hnoted)
  have hid : noted.objId = frame.targetNodeId :=
    hsame.objId.trans (objId_of_importValidatedNode h.admitted)
  have hunknown := h.unknown
  refine ⟨hid, hsame.journal, ?_, ?_⟩
  · rw [findNode] at hunknown ⊢
    rw [h.registered.nodes, List.find?_append, hunknown, Option.none_or, List.find?_singleton,
      if_pos (decide_eq_true hid)]
  · simp only [heffects, List.foldl_append, List.foldl_cons]
    rw [nodes_of_savesNothing bindAndAcknowledge_saveNothing, ← hid]
    exact findNode_saveNodeValue _ noted

/-- A registration saves the state of the sender and the Node, and sends no packet. -/
theorem SnapshotIsRegistered.effects_spec {replica : Replica α ε} {imported : ImportedNode α ε}
    {completed noted : SharedNode α ε} {entry : Ref LinkSyncState}
    (h : SnapshotIsRegistered aether app env replica runtime' sourceEndpoint frame imported
      completed noted entry) :
    (∀ effect ∈ (onNodeState aether app env replica sourceEndpoint frame).effects,
      effect.SavesNothing ∨ effect = .saveLinkSyncState completed.objId entry ∨
        effect = .saveNode noted) ∧
    sentPackets (onNodeState aether app env replica sourceEndpoint frame).effects = [] := by
  obtain ⟨validated, heffects⟩ := h.effects
  rw [heffects]
  refine ⟨fun effect hmem => ?_, sentPackets_eq_nil fun effect hmem => ?_⟩
  · rcases List.mem_append.mp hmem with hfirst | hlater
    · exact Or.inl (importEffects_saveNothing effect hfirst).1
    · rcases List.mem_cons.mp hlater with rfl | hlater
      · exact Or.inr (Or.inl rfl)
      · rcases List.mem_cons.mp hlater with rfl | hlater
        · exact Or.inr (Or.inr rfl)
        · exact Or.inl (bindAndAcknowledge_saveNothing effect hlater)
  · rcases List.mem_append.mp hmem with hfirst | hlater
    · have hnot := (importEffects_saveNothing effect hfirst).2
      cases effect with
      | send destination bytes => exact absurd rfl (hnot destination bytes)
      | _ => trivial
    · rcases List.mem_cons.mp hlater with rfl | hlater
      · trivial
      · rcases List.mem_cons.mp hlater with rfl | hlater
        · trivial
        · exact (bindAndAcknowledge_savesNothing effect hlater).1

/-- A known Node is bound again only for a packet that its state has noted. -/
theorem ack_of_exactDuplicate (h : DeliveryInvariant aether history peer)
    {node : SharedNode α ε} (hvalid : frame.packetId.isValid = true)
    (hfound : findNode history.replica.runtime.nodes frame.targetNodeId = some node)
    (hduplicate : IsExactDuplicate history.replica.runtime node sourceEndpoint frame) :
    AckIsTrue aether history.view peer
      ⟨frame.targetNodeId, frame.destinationShareId, frame.packetId⟩ := by
  obtain ⟨-, -, index, state, hdestination, hreceived⟩ := hduplicate
  have hnode := h.live (List.mem_of_find?_eq_some hfound)
  obtain ⟨position, hposition, hrest⟩ := except_bind_eq_ok_iff.mp hdestination
  obtain ⟨-, -, hrest⟩ := except_bind_eq_ok_iff.mp hrest
  obtain ⟨reached, hreached, hrest⟩ := except_bind_eq_ok_iff.mp hrest
  cases hrest
  obtain ⟨entry, hentry, hobj⟩ :=
    Option.bind_eq_some_iff.mp (linkSyncStateAt_eq_ok_iff.mp hreached)
  have hstate := hnode.states entry (List.mem_of_getElem? hentry) state hobj
  have hshare := shareId_of_findLinkSyncIndex hposition (linkSyncStateAt_eq_ok_iff.mp hreached)
  have hnoted := hstate.received (by rw [hreceived]; exact hvalid)
  rw [hreceived, hshare, objId_of_findNode hfound] at hnoted
  exact hnoted

/-- The effects of a registration save what is true, and acknowledge the snapshot that was
imported. -/
theorem SnapshotIsRegistered.outcome {imported : ImportedNode α ε}
    {completed noted : SharedNode α ε} {entry : Ref LinkSyncState}
    (hregistered : SnapshotIsRegistered aether app env history.replica runtime' sourceEndpoint
      frame imported completed noted entry)
    (h : DeliveryInvariant aether history peer) (hgrows : history.view.Grows next.view)
    (hcompleted : NodeIsTrue aether next.view peer completed)
    (hnoted : NodeIsTrue aether next.view peer noted)
    (hack : AckIsTrue aether next.view peer
      ⟨frame.targetNodeId, frame.destinationShareId, frame.packetId⟩) :
    OutcomeIsTrue aether history next.view peer
      (onNodeState aether app env history.replica sourceEndpoint frame).effects runtime' := by
  obtain ⟨hsaved, hquiet⟩ := hregistered.effects_spec
  refine ⟨fun node hnode => ?_, fun effect hmem => ?_, ?_, fun destination bytes decoded hmem => ?_⟩
  · rw [hregistered.registered.nodes] at hnode
    rcases List.mem_append.mp hnode with hold | hnew
    · exact (h.live hold).mono hgrows (.refl peer)
    · rw [List.mem_singleton.mp hnew]
      exact hnoted
  · rcases hsaved effect hmem with hnothing | rfl | rfl
    · cases effect with
      | saveNode node => exact hnothing.elim
      | saveLinkSyncState nodeId entry => exact hnothing.elim
      | _ => trivial
    · exact hcompleted.states entry hregistered.registered.entry_mem
    · exact hnoted
  · rw [hquiet]
    simp
  · obtain ⟨validated, heffects⟩ := hregistered.effects
    obtain ⟨-, -, hacks⟩ := binding_isTrue env
      { history.replica.runtime with nodes := history.replica.runtime.nodes ++ [noted] }
      sourceEndpoint noted hack
    rw [heffects] at hmem
    rcases List.mem_append.mp hmem with hfirst | hlater
    · exact absurd rfl ((importEffects_saveNothing _ hfirst).2 destination bytes)
    · simp only [List.mem_cons, reduceCtorEq, false_or] at hlater
      exact hacks destination bytes decoded hlater

/-- What a NodeState frame does is true. -/
theorem outcome_onNodeState (h : DeliveryInvariant aether history peer)
    (hgrows : history.view.Grows next.view)
    (hscratch : ScratchIdsFresh aether env frame.payload)
    (hdecode : decodeNodeStateFrame bytes = some frame)
    (htrue : FrameIsTrue aether peer history.view bytes)
    (hresult : (onNodeState aether app env history.replica sourceEndpoint frame).result =
      .ok runtime')
    (hafter : IsAfterCall history next
      (onNodeState aether app env history.replica sourceEndpoint frame).effects runtime') :
    OutcomeIsTrue aether history next.view peer
      (onNodeState aether app env history.replica sourceEndpoint frame).effects runtime' := by
  obtain ⟨hsent, hpacket⟩ := htrue.packet _ (packetKeyOf_of_decodeNodeStateFrame hdecode)
  have hcarried : carriedIdentities aether bytes =
      some (payloadIdentities aether frame.payload frame.targetNodeId) :=
    carriedIdentities_of_nodeState hdecode
  obtain ⟨honce, hcarries⟩ := hpacket.carries _ hcarried
  rcases onNodeState_cases hpacket.cuts hdecode hscratch hpacket.valid hresult with
    ⟨hnil, rfl⟩ | ⟨node, hfound, hduplicate, heffects, hnodes⟩ |
    ⟨imported, completed, noted, entry, hregistered⟩
  · rw [hnil]
    exact outcome_nothing h hgrows rfl
  · -- The state has noted the packet, so its Events are held.
    obtain ⟨hsaves, hquiet, hacks⟩ := binding_isTrue env history.replica.runtime sourceEndpoint
      node ((ack_of_exactDuplicate h hpacket.valid hfound hduplicate).mono hgrows (.refl peer))
    rw [heffects]
    refine ⟨live_of_same h hgrows hnodes, hsaves, ?_, hacks⟩
    rw [hquiet]
    simp
  · obtain ⟨-, hjournal, hlive, hstored⟩ := hregistered.noted_spec
    have hidentities := sharedIdentities_of_import hscratch hregistered.admitted
    rw [← hafter.runtime] at hlive
    rw [← hafter.storage] at hstored
    have hholds : ∀ identity ∈ payloadIdentities aether frame.payload frame.targetNodeId,
        next.view.holds frame.targetNodeId identity := by
      intro identity hidentity
      rw [← hidentities, ← hjournal] at hidentity
      exact holds_of_saved hlive hstored rfl rfl hidentity
    have hcarried' : ∀ identity ∈ payloadIdentities aether frame.payload frame.targetNodeId,
        identity.originUid.length < 2 ^ 32 ∧ peer.holds frame.targetNodeId identity :=
      fun identity hidentity =>
        ⟨(hcarries identity hidentity).1, (hcarries identity hidentity).2.1⟩
    obtain ⟨htrueCompleted, htrueNoted⟩ := noted_isTrue hregistered.registered
      hregistered.localStates (objId_of_importValidatedNode hregistered.admitted) hidentities
      hdecode hsent ⟨honce, hcarried'⟩ hholds
    exact hregistered.outcome h hgrows htrueCompleted htrueNoted
      ⟨bytes, _, hsent, hcarried, hholds⟩

end NodeState

section Steps

/-- What a received frame does is true. -/
theorem outcome_onBytes (h : DeliveryInvariant aether history peer)
    (hgrows : history.view.Grows next.view) (hapart : peer.endpoint ≠ history.view.endpoint)
    (hscratch : ∀ frame, decodeNodeStateFrame bytes = some frame →
      ScratchIdsFresh aether env frame.payload)
    (htrue : FrameIsTrue aether peer history.view bytes)
    (hresult : (onBytes aether app env history.replica sourceEndpoint bytes).result =
      .ok runtime')
    (hafter : IsAfterCall history next
      (onBytes aether app env history.replica sourceEndpoint bytes).effects runtime') :
    OutcomeIsTrue aether history next.view peer
      (onBytes aether app env history.replica sourceEndpoint bytes).effects runtime' := by
  unfold onBytes at hresult hafter ⊢
  split at hresult
  case h_1 =>
    cases hresult
    exact outcome_nothing h hgrows rfl
  case h_2 hpeek =>
    split at hresult
    case h_1 =>
      cases hresult
      exact outcome_nothing h hgrows rfl
    case h_2 frame hdecode =>
      simp only [hpeek, hdecode] at hafter ⊢
      exact outcome_onNodeState h hgrows (hscratch frame hdecode) hdecode htrue hresult hafter
  case h_3 =>
    split at hresult
    case h_1 =>
      cases hresult
      exact outcome_nothing h hgrows rfl
    case h_2 frame hdecode =>
      exact outcome_onAck h hgrows (packetId_of_decodeAckFrame hdecode)
        (htrue.ack frame hdecode) hresult
  case h_4 hpeek =>
    split at hresult
    case h_1 =>
      cases hresult
      exact outcome_nothing h hgrows rfl
    case h_2 frame hdecode =>
      simp only [hpeek, hdecode] at hafter ⊢
      exact outcome_onEvent h hgrows hapart hdecode htrue hresult hafter

/-- Whatever an honest replica does is true. -/
theorem outcome_of_step (hlawful : aether.Lawful) {action : ReplicaAction ε}
    (h : DeliveryInvariant aether history peer) (hgrows : history.view.Grows next.view)
    (hapart : peer.endpoint ≠ history.view.endpoint)
    (hdraws : DrawsNewIds aether history action)
    (hhonest : ActsHonestly aether history peer action)
    (hresult : (action.outcome aether app history.replica).result = .ok runtime')
    (hafter : IsAfterCall history next (action.outcome aether app history.replica).effects
      runtime') :
    OutcomeIsTrue aether history next.view peer
      (action.outcome aether app history.replica).effects runtime' := by
  cases action with
  | receive env sourceEndpoint bytes =>
      exact outcome_onBytes h hgrows hapart hdraws.2.2 hhonest hresult hafter
  | syncInitialState env nodeId shareId =>
      exact outcome_syncInitialState hlawful h hgrows hdraws.1 hresult hafter
  | syncNextEvent env nodeId shareId =>
      exact outcome_syncNextEvent h hgrows hdraws.1 hresult hafter
  | operate ids nowUs nodeId operation =>
      simp only [ReplicaAction.outcome] at hresult ⊢
      split at hresult
      case h_1 => cases hresult
      case h_2 node hfound =>
        cases hrun : operation.run app ids nowUs node with
        | error reason => simp [hrun] at hresult
        | ok changed =>
            simp only [hrun, pureStep_ok_bind, EffectLog.pure_result, EffectLog.pure_effects,
              Except.ok.injEq] at hresult ⊢
            have hchanged := nodeIsTrue_of_run (h.live (List.mem_of_find?_eq_some hfound))
              hhonest.1 hrun h.fits hhonest.2
            refine ⟨?_, by simp, by simp [sentPackets], by simp⟩
            rw [← hresult]
            exact live_of_replaced h hgrows (hchanged.mono hgrows (.refl peer)) rfl
  | saveNode nodeId =>
      simp only [ReplicaAction.outcome] at hresult ⊢
      split at hresult
      case h_1 => cases hresult
      case h_2 node hfound =>
        simp only [perform_bind, EffectLog.pure_result, EffectLog.pure_effects,
          Except.ok.injEq] at hresult ⊢
        have hnode := (h.live (List.mem_of_find?_eq_some hfound)).mono hgrows (.refl peer)
        refine ⟨live_of_same h hgrows (by rw [← hresult]), ?_, by simp [sentPackets], by simp⟩
        simpa [Effect.SavesTrue] using hnode
  | restart =>
      cases hresult
      refine ⟨fun node hnode => ?_, by simp [ReplicaAction.outcome],
        by simp [ReplicaAction.outcome, sentPackets], by simp [ReplicaAction.outcome]⟩
      -- A Node is loaded as it was saved.
      obtain ⟨saved, hsaved, rfl⟩ := List.mem_map.mp hnode
      have htrue := (h.saved hsaved).mono hgrows (.refl peer)
      exact htrue.of_sameJournal rfl rfl htrue.states

/-- An honest step keeps everything that is recorded true, and hands nothing but true
frames to the transport. -/
theorem honest_step (hlawful : aether.Lawful) {action : ReplicaAction ε}
    (h : DeliveryInvariant aether history peer)
    (hapart : peer.endpoint ≠ history.view.endpoint)
    (hdraws : DrawsNewIds aether history action)
    (hhonest : ActsHonestly aether history peer action)
    (hstep : packetStep aether app history action = some next) :
    DeliveryInvariant aether next peer ∧ history.view.Grows next.view ∧
      ∀ destination bytes,
        .send destination bytes ∈ (action.outcome aether app history.replica).effects →
        FrameIsTrue aether next.view peer bytes := by
  have hgrows := grows_of_step hhonest hstep
  obtain ⟨runtime', hresult, hnext⟩ := packetStep_eq_some_iff.mp hstep
  have hafter : IsAfterCall history next (action.outcome aether app history.replica).effects
      runtime' := by
    rw [hnext]
    exact ⟨rfl, rfl⟩
  have hsent : next.sent =
      history.sent ++ sentPackets (action.outcome aether app history.replica).effects := by
    rw [hnext]
    rfl
  have htrue := outcome_of_step hlawful h hgrows hapart hdraws hhonest hresult hafter
  have hpackets : ∀ packet ∈ next.sent,
      PacketIsTrue aether next.view peer packet.1 packet.2 := by
    intro packet hpacket
    rw [hsent] at hpacket
    rcases List.mem_append.mp hpacket with hold | hnew
    · exact (h.packets packet hold).mono hgrows (.refl peer)
    · rcases htrue.packets packet hnew with hold | hnow
      · exact (h.packets packet hold).mono hgrows (.refl peer)
      · exact hnow
  refine ⟨⟨?_, ?_, hpackets, ?_⟩, hgrows, fun destination bytes heffect => ⟨?_, ?_⟩⟩
  · obtain ⟨box, hledger, hfrozen⟩ := h.ledger
    obtain ⟨box', sending, hbox, hledger', hsends⟩ :=
      ledger_step hledger hdraws (bringsNoStates_of_honest hhonest) hstep
    refine ⟨box', hledger', ?_⟩
    rw [hsent, hsends.sent]
    exact frozen_of_step hbox hfrozen
  · intro node hnode
    rcases List.mem_append.mp hnode with hlive | hsaved
    · rw [hafter.runtime] at hlive
      exact htrue.live node hlive
    · rw [hafter.storage] at hsaved
      exact nodesAreTrue_of_perform
        (fun saved hmem => (h.saved hmem).mono hgrows (.refl peer)) htrue.saves node hsaved
  · rw [hgrows.endpoint]
    exact h.fits
  · intro key hkey
    have hnew : (key, bytes) ∈
        sentPackets (action.outcome aether app history.replica).effects :=
      List.mem_filterMap.mpr ⟨.send destination bytes, heffect, by simp [hkey]⟩
    have hmem : (key, bytes) ∈ next.sent := by
      rw [hsent]
      exact List.mem_append_right _ hnew
    exact ⟨hmem, hpackets (key, bytes) hmem⟩
  · exact fun frame hdecode => htrue.acks destination bytes frame heffect hdecode

end Steps

end AppTraverse
