import AppTraverse.Delivery.PacketLedger

/-!
# The outbox of a replica

A history is a replica together with the packets it has sent, the packets whose
completion it has recorded, and the ids its Events have drawn.  The packets in the
registered Nodes and in the saved ones form an outbox (`LedgerInvariant`), and each
kind of operation is a step of it: most are quiet, a retry resends, a Begin Event
freezes, and an awaited Ack completes.
-/

namespace AppTraverse

open Foundations

/-- A replica and what it has done so far. -/
structure PacketHistory (α ε : Type) where
  replica : Replica α ε
  sent : List (PacketKey × Bytes) := []
  completed : List PacketKey := []
  drawn : List ObjId := []

section History

variable {α ε : Type} (aether : Aether α ε) (app : AppClass α ε)

/-- The packet whose completion an action records: an Ack that led to a save. -/
def completedBy (replica : Replica α ε) (action : ReplicaAction ε) : List PacketKey :=
  match action with
  | .receive _ _ bytes =>
      match decodeAckFrame bytes with
      | none => []
      | some frame =>
          if (action.outcome aether app replica).effects.isEmpty then
            []
          else
            [⟨frame.targetNodeId, frame.destinationShareId, frame.packetId⟩]
  | _ => []

/-- The id that an action draws for an Event on a sync state. -/
def ReplicaAction.drawn : ReplicaAction ε → List ObjId
  | .receive env _ _ => [env.eventId]
  | .syncInitialState env _ _ => [env.eventId]
  | .syncNextEvent env _ _ => [env.eventId]
  | _ => []

/-- One step of a history. -/
def packetStep (history : PacketHistory α ε) (action : ReplicaAction ε) :
    Option (PacketHistory α ε) :=
  (replicaStep aether app history.replica action).map fun next =>
    { replica := next
      sent := history.sent ++
        sentPackets (action.outcome aether app history.replica).effects
      completed := history.completed ++ completedBy aether app history.replica action
      drawn := history.drawn ++ action.drawn }

/-- The root that a frame carries lists no sync state: every pointer is cut. -/
def CutsLocalStates (bytes : Bytes) : Prop :=
  ∀ frame parsed object shared states, decodeNodeStateFrame bytes = some frame →
    deserializeObjectGraph aether frame.payload = some parsed →
    parsed.find aether frame.targetNodeId = some object →
    object.body = .sharedNode shared states → ∀ id ∈ states, id.isValid = false

/-- The ids that an action draws are valid and new. -/
def DrawsNewIds (history : PacketHistory α ε) : ReplicaAction ε → Prop
  | .receive env _ bytes => env.eventId.isValid = true ∧ env.eventId ∉ history.drawn ∧
      ∀ frame, decodeNodeStateFrame bytes = some frame →
        ScratchIdsFresh aether env frame.payload
  | .syncInitialState env _ _ => env.eventId.isValid = true ∧ env.eventId ∉ history.drawn
  | .syncNextEvent env _ _ => env.eventId.isValid = true ∧ env.eventId ∉ history.drawn
  | _ => True

/-- A received frame brings no sync states. -/
def BringsNoStates : ReplicaAction ε → Prop
  | .receive _ _ bytes => CutsLocalStates aether bytes
  | _ => True

/-- What a step keeps of the packets: whatever it sends is saved by then, bytes sent
under one key are equal, and a packet whose completion was recorded is not sent. -/
structure RetryIsExact (history : PacketHistory α ε) (action : ReplicaAction ε) : Prop where
  durable : ∀ next, packetStep aether app history action = some next →
    ∀ before destination bytes after key,
      (action.outcome aether app history.replica).effects =
        before ++ .send destination bytes :: after →
      packetKeyOf bytes = some key →
      (key, bytes) ∈ packetsOf (before.foldl ReplicaStorage.perform
        history.replica.storage).nodes
  exact : ∀ next, packetStep aether app history action = some next →
    ∀ key bytes bytes', (key, bytes) ∈ next.sent → (key, bytes') ∈ next.sent →
      bytes = bytes'
  final : ∀ next, packetStep aether app history action = some next →
    ∀ packet ∈ sentPackets (action.outcome aether app history.replica).effects,
      packet.1 ∉ history.completed

end History

variable {α ε : Type} {aether : Aether α ε} {app : AppClass α ε}

/-- Distinct Nodes with well-formed sync states that hold distinct packets. -/
structure NodesAreKept (nodes : List (SharedNode α ε)) : Prop where
  distinct : (nodes.map fun node => node.objId).Nodup
  states : StatesAreWellFormed nodes
  packets : ∀ node ∈ nodes, ((nodePackets node).map Prod.fst).Nodup

section Kept

variable {nodes : List (SharedNode α ε)} {node node' : SharedNode α ε}

/-- A Node whose sync states are well formed and hold distinct packets. -/
structure NodeIsKept (node : SharedNode α ε) : Prop where
  states : ∀ entry ∈ node.fields.linkSyncStates, ∃ state, entry.obj = some state ∧
    state.WellFormed
  packets : ((nodePackets node).map Prod.fst).Nodup

theorem NodesAreKept.kept (h : NodesAreKept nodes) (hmem : node ∈ nodes) : NodeIsKept node :=
  ⟨h.states node hmem, h.packets node hmem⟩

theorem nodesAreKept_of_forall (hdistinct : (nodes.map fun node => node.objId).Nodup)
    (h : ∀ node ∈ nodes, NodeIsKept node) : NodesAreKept nodes :=
  ⟨hdistinct, fun node hmem => (h node hmem).states, fun node hmem => (h node hmem).packets⟩

theorem map_objId_replaceNode (nodes : List (SharedNode α ε)) (node : SharedNode α ε) :
    ((replaceNode nodes node).map fun other => other.objId) =
      nodes.map fun other => other.objId := by
  rw [replaceNode, List.map_map]
  refine List.map_congr_left fun other hother => ?_
  show (if other.objId = node.objId then node else other).objId = other.objId
  split
  case isTrue hsame => exact hsame.symm
  case isFalse => rfl

theorem NodesAreKept.replaceNode (h : NodesAreKept nodes) (hnode : NodeIsKept node) :
    NodesAreKept (replaceNode nodes node) := by
  refine nodesAreKept_of_forall ?_ fun other hother => ?_
  · rw [map_objId_replaceNode]
    exact h.distinct
  · obtain ⟨before, hbefore, rfl⟩ := List.mem_map.mp hother
    split
    case isTrue => exact hnode
    case isFalse => exact h.kept hbefore

theorem NodesAreKept.append (h : NodesAreKept nodes) (hnode : NodeIsKept node)
    (hnew : ∀ other ∈ nodes, other.objId ≠ node.objId) : NodesAreKept (nodes ++ [node]) := by
  refine nodesAreKept_of_forall ?_ fun other hother => ?_
  · rw [List.map_append, List.map_singleton]
    refine List.nodup_append.mpr ⟨h.distinct, by simp, ?_⟩
    intro id hid other hother
    obtain ⟨before, hbefore, rfl⟩ := List.mem_map.mp hid
    rw [List.mem_singleton.mp hother]
    exact hnew before hbefore
  · rcases List.mem_append.mp hother with hold | hadded
    · exact h.kept hold
    · rw [List.mem_singleton.mp hadded]
      exact hnode

theorem NodesAreKept.saveNodeValue (h : NodesAreKept nodes) (hnode : NodeIsKept node) :
    NodesAreKept (saveNodeValue nodes node) := by
  unfold AppTraverse.saveNodeValue
  split
  case isTrue => exact h.replaceNode hnode
  case isFalse hnew =>
    refine h.append hnode fun other hother hid => ?_
    exact hnew (List.any_eq_true.mpr ⟨other, hother, decide_eq_true hid⟩)

/-- Dropped and new sync states keep a Node kept. -/
theorem NodeIsKept.of_statesFrom (h : NodeIsKept node) (hid : node'.objId = node.objId)
    (hstates : StatesFrom node.fields.linkSyncStates node'.fields.linkSyncStates) :
    NodeIsKept node' := by
  refine ⟨fun entry hentry => ?_, ?_⟩
  · rcases hstates.mem hentry with hmem | ⟨shareId, link, hobj⟩
    · exact h.states entry hmem
    · exact ⟨_, hobj, (LinkSyncState.isIdle_fresh shareId link).wellFormed⟩
  · exact h.packets.sublist ((nodePackets_sublist_of_statesFrom hid hstates).map _)

/-- A Node without packets is kept. -/
theorem nodeIsKept_of_isIdle (h : ∀ entry ∈ node.fields.linkSyncStates, ∃ state,
    entry.obj = some state ∧ state.IsIdle) : NodeIsKept node ∧ nodePackets node = [] := by
  have hnone : nodePackets node = [] := by
    rw [nodePackets, List.flatMap_eq_nil_iff]
    intro entry hentry
    obtain ⟨state, hobj, hidle⟩ := h entry hentry
    rw [entryPackets, hobj]
    exact hidle.pendingPackets
  refine ⟨⟨fun entry hentry => ?_, by simp [hnone]⟩, hnone⟩
  obtain ⟨state, hobj, hidle⟩ := h entry hentry
  exact ⟨state, hobj, hidle.wellFormed⟩

/-- Nodes of one id are one Node. -/
theorem NodesAreKept.eq_of_objId (h : NodesAreKept nodes) (hnode : node ∈ nodes)
    (hnode' : node' ∈ nodes) (hid : node.objId = node'.objId) : node = node' :=
  List.inj_on_of_nodup_map h.distinct hnode hnode' hid

end Kept

section Admission

variable {env : StepEnv} {replica : Replica α ε} {sourceEndpoint bytes : Bytes}
  {frame : NodeStateFrame} {imported : ImportedNode α ε}

/-- A payload that cuts its sync states yields a Node whose states were all created
here. -/
theorem hasLocalStates_of_cuts (hcuts : CutsLocalStates aether bytes)
    (hdecode : decodeNodeStateFrame bytes = some frame)
    (hfresh : ScratchIdsFresh aether env frame.payload)
    (himport : (importValidatedNode aether app env replica sourceEndpoint frame).result =
      .ok (some imported)) : HasLocalStates imported.node := by
  obtain ⟨parsed, validated, root, hadmission, -⟩ := exists_admission aether app himport
  obtain ⟨candidate, replayed, share, hscratch⟩ :=
    exists_scratchValidation aether app hadmission.scratch
  obtain ⟨object, shared, states, hbody, hfrom, -⟩ := exists_loadedFrom aether hscratch.load
  obtain ⟨object', shared', states', hbody', hfrom', hstates'⟩ :=
    exists_loadedFrom aether hadmission.load
  -- Production loads the root from the object of the payload.
  cases (hadmission.find_extends aether app hfresh _ _ hfrom.found).symm.trans hfrom'.found
  have hcut := hcuts frame parsed object shared' states' hdecode hadmission.parsed_eq
    hfrom.found hbody'
  have hnone : ∀ entry ∈ root.fields.linkSyncStates, entry.isValid = false := by
    intro entry hentry
    obtain ⟨id, hid, hload⟩ := forall₂_exists_of_mem_right hstates' hentry
    have hinvalid := hcut id hid
    simp only [loadLinkSyncState, hinvalid, Bool.not_false, if_true, Except.ok.injEq]
      at hload
    rw [← hload]
    exact hinvalid
  obtain ⟨snapshot, applied, hbase, hrun, hcomplete, hnode⟩ :=
    replayFromBase_keeps hadmission.replay
  have hloaded : ((app.nodeClass env.ids).loadBase root.fields snapshot).linkSyncStates =
      [] := by
    show root.fields.linkSyncStates.filter Ref.isValid = []
    rw [List.filter_eq_nil_iff]
    intro entry hentry
    rw [hnone entry hentry]
    exact Bool.false_ne_true
  intro entry hentry
  rw [hnode] at hentry
  have hfromReplay := statesFrom_of_applyRecords hrun
  rw [hloaded] at hfromReplay
  rcases hfromReplay.mem hentry with hmem | ⟨shareId, link, hobj⟩
  · cases hmem
  · exact ⟨_, hobj, rfl⟩

/-- An effect that saves nothing but packet-free sync states of one Node. -/
def Effect.SavesIdle (nodeId : ObjId) : Effect α ε → Prop
  | .saveNode node => node.objId = nodeId ∧ ∀ entry ∈ node.fields.linkSyncStates,
      ∃ state, entry.obj = some state ∧ state.IsIdle
  | .saveLinkSyncState savedId entry => savedId = nodeId ∧
      ∃ state, entry.obj = some state ∧ state.IsIdle
  | _ => True

/-- The effect sends no packet. -/
def Effect.SendsNoPacket : Effect α ε → Prop
  | .send _ bytes => packetKeyOf bytes = none
  | _ => True

theorem sendAck_sendsNoPacket (destination : Bytes) (frame : AckFrame) :
    (Effect.send destination (encodeAckFrame frame) : Effect α ε).SendsNoPacket :=
  packetKeyOf_encodeAckFrame frame

/-- Binding and acknowledging asks the callback and sends an Ack, at most. -/
theorem mem_bindAndAcknowledge_effects {runtime : SharedSyncRuntime α ε}
    {node : SharedNode α ε} {effect : Effect α ε}
    (hmem : effect ∈ (bindAndAcknowledge env runtime node sourceEndpoint frame).effects) :
    (∃ bound, effect = .bindNode sourceEndpoint node bound) ∨
      ∃ ack, effect = .send sourceEndpoint (encodeAckFrame ack) := by
  have hensures : (bindAndAcknowledge env runtime node sourceEndpoint frame).Ensures
      (fun effect => (∃ bound, effect = .bindNode sourceEndpoint node bound) ∨
        ∃ ack, effect = .send sourceEndpoint (encodeAckFrame ack)) fun _ => True := by
    unfold bindAndAcknowledge
    split
    case h_1 =>
      exact .bind (EffectLog.ensures_emit (Or.inr ⟨_, rfl⟩)) fun _ _ =>
        EffectLog.ensures_pure trivial
    case h_2 expectation hexpectation =>
      split
      case isTrue => exact EffectLog.ensures_pure trivial
      case isFalse =>
        refine .bind (EffectLog.ensures_emit (Or.inl ⟨_, rfl⟩)) fun _ _ => ?_
        split
        case isTrue => exact EffectLog.ensures_pure trivial
        case isFalse =>
          exact .bind (EffectLog.ensures_emit (Or.inr ⟨_, rfl⟩)) fun _ _ =>
            EffectLog.ensures_pure trivial
  exact hensures.effects effect hmem

/-- Binding and acknowledging saves nothing and sends no packet. -/
theorem bindAndAcknowledge_effects {runtime : SharedSyncRuntime α ε}
    {node : SharedNode α ε} (nodeId : ObjId) :
    ∀ effect ∈ (bindAndAcknowledge env runtime node sourceEndpoint frame).effects,
      effect.SavesIdle nodeId ∧ effect.SendsNoPacket := by
  intro effect hmem
  rcases mem_bindAndAcknowledge_effects hmem with ⟨bound, rfl⟩ | ⟨ack, rfl⟩
  · exact ⟨trivial, trivial⟩
  · exact ⟨trivial, sendAck_sendsNoPacket _ _⟩

theorem bindAndAcknowledge_savesNothing {runtime : SharedSyncRuntime α ε}
    {node : SharedNode α ε} :
    ∀ effect ∈ (bindAndAcknowledge env runtime node sourceEndpoint frame).effects,
      effect.SendsNoPacket ∧
        ∀ storage : ReplicaStorage α ε, (storage.perform effect).nodes = storage.nodes := by
  intro effect hmem
  rcases mem_bindAndAcknowledge_effects hmem with ⟨bound, rfl⟩ | ⟨ack, rfl⟩
  · exact ⟨trivial, fun _ => rfl⟩
  · exact ⟨sendAck_sendsNoPacket _ _, fun _ => rfl⟩

/-- Registering an imported Node without packets saves no packet and sends none. -/
theorem onNodeStateOfImportedNode_effects {runtime : SharedSyncRuntime α ε}
    (hlocal : HasLocalStates imported.node) :
    ∀ effect ∈ (onNodeStateOfImportedNode env runtime imported sourceEndpoint frame).effects,
      effect.SavesIdle imported.node.objId ∧ effect.SendsNoPacket := by
  suffices hensures :
      (onNodeStateOfImportedNode env runtime imported sourceEndpoint frame).Ensures
        (fun effect => effect.SavesIdle imported.node.objId ∧ effect.SendsNoPacket)
        fun _ => True from hensures.effects
  have hbind : ∀ (runtime : SharedSyncRuntime α ε) (node : SharedNode α ε),
      (bindAndAcknowledge env runtime node sourceEndpoint frame).Ensures
        (fun effect => effect.SavesIdle imported.node.objId ∧ effect.SendsNoPacket)
        fun _ => True := fun _ _ => ⟨bindAndAcknowledge_effects _, fun _ _ => trivial⟩
  unfold onNodeStateOfImportedNode
  refine .bind EffectLog.ensures_lift fun _ _ => .bind EffectLog.ensures_lift ?_
  rintro ⟨completed, sourceIndex⟩ hcompleted
  have hidle := isIdle_of_completeSourceState hlocal hcompleted
  have hid : completed.objId = imported.node.objId :=
    (sameShared_of_completeSourceState hcompleted).objId
  cases hentry : completed.fields.linkSyncStates[sourceIndex]? with
  | none =>
      simp only [hentry]
      exact EffectLog.ensures_fault _
  | some sourceState =>
      obtain ⟨state, hobj, hstate⟩ := hidle sourceState (List.mem_of_getElem? hentry)
      simp only [hentry]
      refine .bind (EffectLog.ensures_emit ⟨⟨hid, state, hobj, hstate⟩, trivial⟩) fun _ _ =>
        .bind EffectLog.ensures_lift ?_
      rintro ⟨index, destination⟩ -
      split
      case isFalse => exact hbind _ _
      case isTrue =>
        split
        case isTrue => exact EffectLog.ensures_pure trivial
        case isFalse =>
          refine .bind EffectLog.ensures_lift fun _ _ => .bind EffectLog.ensures_lift fun noted hnoted => ?_
          have hnotedIdle := isIdle_of_receipt hnoted (Or.inr ⟨_, rfl⟩) hidle
          have hnotedId : noted.objId = imported.node.objId :=
            (sameShared_of_commitLinkSyncEvent hnoted).objId.trans hid
          exact .bind (EffectLog.ensures_emit ⟨⟨hnotedId, hnotedIdle⟩, trivial⟩) fun _ _ => hbind _ _

/-- A NodeState for an unknown Node saves no packet and sends none. -/
theorem onNodeState_effects (app : AppClass α ε) (sourceEndpoint : Bytes)
    (hcuts : CutsLocalStates aether bytes)
    (hfresh : ScratchIdsFresh aether env frame.payload)
    (hdecode : decodeNodeStateFrame bytes = some frame)
    (hunknown : findNode replica.runtime.nodes frame.targetNodeId = none) :
    ∀ effect ∈ (onNodeState aether app env replica sourceEndpoint frame).effects,
      effect.SavesIdle frame.targetNodeId ∧ effect.SendsNoPacket := by
  have hwrites : ∀ effect ∈
      (importValidatedNode aether app env replica sourceEndpoint frame).effects,
      effect.SavesIdle frame.targetNodeId ∧ effect.SendsNoPacket := by
    intro effect hmem
    rcases importValidatedNode_cases aether app env replica sourceEndpoint frame with
      ⟨hnil, -⟩ | ⟨validated, -, -, ⟨reason, heq⟩ | ⟨node, -, heq⟩⟩
    · rw [hnil] at hmem
      cases hmem
    · rw [heq, List.mem_singleton] at hmem
      rw [hmem]
      exact ⟨trivial, trivial⟩
    · rw [heq] at hmem
      rcases List.mem_cons.mp hmem with rfl | hstored
      · exact ⟨trivial, trivial⟩
      · obtain ⟨object, -, rfl⟩ := List.mem_map.mp hstored
        exact ⟨trivial, trivial⟩
  unfold onNodeState
  rw [hunknown]
  cases himport : (importValidatedNode aether app env replica sourceEndpoint frame).result
    with
  | error reason =>
      rw [EffectLog.bind_of_error _ himport]
      exact hwrites
  | ok outcome =>
      rw [EffectLog.bind_of_ok _ himport]
      cases outcome with
      | none => simpa using hwrites
      | some imported =>
          have hregister : ∀ effect ∈ (onNodeStateOfImportedNode env replica.runtime
              imported sourceEndpoint frame).effects,
              effect.SavesIdle imported.node.objId ∧ effect.SendsNoPacket :=
            onNodeStateOfImportedNode_effects
              (hasLocalStates_of_cuts hcuts hdecode hfresh himport)
          rw [objId_of_importValidatedNode himport] at hregister
          intro effect hmem
          rcases List.mem_append.mp hmem with hfirst | hsecond
          · exact hwrites effect hfirst
          · exact hregister effect hsecond

end Admission

section Storage

/-- What effects that save no packet do to the saved Nodes: they lose packets of one
Node at most. -/
structure LosesPacketsOf (nodeId : ObjId) (nodes nodes' : List (SharedNode α ε)) : Prop where
  kept : NodesAreKept nodes'
  subset : packetsOf nodes' ⊆ packetsOf nodes
  others : ∀ packet ∈ packetsOf nodes, packet.1.nodeId ≠ nodeId → packet ∈ packetsOf nodes'

/-- Overwriting sync states by packet-free ones drops packets. -/
theorem losesPackets_of_overwrite {nodes : List (SharedNode α ε)} (h : NodesAreKept nodes)
    (nodeId : ObjId) {entry : Ref LinkSyncState} {state : LinkSyncState}
    (hobj : entry.obj = some state) (hidle : state.IsIdle) :
    LosesPacketsOf nodeId nodes (nodes.map fun node =>
      if node.objId = nodeId then
        { node with
          fields := { node.fields with
            linkSyncStates := node.fields.linkSyncStates.map fun other =>
              if other.id = entry.id then entry else other } }
      else
        node) := by
  have hentry : ∀ other : Ref LinkSyncState,
      (entryPackets nodeId (if other.id = entry.id then entry else other)).Sublist
        (entryPackets nodeId other) := by
    intro other
    split
    case isTrue =>
      rw [entryPackets, hobj]
      simp only [hidle.pendingPackets]
      exact List.nil_sublist _
    case isFalse => exact List.Sublist.refl _
  have hnode : ∀ node : SharedNode α ε, node.objId = nodeId →
      (nodePackets { node with
        fields := { node.fields with
          linkSyncStates := node.fields.linkSyncStates.map fun other =>
            if other.id = entry.id then entry else other } }).Sublist (nodePackets node) := by
    intro node hid
    rw [nodePackets, nodePackets, List.flatMap_map, hid]
    exact List.Sublist.flatMap_right _ fun other _ => hentry other
  refine ⟨nodesAreKept_of_forall ?_ ?_, ?_, ?_⟩
  · rw [List.map_map]
    refine (List.map_congr_left fun node _ => ?_).symm ▸ h.distinct
    show (if node.objId = nodeId then _ else node).objId = node.objId
    split <;> rfl
  · intro node hnode'
    obtain ⟨before, hbefore, rfl⟩ := List.mem_map.mp hnode'
    split
    case isFalse => exact h.kept hbefore
    case isTrue hid =>
      refine ⟨fun other hother => ?_, ?_⟩
      · obtain ⟨original, horiginal, rfl⟩ := List.mem_map.mp hother
        split
        case isTrue => exact ⟨state, hobj, hidle.wellFormed⟩
        case isFalse => exact h.states before hbefore original horiginal
      · exact (h.packets before hbefore).sublist ((hnode before hid).map _)
  · rintro packet ⟨node, hmem, hpacket⟩
    obtain ⟨before, hbefore, rfl⟩ := List.mem_map.mp hmem
    refine ⟨before, hbefore, ?_⟩
    by_cases hid : before.objId = nodeId
    · rw [if_pos hid] at hpacket
      exact (hnode before hid).subset hpacket
    · rw [if_neg hid] at hpacket
      exact hpacket
  · rintro packet ⟨node, hmem, hpacket⟩ hother
    have hid : ¬ node.objId = nodeId := by
      rw [← nodeId_of_mem_nodePackets hpacket]
      exact hother
    exact ⟨node, List.mem_map.mpr ⟨node, hmem, if_neg hid⟩, hpacket⟩

theorem losesPackets_refl {nodes : List (SharedNode α ε)} (h : NodesAreKept nodes)
    (nodeId : ObjId) : LosesPacketsOf nodeId nodes nodes :=
  ⟨h, subset_refl _, fun _ hpacket _ => hpacket⟩

theorem LosesPacketsOf.trans {nodeId : ObjId} {nodes nodes' nodes'' : List (SharedNode α ε)}
    (h : LosesPacketsOf nodeId nodes nodes') (h' : LosesPacketsOf nodeId nodes' nodes'') :
    LosesPacketsOf nodeId nodes nodes'' :=
  ⟨h'.kept, h'.subset.trans h.subset, fun packet hpacket hother =>
    h'.others packet (h.others packet hpacket hother) hother⟩

/-- Performing effects that save no packet loses packets of one Node at most. -/
theorem losesPackets_of_perform {nodeId : ObjId} (effects : List (Effect α ε))
    (storage : ReplicaStorage α ε) (h : NodesAreKept storage.nodes)
    (hidle : ∀ effect ∈ effects, effect.SavesIdle nodeId) :
    LosesPacketsOf nodeId storage.nodes
      (effects.foldl ReplicaStorage.perform storage).nodes := by
  induction effects generalizing storage with
  | nil => exact losesPackets_refl h nodeId
  | cons effect rest ih =>
      have hfirst : LosesPacketsOf nodeId storage.nodes (storage.perform effect).nodes := by
        have heffect := hidle effect List.mem_cons_self
        cases effect with
        | commitObjectGraph graph => exact losesPackets_refl h nodeId
        | storeObject id layers => exact losesPackets_refl h nodeId
        | bindNode endpoint node bound => exact losesPackets_refl h nodeId
        | send destination bytes => exact losesPackets_refl h nodeId
        | saveLinkSyncState savedId entry =>
            obtain ⟨rfl, state, hobj, hstate⟩ := heffect
            exact losesPackets_of_overwrite h savedId hobj hstate
        | saveNode node =>
            obtain ⟨rfl, hnode⟩ := heffect
            obtain ⟨hkept, hnone⟩ := nodeIsKept_of_isIdle hnode
            refine ⟨h.saveNodeValue hkept, fun packet hpacket => ?_,
              fun packet hpacket hother => ?_⟩
            · rcases mem_packetsOf_saveNodeValue.mp hpacket with hnew | ⟨hold, -⟩
              · rw [hnone] at hnew
                cases hnew
              · exact hold
            · exact mem_packetsOf_saveNodeValue.mpr (Or.inr ⟨hpacket, hother⟩)
      exact hfirst.trans (ih _ hfirst.kept fun other hother =>
        hidle other (List.mem_cons_of_mem _ hother))

end Storage

/-- How a history and its outbox agree. -/
structure LedgerInvariant (history : PacketHistory α ε) (box : Outbox PacketKey Bytes) :
    Prop where
  sound : box.Sound
  live : box.live = packetsOf history.replica.runtime.nodes
  durable : box.durable = packetsOf history.replica.storage.nodes
  sent : ∀ packet ∈ history.sent, packet ∈ box.sent
  completed : ∀ key ∈ history.completed, key ∈ box.completed
  named : ∀ packet ∈ box.frozen, packetKeyOf packet.2 = some packet.1 ∧
    packet.1.packetId ∈ history.drawn
  memory : NodesAreKept history.replica.runtime.nodes
  storage : NodesAreKept history.replica.storage.nodes

/-- The packet that a step hands to the transport, and what is saved by then. -/
structure SendsOnly (storage : ReplicaStorage α ε) (effects : List (Effect α ε))
    (durable : Set (PacketKey × Bytes)) (sending : Option (PacketKey × Bytes)) : Prop where
  sent : sentPackets effects = sending.toList
  saved : ∀ before destination bytes after key,
    effects = before ++ .send destination bytes :: after → packetKeyOf bytes = some key →
    packetsOf (before.foldl ReplicaStorage.perform storage).nodes = durable

section Sends

variable {storage : ReplicaStorage α ε} {effects : List (Effect α ε)}
  {durable : Set (PacketKey × Bytes)}

theorem sentPackets_eq_nil (h : ∀ effect ∈ effects, effect.SendsNoPacket) :
    sentPackets effects = [] := by
  rw [sentPackets, List.filterMap_eq_nil_iff]
  intro effect hmem
  have hnone := h effect hmem
  cases effect with
  | send destination bytes =>
      have hkey : packetKeyOf bytes = none := hnone
      simp [hkey]
  | _ => rfl

/-- Effects that send no packet. -/
theorem sendsOnly_none (h : ∀ effect ∈ effects, effect.SendsNoPacket) :
    SendsOnly storage effects durable none := by
  refine ⟨sentPackets_eq_nil h, fun before destination bytes after key heffects hkey => ?_⟩
  have hnone : packetKeyOf bytes = none :=
    h (.send destination bytes) (by rw [heffects]; simp)
  rw [hkey] at hnone
  cases hnone

/-- A packet that is sent at the end, after effects that send none. -/
theorem sendsOnly_some (first : List (Effect α ε)) {destination bytes : Bytes}
    {key : PacketKey} (hkey : packetKeyOf bytes = some key)
    (hfirst : ∀ effect ∈ first, effect.SendsNoPacket)
    (hdurable : packetsOf (first.foldl ReplicaStorage.perform storage).nodes = durable) :
    SendsOnly storage (first ++ [.send destination bytes]) durable (some (key, bytes)) := by
  refine ⟨?_, fun before destination' bytes' after key' heffects hkey' => ?_⟩
  · have hnone := sentPackets_eq_nil hfirst
    rw [sentPackets, List.filterMap_append]
    rw [sentPackets] at hnone
    rw [hnone]
    simp [hkey]
  · -- The packet is not among the first effects, so it is the last one.
    rcases List.eq_nil_or_concat after with rfl | ⟨init, last, rfl⟩
    · obtain ⟨rfl, -⟩ := List.append_inj' heffects rfl
      exact hdurable
    · rw [List.concat_eq_append, ← List.cons_append, ← List.append_assoc] at heffects
      obtain ⟨rfl, -⟩ := List.append_inj' heffects rfl
      have hnone : packetKeyOf bytes' = none :=
        hfirst (.send destination' bytes') (by simp)
      rw [hkey'] at hnone
      cases hnone

end Sends

section Ledger

variable {history : PacketHistory α ε} {box : Outbox PacketKey Bytes}
  {action : ReplicaAction ε} {effects : List (Effect α ε)}
  {runtime' : SharedSyncRuntime α ε}

/-- A step that freezes, sends and completes no packet. -/
structure QuietOutcome (replica : Replica α ε) (effects : List (Effect α ε))
    (runtime' : SharedSyncRuntime α ε) : Prop where
  memory : NodesAreKept runtime'.nodes
  storage : NodesAreKept (effects.foldl ReplicaStorage.perform replica.storage).nodes
  saved : packetsOf runtime'.nodes ⊆
    packetsOf (effects.foldl ReplicaStorage.perform replica.storage).nodes
  kept : packetsOf (effects.foldl ReplicaStorage.perform replica.storage).nodes ⊆
    packetsOf replica.storage.nodes
  silent : ∀ effect ∈ effects, effect.SendsNoPacket

/-- The history after an outcome. -/
def PacketHistory.after (history : PacketHistory α ε) (action : ReplicaAction ε)
    (effects : List (Effect α ε)) (runtime' : SharedSyncRuntime α ε)
    (completed : List PacketKey) : PacketHistory α ε where
  replica := { history.replica.after effects runtime' with
    others := action.others history.replica }
  sent := history.sent ++ sentPackets effects
  completed := history.completed ++ completed
  drawn := history.drawn ++ action.drawn

/-- The live packets of a history are saved. -/
theorem LedgerInvariant.saved (h : LedgerInvariant history box) :
    packetsOf history.replica.runtime.nodes ⊆ packetsOf history.replica.storage.nodes := by
  rw [← h.live, ← h.durable]
  exact h.sound.saved

theorem ledger_quiet (h : LedgerInvariant history box)
    (hquiet : QuietOutcome history.replica effects runtime') :
    ∃ box' sending, Outbox.Step box box' sending ∧
      LedgerInvariant (history.after action effects runtime' []) box' ∧
      SendsOnly history.replica.storage effects box'.durable sending := by
  have hsent := sentPackets_eq_nil hquiet.silent
  have hstep : Outbox.Step box { box with
      live := packetsOf runtime'.nodes
      durable := packetsOf (effects.foldl ReplicaStorage.perform history.replica.storage).nodes }
      none := by
    refine .quiet hquiet.saved ?_ ⟨rfl, rfl, rfl⟩
    rw [h.durable]
    exact hquiet.kept
  refine ⟨_, none, hstep, ⟨h.sound.step hstep, rfl, rfl, ?_, ?_, ?_, hquiet.memory,
    hquiet.storage⟩, sendsOnly_none hquiet.silent⟩
  · intro packet hpacket
    simp only [PacketHistory.after, hsent, List.append_nil] at hpacket
    exact h.sent packet hpacket
  · intro key hkey
    simp only [PacketHistory.after, List.append_nil] at hkey
    exact h.completed key hkey
  · intro packet hpacket
    obtain ⟨hkey, hdrawn⟩ := h.named packet hpacket
    exact ⟨hkey, List.mem_append_left _ hdrawn⟩

/-- Nothing saved, and the same Nodes. -/
theorem quietOutcome_of_same (h : LedgerInvariant history box)
    (hnodes : runtime'.nodes = history.replica.runtime.nodes)
    (heffects : ∀ effect ∈ effects, effect.SendsNoPacket ∧
      ∀ storage : ReplicaStorage α ε, (storage.perform effect).nodes = storage.nodes) :
    QuietOutcome history.replica effects runtime' := by
  have hstorage : ∀ (effects : List (Effect α ε)) (storage : ReplicaStorage α ε),
      (∀ effect ∈ effects, ∀ storage : ReplicaStorage α ε,
        (storage.perform effect).nodes = storage.nodes) →
      (effects.foldl ReplicaStorage.perform storage).nodes = storage.nodes := by
    intro effects
    induction effects with
    | nil => exact fun _ _ => rfl
    | cons effect rest ih =>
        intro storage hsame
        rw [List.foldl_cons, ih _ fun other hother => hsame other
          (List.mem_cons_of_mem _ hother)]
        exact hsame effect List.mem_cons_self storage
  have hsame := hstorage effects history.replica.storage fun effect hmem =>
    (heffects effect hmem).2
  refine ⟨?_, ?_, ?_, ?_, fun effect hmem => (heffects effect hmem).1⟩
  · rw [hnodes]
    exact h.memory
  · rw [hsame]
    exact h.storage
  · rw [hnodes, hsame]
    exact h.saved
  · rw [hsame]

/-- A Node took a new value without new packets. -/
theorem quietOutcome_of_replaced (h : LedgerInvariant history box)
    {node node' : SharedNode α ε}
    (hfound : node ∈ history.replica.runtime.nodes) (hid : node'.objId = node.objId)
    (hstates : StatesFrom node.fields.linkSyncStates node'.fields.linkSyncStates)
    (hnodes : runtime'.nodes = replaceNode history.replica.runtime.nodes node') :
    packetsOf runtime'.nodes ⊆ packetsOf history.replica.runtime.nodes ∧
      NodeIsKept node' ∧ NodesAreKept runtime'.nodes ∧
      nodePackets node' ⊆ nodePackets node := by
  have hkept := (h.memory.kept hfound).of_statesFrom hid hstates
  have hsub := (nodePackets_sublist_of_statesFrom hid hstates).subset
  refine ⟨fun packet hpacket => ?_, hkept, ?_, hsub⟩
  · rw [hnodes] at hpacket
    rcases mem_packetsOf_replaceNode hpacket with hnew | ⟨hold, -⟩
    · exact ⟨node, hfound, hsub hnew⟩
    · exact hold
  · rw [hnodes]
    exact h.memory.replaceNode hkept

/-- Packets of the registered Nodes are saved after their Node was replaced and
saved. -/
theorem saved_of_replaced_and_saved (h : LedgerInvariant history box)
    {node' : SharedNode α ε} :
    packetsOf (replaceNode history.replica.runtime.nodes node') ⊆
      packetsOf (saveNodeValue history.replica.storage.nodes node') := by
  intro packet hpacket
  rw [mem_packetsOf_saveNodeValue]
  rcases mem_packetsOf_replaceNode hpacket with hnew | ⟨hold, hother⟩
  · exact Or.inl hnew
  · exact Or.inr ⟨h.saved hold, hother⟩

/-- A Node that is replaced and saved, without new packets. -/
theorem quietOutcome_of_replaced_and_saved (h : LedgerInvariant history box)
    {node node' : SharedNode α ε} (hfound : node ∈ history.replica.runtime.nodes)
    (hid : node'.objId = node.objId)
    (hstates : StatesFrom node.fields.linkSyncStates node'.fields.linkSyncStates)
    (hnodes : runtime'.nodes = replaceNode history.replica.runtime.nodes node')
    (hstorage : (effects.foldl ReplicaStorage.perform history.replica.storage).nodes =
      saveNodeValue history.replica.storage.nodes node')
    (hsilent : ∀ effect ∈ effects, effect.SendsNoPacket) :
    QuietOutcome history.replica effects runtime' := by
  obtain ⟨-, hkept, hmemory, hsub⟩ := quietOutcome_of_replaced h hfound hid hstates hnodes
  refine ⟨hmemory, ?_, ?_, ?_, hsilent⟩
  · rw [hstorage]
    exact h.storage.saveNodeValue hkept
  · rw [hnodes, hstorage]
    exact saved_of_replaced_and_saved h
  · rw [hstorage]
    intro packet hpacket
    rcases mem_packetsOf_saveNodeValue.mp hpacket with hnew | ⟨hold, -⟩
    · exact h.saved ⟨node, hfound, hsub hnew⟩
    · exact hold

/-- A local operation saves nothing. -/
theorem quietOutcome_of_operated (h : LedgerInvariant history box)
    {node node' : SharedNode α ε} (hfound : node ∈ history.replica.runtime.nodes)
    (hid : node'.objId = node.objId)
    (hstates : StatesFrom node.fields.linkSyncStates node'.fields.linkSyncStates)
    (hnodes : runtime'.nodes = replaceNode history.replica.runtime.nodes node') :
    QuietOutcome history.replica [] runtime' := by
  obtain ⟨hless, -, hmemory, -⟩ := quietOutcome_of_replaced h hfound hid hstates hnodes
  exact ⟨hmemory, h.storage, hless.trans h.saved, subset_refl _, by simp⟩

/-- Saving a registered Node. -/
theorem quietOutcome_of_saved (h : LedgerInvariant history box) {node : SharedNode α ε}
    (hfound : node ∈ history.replica.runtime.nodes) :
    QuietOutcome history.replica [.saveNode node] history.replica.runtime := by
  refine ⟨h.memory, h.storage.saveNodeValue (h.memory.kept hfound), ?_, ?_,
    by simp [Effect.SendsNoPacket]⟩
  · intro packet hpacket
    refine mem_packetsOf_saveNodeValue.mpr ?_
    by_cases hid : packet.1.nodeId = node.objId
    case neg => exact Or.inr ⟨h.saved hpacket, hid⟩
    obtain ⟨other, hother, hin⟩ := hpacket
    rw [nodeId_of_mem_nodePackets hin] at hid
    rw [← h.memory.eq_of_objId hother hfound hid]
    exact Or.inl hin
  · intro packet hpacket
    rcases mem_packetsOf_saveNodeValue.mp hpacket with hnew | ⟨hold, -⟩
    · exact h.saved ⟨node, hfound, hnew⟩
    · exact hold

/-- After a restart the live packets are the saved ones. -/
theorem quietOutcome_of_restarted (h : LedgerInvariant history box) :
    QuietOutcome history.replica [] (restartedRuntime history.replica) := by
  have hsame : packetsOf (restartedRuntime history.replica).nodes =
      packetsOf history.replica.storage.nodes := by
    ext packet
    constructor
    · rintro ⟨node, hnode, hpacket⟩
      obtain ⟨saved, hsaved, rfl⟩ := List.mem_map.mp hnode
      exact ⟨saved, hsaved, hpacket⟩
    · rintro ⟨saved, hsaved, hpacket⟩
      exact ⟨reloadedNode saved, List.mem_map.mpr ⟨saved, hsaved, rfl⟩, hpacket⟩
  refine ⟨nodesAreKept_of_forall ?_ ?_, h.storage, ?_, subset_refl _, by simp⟩
  · show ((history.replica.storage.nodes.map reloadedNode).map fun node => node.objId).Nodup
    rw [List.map_map]
    exact h.storage.distinct
  · intro node hnode
    obtain ⟨saved, hsaved, rfl⟩ := List.mem_map.mp hnode
    exact ⟨h.storage.states saved hsaved, h.storage.packets saved hsaved⟩
  · rw [hsame]
    exact subset_refl _

/-- An admission registers a Node without packets, and saves nothing of the others. -/
theorem quietOutcome_of_admitted (h : LedgerInvariant history box) {nodeId : ObjId}
    (hunknown : findNode history.replica.runtime.nodes nodeId = none)
    (heffects : ∀ effect ∈ effects, effect.SavesIdle nodeId ∧ effect.SendsNoPacket)
    (hnodes : runtime'.nodes = history.replica.runtime.nodes ∨
      ∃ registered : SharedNode α ε, registered.objId = nodeId ∧
        (∀ entry ∈ registered.fields.linkSyncStates, ∃ state, entry.obj = some state ∧
          state.IsIdle) ∧
        runtime'.nodes = history.replica.runtime.nodes ++ [registered]) :
    QuietOutcome history.replica effects runtime' := by
  have hloses := losesPackets_of_perform effects history.replica.storage h.storage
    fun effect hmem => (heffects effect hmem).1
  have hother : ∀ node ∈ history.replica.runtime.nodes, node.objId ≠ nodeId := by
    intro node hnode hid
    have hnot := List.find?_eq_none.mp hunknown node hnode
    exact hnot (decide_eq_true hid)
  have hlive : packetsOf history.replica.runtime.nodes ⊆
      packetsOf (effects.foldl ReplicaStorage.perform history.replica.storage).nodes := by
    intro packet hpacket
    refine hloses.others packet (h.saved hpacket) ?_
    obtain ⟨node, hnode, hin⟩ := hpacket
    rw [nodeId_of_mem_nodePackets hin]
    exact hother node hnode
  have hsilent : ∀ effect ∈ effects, effect.SendsNoPacket :=
    fun effect hmem => (heffects effect hmem).2
  rcases hnodes with hsame | ⟨registered, hid, hidle, hadded⟩
  · refine ⟨?_, hloses.kept, ?_, hloses.subset, hsilent⟩
    · rw [hsame]
      exact h.memory
    · rw [hsame]
      exact hlive
  · obtain ⟨hkept, hnone⟩ := nodeIsKept_of_isIdle hidle
    refine ⟨?_, hloses.kept, ?_, hloses.subset, hsilent⟩
    · rw [hadded]
      refine h.memory.append hkept fun other hmem => ?_
      rw [hid]
      exact hother other hmem
    · rw [hadded]
      rintro packet ⟨node, hnode, hpacket⟩
      rcases List.mem_append.mp hnode with hold | hnew
      · exact hlive ⟨node, hold, hpacket⟩
      · rw [List.mem_singleton.mp hnew, hnone] at hpacket
        cases hpacket

/-- A retry sends a packet that is held. -/
theorem ledger_resend (h : LedgerInvariant history box) {destination bytes : Bytes}
    (key : PacketKey) (hheld : (key, bytes) ∈ packetsOf history.replica.runtime.nodes) :
    ∃ box' sending, Outbox.Step box box' sending ∧
      LedgerInvariant (history.after action [.send destination bytes]
        history.replica.runtime []) box' ∧
      SendsOnly history.replica.storage [.send destination bytes] box'.durable sending := by
  rw [← h.live] at hheld
  have hkey : packetKeyOf bytes = some key :=
    (h.named _ (h.sound.wasFrozen (h.sound.saved hheld))).1
  have hstep : Outbox.Step box { box with sent := insert (key, bytes) box.sent }
      (some (key, bytes)) := .resend _ hheld rfl rfl rfl rfl rfl
  have hsent : sentPackets [(.send destination bytes : Effect α ε)] = [(key, bytes)] := by
    simp [sentPackets, hkey]
  refine ⟨_, _, hstep, ⟨h.sound.step hstep, h.live, h.durable, ?_, ?_, ?_, h.memory,
    h.storage⟩, sendsOnly_some [] hkey (by simp) h.durable.symm⟩
  · intro packet hpacket
    simp only [PacketHistory.after, hsent, List.mem_append, List.mem_singleton] at hpacket
    rcases hpacket with hold | rfl
    · exact Set.mem_insert_of_mem _ (h.sent packet hold)
    · exact Set.mem_insert _ _
  · intro completed hcompleted
    simp only [PacketHistory.after, List.append_nil] at hcompleted
    exact h.completed completed hcompleted
  · intro packet hpacket
    obtain ⟨hname, hdrawn⟩ := h.named packet hpacket
    exact ⟨hname, List.mem_append_left _ hdrawn⟩

/-- The packets of a Node on which a sync state moved from no packet to one. -/
theorem nodePackets_of_begun {node committed : SharedNode α ε} {index : Nat}
    {state after : LinkSyncState} {packet : PacketKey × Bytes}
    (hstate : linkSyncStateAt node index = .ok state)
    (hbefore : state.pendingPackets node.objId = [])
    (hafter : after.pendingPackets node.objId = [packet])
    (hcommitted : committed = setLinkSyncStateAt node index after) :
    (∀ other, other ∈ nodePackets committed ↔ other = packet ∨ other ∈ nodePackets node) ∧
      (((nodePackets node).map Prod.fst).Nodup → packet.1 ∉ (nodePackets node).map Prod.fst →
        ((nodePackets committed).map Prod.fst).Nodup) := by
  obtain ⟨first, last, hnode, hset⟩ := nodePackets_of_commit after hstate
  rw [hbefore, List.append_nil] at hnode
  rw [hafter] at hset
  rw [hcommitted, hset, hnode]
  refine ⟨fun other => by simp [or_left_comm], fun hnodup hnew => ?_⟩
  have hperm : ((first ++ [packet] ++ last).map Prod.fst).Perm
      (packet.1 :: (first ++ last).map Prod.fst) := by
    have hmiddle : (first ++ packet :: last).Perm (packet :: (first ++ last)) :=
      List.perm_middle
    rw [List.append_assoc, List.singleton_append]
    exact hmiddle.map Prod.fst
  exact hperm.nodup_iff.mpr (List.nodup_cons.mpr ⟨hnew, hnodup⟩)

/-- A begun packet is frozen, saved and then sent. -/
theorem ledger_freeze (h : LedgerInvariant history box)
    {node committed : SharedNode α ε} {index : Nat} {state after : LinkSyncState}
    {destination bytes : Bytes} {eventId : ObjId} {event : LinkSyncEvent}
    (hfound : node ∈ history.replica.runtime.nodes)
    (hstate : linkSyncStateAt node index = .ok state)
    (hvalid : eventId.isValid = true) (hpermitted : state.IsPermitted event)
    (hcommit : state.commit eventId event = .ok after)
    (hcommitted : committed = setLinkSyncStateAt node index after)
    (hbefore : state.pendingPackets node.objId = [])
    (hafter : after.pendingPackets node.objId =
      [(⟨node.objId, state.shareId, eventId⟩, bytes)])
    (hkey : packetKeyOf bytes = some ⟨node.objId, state.shareId, eventId⟩)
    (hnew : eventId ∉ history.drawn) (hdrawn : action.drawn = [eventId]) :
    ∃ box' sending, Outbox.Step box box' sending ∧
      LedgerInvariant (history.after action
        [.saveNode committed, .send destination bytes]
        { history.replica.runtime with
          nodes := replaceNode history.replica.runtime.nodes committed } []) box' ∧
      SendsOnly history.replica.storage [.saveNode committed, .send destination bytes]
        box'.durable sending := by
  obtain ⟨hmem, hnodup⟩ := nodePackets_of_begun hstate hbefore hafter hcommitted
  have hid : committed.objId = node.objId := by rw [hcommitted]; rfl
  have hfresh : ∀ other, ((⟨node.objId, state.shareId, eventId⟩ : PacketKey), other) ∉
      box.frozen := fun other hother => hnew (h.named _ hother).2
  have hnotHeld : (⟨node.objId, state.shareId, eventId⟩ : PacketKey) ∉
      (nodePackets node).map Prod.fst := by
    intro hin
    obtain ⟨⟨key, other⟩, hother, hsame⟩ := List.mem_map.mp hin
    cases hsame
    refine hfresh other (h.sound.wasFrozen ?_)
    rw [h.durable]
    exact h.saved ⟨node, hfound, hother⟩
  have hkept : NodeIsKept committed := by
    refine ⟨?_, hnodup (h.memory.packets node hfound) hnotHeld⟩
    have hmoved : NodeMoved node committed := .committed hvalid hstate hpermitted
      (commitLinkSyncEvent_eq_ok_iff.mpr ⟨state, after, hstate, hcommit, hcommitted⟩)
    exact (hmoved.states (h.memory.states node hfound)).1
  have hstep : Outbox.Step box
      { live := packetsOf (replaceNode history.replica.runtime.nodes committed)
        durable := packetsOf (saveNodeValue history.replica.storage.nodes committed)
        frozen := insert (⟨node.objId, state.shareId, eventId⟩, bytes) box.frozen
        sent := insert (⟨node.objId, state.shareId, eventId⟩, bytes) box.sent
        completed := box.completed }
      (some (⟨node.objId, state.shareId, eventId⟩, bytes)) := by
    refine .freeze _ hfresh (saved_of_replaced_and_saved h) ?_ ?_ rfl rfl rfl
    · exact mem_packetsOf_saveNodeValue.mpr (Or.inl ((hmem _).mpr (Or.inl rfl)))
    · intro packet hpacket
      rw [h.durable]
      rcases mem_packetsOf_saveNodeValue.mp hpacket with hin | ⟨hold, -⟩
      · rcases (hmem packet).mp hin with rfl | hheld
        · exact Set.mem_insert _ _
        · exact Set.mem_insert_of_mem _ (h.saved ⟨node, hfound, hheld⟩)
      · exact Set.mem_insert_of_mem _ hold
  have hsent : sentPackets [(.saveNode committed : Effect α ε), .send destination bytes] =
      [(⟨node.objId, state.shareId, eventId⟩, bytes)] := by
    simp [sentPackets, hkey]
  refine ⟨_, _, hstep, ⟨h.sound.step hstep, rfl, rfl, ?_, ?_, ?_, h.memory.replaceNode hkept,
    h.storage.saveNodeValue hkept⟩, ?_⟩
  · intro packet hpacket
    simp only [PacketHistory.after, hsent, List.mem_append, List.mem_singleton] at hpacket
    rcases hpacket with hold | rfl
    · exact Set.mem_insert_of_mem _ (h.sent packet hold)
    · exact Set.mem_insert _ _
  · intro completed hcompleted
    simp only [PacketHistory.after, List.append_nil] at hcompleted
    exact h.completed completed hcompleted
  · intro packet hpacket
    simp only [PacketHistory.after, hdrawn, List.mem_append, List.mem_singleton]
    rcases hpacket with rfl | hold
    · exact ⟨hkey, Or.inr rfl⟩
    · obtain ⟨hname, hdrawn'⟩ := h.named packet hold
      exact ⟨hname, Or.inl hdrawn'⟩
  · exact sendsOnly_some [.saveNode committed] hkey
      (by simp [Effect.SendsNoPacket]) rfl

/-- The packets of a Node on which a sync state gave up its only packet. -/
theorem nodePackets_of_completed {node committed : SharedNode α ε} {index : Nat}
    {state after : LinkSyncState} {packet : PacketKey × Bytes}
    (hstate : linkSyncStateAt node index = .ok state)
    (hbefore : state.pendingPackets node.objId = [packet])
    (hafter : after.pendingPackets node.objId = [])
    (hcommitted : committed = setLinkSyncStateAt node index after)
    (hnodup : ((nodePackets node).map Prod.fst).Nodup) :
    packet ∈ nodePackets node ∧ (nodePackets committed).Sublist (nodePackets node) ∧
      ∀ other ∈ nodePackets committed, other.1 ≠ packet.1 := by
  obtain ⟨first, last, hnode, hset⟩ := nodePackets_of_commit after hstate
  rw [hbefore] at hnode
  rw [hafter, List.append_nil] at hset
  rw [hcommitted, hset, hnode]
  rw [hnode, List.append_assoc, List.singleton_append] at hnodup
  refine ⟨by simp, ?_, fun other hother hsame => ?_⟩
  · rw [List.append_assoc]
    exact List.Sublist.append_left (List.sublist_append_right _ _) _
  · have hperm : ((first ++ packet :: last).map Prod.fst).Perm
        ((packet :: (first ++ last)).map Prod.fst) := List.perm_middle.map Prod.fst
    have hnew := (List.nodup_cons.mp (hperm.nodup_iff.mp hnodup)).1
    exact hnew (List.mem_map.mpr ⟨other, hother, hsame⟩)

/-- An awaited Ack completes the packet it carries. -/
theorem ledger_complete (h : LedgerInvariant history box) {env : StepEnv}
    {sourceEndpoint : Bytes} {frame : AckFrame} {node committed : SharedNode α ε}
    {index : Nat} {state : LinkSyncState} (hvalid : env.eventId.isValid = true)
    (hpacket : frame.packetId.isValid = true)
    (hawaited : AckIsAwaited history.replica.runtime sourceEndpoint frame node index state)
    (hcommit : commitLinkSyncEvent node index env.eventId state.completion =
      .ok committed) :
    ∃ box' sending, Outbox.Step box box' sending ∧
      LedgerInvariant (history.after action [.saveNode committed]
        { history.replica.runtime with
          nodes := replaceNode history.replica.runtime.nodes committed }
        [⟨frame.targetNodeId, frame.destinationShareId, frame.packetId⟩]) box' ∧
      SendsOnly history.replica.storage [.saveNode committed] box'.durable sending := by
  have hfound := List.mem_of_find?_eq_some hawaited.found
  have hauthorised := hawaited.isAuthorised hpacket
  have hpermitted := isPermitted_completion hpacket hawaited.awaits
  have hmoved : NodeMoved node committed :=
    .committed hvalid hawaited.state_eq hpermitted hcommit
  obtain ⟨before, after, hbefore, hafter, hcommitted⟩ :=
    commitLinkSyncEvent_eq_ok_iff.mp hcommit
  cases hawaited.state_eq.symm.trans hbefore
  -- The state of the Ack is one of the well-formed states of its Node.
  obtain ⟨entry, hentry, hobj⟩ :=
    Option.bind_eq_some_iff.mp (linkSyncStateAt_eq_ok_iff.mp hbefore)
  obtain ⟨state', hstate', hwell⟩ :=
    h.memory.states node hfound entry (List.mem_of_getElem? hentry)
  cases hobj.symm.trans hstate'
  obtain ⟨bytes, hheld⟩ := pendingPackets_of_awaits node.objId hpacket
    hawaited.awaits
  obtain ⟨hin, hsub, hgone⟩ := nodePackets_of_completed hbefore hheld
    (pendingPackets_of_completion hwell hpacket hawaited.awaits hafter) hcommitted
    (h.memory.packets node hfound)
  have hid : committed.objId = node.objId := hmoved.objId
  have hkept : NodeIsKept committed :=
    ⟨(hmoved.states (h.memory.states node hfound)).1,
      (h.memory.packets node hfound).sublist (hsub.map _)⟩
  rw [hauthorised.target, hauthorised.share]
  have hstep : Outbox.Step box
      { live := packetsOf (replaceNode history.replica.runtime.nodes committed)
        durable := packetsOf (saveNodeValue history.replica.storage.nodes committed)
        frozen := box.frozen
        sent := box.sent
        completed := insert ⟨node.objId, state.shareId, frame.packetId⟩ box.completed }
      none := by
    refine .complete _ ⟨bytes, ?_⟩ (saved_of_replaced_and_saved h) ?_ ?_ rfl rfl rfl
    · rw [h.live]
      exact ⟨node, hfound, hin⟩
    · intro packet hmem
      rw [h.durable]
      rcases mem_packetsOf_saveNodeValue.mp hmem with hnew | ⟨hold, -⟩
      · exact h.saved ⟨node, hfound, hsub.subset hnew⟩
      · exact hold
    · intro other hmem
      rcases mem_packetsOf_saveNodeValue.mp hmem with hnew | ⟨-, hother⟩
      · exact hgone _ hnew rfl
      · exact hother hid.symm
  refine ⟨_, none, hstep, ⟨h.sound.step hstep, rfl, rfl, ?_, ?_, ?_,
    h.memory.replaceNode hkept, h.storage.saveNodeValue hkept⟩,
    sendsOnly_none (by simp [Effect.SendsNoPacket])⟩
  · intro packet hmem
    refine h.sent packet ?_
    simpa [PacketHistory.after, sentPackets] using hmem
  · intro key hmem
    simp only [PacketHistory.after, List.mem_append, List.mem_singleton] at hmem
    rcases hmem with hold | rfl
    · exact Set.mem_insert_of_mem _ (h.completed key hold)
    · exact Set.mem_insert _ _
  · intro packet hmem
    obtain ⟨hname, hdrawn⟩ := h.named packet hmem
    exact ⟨hname, List.mem_append_left _ hdrawn⟩

theorem completedBy_eq_nil {env : StepEnv} {sourceEndpoint bytes : Bytes}
    {replica : Replica α ε} (h : peekSyncFrameType bytes ≠ some .ack) :
    completedBy aether app replica (.receive env sourceEndpoint bytes) = [] := by
  cases hdecode : decodeAckFrame bytes with
  | none => simp [completedBy, hdecode]
  | some frame =>
      have hpeek := peekSyncFrameType_encodeAckFrame frame
      rw [(encode_of_decodeAckFrame hdecode).2] at hpeek
      exact absurd hpeek h

theorem packetStep_eq_some_iff {next : PacketHistory α ε} :
    packetStep aether app history action = some next ↔
      ∃ runtime', (action.outcome aether app history.replica).result = .ok runtime' ∧
        next = history.after action (action.outcome aether app history.replica).effects
          runtime' (completedBy aether app history.replica action) := by
  unfold packetStep
  rw [Option.map_eq_some_iff]
  constructor
  · rintro ⟨replica', hstep, rfl⟩
    obtain ⟨runtime', hresult, rfl⟩ := replicaStep_eq_some_iff.mp hstep
    exact ⟨runtime', hresult, rfl⟩
  · rintro ⟨runtime', hresult, rfl⟩
    exact ⟨_, replicaStep_eq_some_iff.mpr ⟨runtime', hresult, rfl⟩, rfl⟩

/-- Receiving a NodeState. -/
theorem quietOutcome_of_nodeState (h : LedgerInvariant history box) {env : StepEnv}
    {sourceEndpoint bytes : Bytes} {frame : NodeStateFrame}
    (hcuts : CutsLocalStates aether bytes)
    (hfresh : ScratchIdsFresh aether env frame.payload)
    (hdecode : decodeNodeStateFrame bytes = some frame)
    (hresult : (onNodeState aether app env history.replica sourceEndpoint frame).result =
      .ok runtime') :
    QuietOutcome history.replica
      (onNodeState aether app env history.replica sourceEndpoint frame).effects runtime' := by
  cases hfound : findNode history.replica.runtime.nodes frame.targetNodeId with
  | some node =>
      rw [onNodeState_of_known aether app env sourceEndpoint hfound] at hresult ⊢
      rcases onNodeStateOfKnownNode_cases env sourceEndpoint hfound with
        ⟨-, hbinds⟩ | ⟨-, hnil, hkept⟩
      · rw [hbinds] at hresult ⊢
        obtain ⟨bound, hbound, hnodes⟩ :=
          bindAndAcknowledge_returns env history.replica.runtime node sourceEndpoint frame
        cases hresult.symm.trans hbound
        exact quietOutcome_of_same h hnodes bindAndAcknowledge_savesNothing
      · rw [hnil, hkept runtime' hresult]
        exact quietOutcome_of_same h rfl (by simp)
  | none =>
      have heffects := onNodeState_effects app sourceEndpoint hcuts hfresh hdecode hfound
      refine quietOutcome_of_admitted h hfound heffects ?_
      rcases nodes_of_onNodeState hresult with hnodes |
        ⟨imported, completed, registered, index, state, himport, hregistration, -, hnodes⟩
      · exact Or.inl hnodes
      · refine Or.inr ⟨registered, ?_, isIdle_of_registration hregistration
          (hasLocalStates_of_cuts hcuts hdecode hfresh himport), hnodes⟩
        exact hregistration.sameShared.objId.trans (objId_of_importValidatedNode himport)

/-- Receiving bytes is a step of the outbox. -/
theorem ledger_receive (h : LedgerInvariant history box) {env : StepEnv}
    {sourceEndpoint bytes : Bytes}
    (hdraws : DrawsNewIds aether history (.receive env sourceEndpoint bytes : ReplicaAction ε))
    (hcuts : CutsLocalStates aether bytes)
    (hresult : (onBytes aether app env history.replica sourceEndpoint bytes).result =
      .ok runtime') :
    ∃ box' sending, Outbox.Step box box' sending ∧
      LedgerInvariant (history.after (.receive env sourceEndpoint bytes)
        (onBytes aether app env history.replica sourceEndpoint bytes).effects runtime'
        (completedBy aether app history.replica (.receive env sourceEndpoint bytes))) box' ∧
      SendsOnly history.replica.storage
        (onBytes aether app env history.replica sourceEndpoint bytes).effects box'.durable
        sending := by
  obtain ⟨hvalid, -, hscratch⟩ := hdraws
  have hnothing : ∀ {effects : List (Effect α ε)}, effects = [] →
      runtime' = history.replica.runtime →
      QuietOutcome history.replica effects runtime' := by
    rintro effects rfl rfl
    exact quietOutcome_of_same h rfl (by simp)
  have hack : ∀ {destination : Bytes} {packetId nodeId shareId : ObjId},
      (ackEffect destination packetId nodeId shareId : Effect α ε).SendsNoPacket :=
    packetKeyOf_encodeAckFrame _
  by_cases hkind : peekSyncFrameType bytes = some .ack
  case pos =>
    cases hdecode : decodeAckFrame bytes with
    | none =>
        have hempty : completedBy aether app history.replica
            (.receive env sourceEndpoint bytes) = [] := by
          simp [completedBy, hdecode]
        rw [hempty]
        simp only [onBytes, hkind, hdecode] at hresult ⊢
        exact ledger_quiet h (hnothing rfl (Except.ok.inj hresult).symm)
    | some frame =>
        have heq : onBytes aether app env history.replica sourceEndpoint bytes =
            onAck env history.replica.runtime sourceEndpoint frame := by
          simp only [onBytes, hkind, hdecode]
        have hcompleted : completedBy aether app history.replica
            (.receive env sourceEndpoint bytes) =
            if (onAck env history.replica.runtime sourceEndpoint frame).effects.isEmpty then []
            else [⟨frame.targetNodeId, frame.destinationShareId, frame.packetId⟩] := by
          simp only [completedBy, hdecode, ReplicaAction.outcome, heq]
        rw [hcompleted, heq]
        rw [heq] at hresult
        rcases onAck_cases hresult with ⟨-, heffects, rfl⟩ |
          ⟨node, index, state, committed, hawaited, hcommit, heffects, rfl⟩
        · rw [heffects]
          exact ledger_quiet h (hnothing rfl rfl)
        · rw [heffects]
          exact ledger_complete h hvalid (packetId_of_decodeAckFrame hdecode) hawaited hcommit
  case neg =>
  rw [completedBy_eq_nil hkind]
  refine ledger_quiet h ?_
  unfold onBytes at hresult ⊢
  split at hresult
  case h_1 => exact hnothing rfl (Except.ok.inj hresult).symm
  case h_3 hpeek => exact absurd hpeek hkind
  case h_2 hpeek =>
    split at hresult
    case h_1 => exact hnothing rfl (Except.ok.inj hresult).symm
    case h_2 frame hdecode =>
      exact quietOutcome_of_nodeState h hcuts (hscratch frame hdecode) hdecode hresult
  case h_4 hpeek =>
    split at hresult
    case h_1 => exact hnothing rfl (Except.ok.inj hresult).symm
    case h_2 frame hdecode =>
      rcases onEvent_cases hresult with ⟨heffects, hsame⟩ |
        ⟨_, _, _, _, -, -, -, heffects, hsame⟩ |
        ⟨node, parsed, wireRootId, localEvent, inserted, hadmissible, hinserted, heffects, hsame⟩
      · exact hnothing heffects hsame
      · rw [heffects]
        refine quietOutcome_of_same h (by rw [hsame]) ?_
        intro effect hmem
        rw [List.mem_singleton.mp hmem]
        exact ⟨hack, fun _ => rfl⟩
      · obtain ⟨-, -, hrecord⟩ := recordInserted_of_commitShared hinserted.commit
        rw [heffects]
        refine quietOutcome_of_replaced_and_saved h
          (List.mem_of_find?_eq_some hadmissible.found) hrecord.objId
          (statesFrom_of_recordInserted hrecord) (by rw [hsame]) rfl ?_
        intro effect hmem
        simp only [List.mem_cons, List.not_mem_nil, or_false] at hmem
        rcases hmem with rfl | rfl | rfl
        · trivial
        · trivial
        · exact hack

end Ledger

end AppTraverse
