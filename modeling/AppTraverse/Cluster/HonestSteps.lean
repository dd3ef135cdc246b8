import AppTraverse.Cluster.StateCommits

/-!
# One step of a replica among honest peers

`DeliveryInvariant` says that everything a replica records is true of the other side.
A step keeps it, as long as the frames it receives are true, and whatever the step
hands to the transport is true as well (`honest_step`).  So two replicas that only
hear of each other can each rely on the other, over any transport.

The steps are shown one kind at a time (`OutcomeIsTrue`), against the view that the
replica has after the step.
-/

namespace AppTraverse

open Foundations

variable {α ε : Type} {aether : Aether α ε} {app : AppClass α ε}

/-- Everything that a replica records is true. -/
structure DeliveryInvariant (aether : Aether α ε) (history : PacketHistory α ε)
    (peer : ReplicaView) : Prop where
  ledger : ∃ box, LedgerInvariant history box ∧ ∀ packet ∈ box.frozen, packet ∈ history.sent
  nodes : ∀ node ∈ history.replica.runtime.nodes ++ history.replica.storage.nodes,
    NodeIsTrue aether history.view peer node
  packets : ∀ packet ∈ history.sent,
    PacketIsTrue aether history.view peer packet.1 packet.2
  fits : history.view.endpoint.length < 2 ^ 32

/-- A frame that the other side handed to the transport, and local operations that
share Events under this endpoint and compact no journal. -/
def ActsHonestly (aether : Aether α ε) (history : PacketHistory α ε) (peer : ReplicaView) :
    ReplicaAction ε → Prop
  | .receive _ _ bytes => FrameIsTrue aether peer history.view bytes
  | .operate _ _ _ operation => operation ≠ .compactJournal ∧
      ∀ event identity order, operation = .commitShared event identity order →
        identity.originUid = history.view.endpoint
  | _ => True

/-- What an operation did is true of the view after it. -/
structure OutcomeIsTrue (aether : Aether α ε) (history : PacketHistory α ε)
    (after peer : ReplicaView) (effects : List (Effect α ε))
    (runtime' : SharedSyncRuntime α ε) : Prop where
  live : ∀ node ∈ runtime'.nodes, NodeIsTrue aether after peer node
  saves : ∀ effect ∈ effects, effect.SavesTrue aether after peer
  packets : ∀ packet ∈ sentPackets effects,
    packet ∈ history.sent ∨ PacketIsTrue aether after peer packet.1 packet.2
  acks : ∀ destination bytes frame, .send destination bytes ∈ effects →
    decodeAckFrame bytes = some frame → AckIsTrue aether after peer
      ⟨frame.targetNodeId, frame.destinationShareId, frame.packetId⟩

section Ledger

variable {history : PacketHistory α ε} {peer : ReplicaView}

theorem DeliveryInvariant.live (h : DeliveryInvariant aether history peer)
    {node : SharedNode α ε} (hnode : node ∈ history.replica.runtime.nodes) :
    NodeIsTrue aether history.view peer node :=
  h.nodes node (List.mem_append_left _ hnode)

theorem DeliveryInvariant.saved (h : DeliveryInvariant aether history peer)
    {node : SharedNode α ε} (hnode : node ∈ history.replica.storage.nodes) :
    NodeIsTrue aether history.view peer node :=
  h.nodes node (List.mem_append_right _ hnode)

/-- A pending packet has been sent. -/
theorem DeliveryInvariant.sent_of_pending (h : DeliveryInvariant aether history peer)
    {node : SharedNode α ε} {index : Nat} {state : LinkSyncState} {packet : PacketKey × Bytes}
    (hnode : node ∈ history.replica.runtime.nodes)
    (hstate : linkSyncStateAt node index = .ok state)
    (hpacket : packet ∈ state.pendingPackets node.objId) : packet ∈ history.sent := by
  obtain ⟨box, hledger, hfrozen⟩ := h.ledger
  refine hfrozen packet (hledger.sound.wasFrozen (hledger.sound.saved ?_))
  rw [hledger.live]
  exact ⟨node, hnode, mem_nodePackets_of_state hstate hpacket⟩

/-- One packet for each key. -/
theorem DeliveryInvariant.sent_eq (h : DeliveryInvariant aether history peer)
    {key : PacketKey} {bytes bytes' : Bytes} (hsent : (key, bytes) ∈ history.sent)
    (hsent' : (key, bytes') ∈ history.sent) : bytes = bytes' := by
  obtain ⟨box, hledger, -⟩ := h.ledger
  exact hledger.sound.sent_eq (hledger.sent _ hsent) (hledger.sent _ hsent')

/-- The bytes of a packet name it. -/
theorem DeliveryInvariant.named (h : DeliveryInvariant aether history peer)
    {packet : PacketKey × Bytes} (hsent : packet ∈ history.sent) :
    packetKeyOf packet.2 = some packet.1 := by
  obtain ⟨box, hledger, -⟩ := h.ledger
  exact (hledger.named packet (hledger.sound.sentFrozen (hledger.sent _ hsent))).1

theorem packetKeyOf_of_decodeAckFrame {bytes : Bytes} {frame : AckFrame}
    (h : decodeAckFrame bytes = some frame) : packetKeyOf bytes = none := by
  rw [← (encode_of_decodeAckFrame h).2]
  exact packetKeyOf_encodeAckFrame frame

/-- What an outbox froze is among what it has sent. -/
theorem frozen_of_step {box box' : Outbox PacketKey Bytes}
    {sending : Option (PacketKey × Bytes)} {sent : List (PacketKey × Bytes)}
    (hstep : Outbox.Step box box' sending) (h : ∀ packet ∈ box.frozen, packet ∈ sent) :
    ∀ packet ∈ box'.frozen, packet ∈ sent ++ sending.toList := by
  intro packet hpacket
  rw [List.mem_append]
  cases hstep with
  | quiet saved kept same =>
      rw [same.frozen] at hpacket
      exact Or.inl (h packet hpacket)
  | freeze added fresh saved stored kept frozen sent' completed =>
      rw [frozen] at hpacket
      rcases hpacket with rfl | hold
      · exact Or.inr (by simp)
      · exact Or.inl (h packet hold)
  | resend added held live durable frozen sent' completed =>
      rw [frozen] at hpacket
      exact Or.inl (h packet hpacket)
  | complete key held saved kept dropped frozen sent' completed =>
      rw [frozen] at hpacket
      exact Or.inl (h packet hpacket)

/-- A frame of an honest peer brings no sync states. -/
theorem bringsNoStates_of_honest {action : ReplicaAction ε}
    (h : ActsHonestly aether history peer action) : BringsNoStates aether action := by
  cases action with
  | receive env sourceEndpoint bytes =>
      intro frame parsed object shared states hdecode
      exact (h.packet _ (packetKeyOf_of_decodeNodeStateFrame hdecode)).2.cuts frame parsed
        object shared states hdecode
  | _ => trivial

end Ledger

section Settings

variable {replica next : Replica α ε}

/-- A step keeps the endpoint. -/
theorem endpoint_of_step {action : ReplicaAction ε}
    (hstep : replicaStep aether app replica action = some next) :
    next.runtime.localEndpoint = replica.runtime.localEndpoint := by
  obtain ⟨runtime', hresult, rfl⟩ := replicaStep_eq_some_iff.mp hstep
  show runtime'.localEndpoint = replica.runtime.localEndpoint
  have hbegun : ∀ {target : SharedNode α ε} {index : Nat} {destination : Bytes}
      {eventId : ObjId} {event : LinkSyncEvent} {packet : Bytes} {effects : List (Effect α ε)},
      PacketBegun replica.runtime target index destination eventId event packet effects
        runtime' → runtime'.localEndpoint = replica.runtime.localEndpoint := by
    intro _ _ _ _ _ _ _ hbegun
    obtain ⟨-, -, -, rfl⟩ := hbegun.outcome
    rfl
  cases action with
  | receive env sourceEndpoint bytes =>
      simp only [ReplicaAction.outcome] at hresult
      unfold onBytes at hresult
      split at hresult
      case h_1 => cases hresult; rfl
      case h_2 =>
        split at hresult
        case h_1 => cases hresult; rfl
        case h_2 frame hdecode =>
          have hkeeps : (onNodeState aether app env replica sourceEndpoint frame).Ensures
              (fun _ => True) (SameSettings replica.runtime) :=
            onNodeState_keeps aether app env sourceEndpoint (fun _ _ => trivial) replica frame
              fun _ _ _ => trivial
          exact (hkeeps.result runtime' hresult).1
      case h_3 =>
        split at hresult
        case h_1 => cases hresult; rfl
        case h_2 =>
          rcases onAck_cases hresult with ⟨-, -, rfl⟩ | ⟨_, _, _, _, -, -, -, rfl⟩
          · rfl
          · rfl
      case h_4 =>
        split at hresult
        case h_1 => cases hresult; rfl
        case h_2 =>
          rcases onEvent_cases hresult with ⟨-, rfl⟩ | ⟨_, _, _, _, -, -, -, -, rfl⟩ |
            ⟨_, _, _, _, _, -, -, -, rfl⟩
          · rfl
          · rfl
          · rfl
  | syncInitialState env target shareId =>
      obtain ⟨_, _, _, _, -, ⟨-, -, rfl⟩ | ⟨-, -, rfl⟩ | ⟨_, -, -, hpacket⟩⟩ :=
        syncInitialState_cases hresult
      · rfl
      · rfl
      · exact hbegun hpacket
  | syncNextEvent env target shareId =>
      obtain ⟨_, _, _, _, -, ⟨-, rfl⟩ | ⟨-, -, -, rfl⟩ | ⟨_, _, _, -, -, -, hpacket⟩⟩ :=
        syncNextEvent_cases hresult
      · rfl
      · rfl
      · exact hbegun hpacket
  | operate ids nowUs target operation =>
      simp only [ReplicaAction.outcome] at hresult
      split at hresult
      case h_1 => cases hresult
      case h_2 node hfound =>
        obtain ⟨changed, -, hresult⟩ := EffectLog.bind_result_eq_ok_iff.mp hresult
        cases hresult
        rfl
  | saveNode target =>
      simp only [ReplicaAction.outcome] at hresult
      split at hresult
      case h_1 => cases hresult
      case h_2 =>
        obtain ⟨-, -, hresult⟩ := EffectLog.bind_result_eq_ok_iff.mp hresult
        cases hresult
        rfl
  | restart =>
      cases hresult
      rfl

/-- An honest action compacts no journal. -/
theorem leavesJournal_of_honest {history : PacketHistory α ε} {peer : ReplicaView}
    {action : ReplicaAction ε} (h : ActsHonestly aether history peer action) (nodeId : ObjId) :
    action.LeavesJournal nodeId := by
  cases action with
  | operate ids nowUs target operation => exact fun _ => h.1
  | _ => trivial

/-- The view of a replica grows with every honest step. -/
theorem grows_of_step {history next : PacketHistory α ε} {peer : ReplicaView}
    {action : ReplicaAction ε} (hhonest : ActsHonestly aether history peer action)
    (hstep : packetStep aether app history action = some next) :
    history.view.Grows next.view := by
  unfold packetStep at hstep
  obtain ⟨replica', hreplica, rfl⟩ := Option.map_eq_some_iff.mp hstep
  refine ⟨endpoint_of_step hreplica, fun nodeId identity hholds => ?_, fun key bytes hsent => ?_⟩
  · obtain ⟨classId, record, hkept⟩ := hholds
    exact ⟨classId, record,
      (recordIsKept_step hkept (leavesJournal_of_honest hhonest nodeId) hreplica).1⟩
  · exact List.mem_append_left _ hsent

end Settings

section Outcomes

variable {history : PacketHistory α ε} {after peer : ReplicaView}
  {runtime' : SharedSyncRuntime α ε}

/-- The registered Nodes as they were. -/
theorem live_of_same (h : DeliveryInvariant aether history peer)
    (hgrows : history.view.Grows after)
    (hnodes : runtime'.nodes = history.replica.runtime.nodes) :
    ∀ node ∈ runtime'.nodes, NodeIsTrue aether after peer node := by
  intro node hnode
  rw [hnodes] at hnode
  exact (h.live hnode).mono hgrows (.refl peer)

theorem outcome_nothing (h : DeliveryInvariant aether history peer)
    (hgrows : history.view.Grows after)
    (hnodes : runtime'.nodes = history.replica.runtime.nodes) :
    OutcomeIsTrue aether history after peer [] runtime' where
  live := live_of_same h hgrows hnodes
  saves := by simp
  packets := by simp [sentPackets]
  acks := by simp

/-- A retry sends what was sent before. -/
theorem outcome_resend (h : DeliveryInvariant aether history peer)
    (hgrows : history.view.Grows after) {key : PacketKey} {destination bytes : Bytes}
    (hsent : (key, bytes) ∈ history.sent) :
    OutcomeIsTrue aether history after peer [.send destination bytes]
      history.replica.runtime where
  live := live_of_same h hgrows rfl
  saves := by simp [Effect.SavesTrue]
  packets := by
    intro packet hpacket
    simp only [sentPackets, List.filterMap_cons, h.named hsent, Option.map_some,
      List.filterMap_nil, List.mem_singleton] at hpacket
    rw [hpacket]
    exact Or.inl hsent
  acks := by
    intro other sending frame heffect hdecode
    rw [List.mem_singleton, Effect.send.injEq] at heffect
    -- A packet does not decode as an Ack.
    have hnone := packetKeyOf_of_decodeAckFrame hdecode
    rw [heffect.2, h.named hsent] at hnone
    cases hnone

/-- A Node takes a new value that is true. -/
theorem live_of_replaced (h : DeliveryInvariant aether history peer)
    (hgrows : history.view.Grows after) {committed : SharedNode α ε}
    (hcommitted : NodeIsTrue aether after peer committed)
    (hnodes : runtime'.nodes = replaceNode history.replica.runtime.nodes committed) :
    ∀ node ∈ runtime'.nodes, NodeIsTrue aether after peer node := by
  rw [hnodes]
  exact forall_replaceNode (fun _ hnode => (h.live hnode).mono hgrows (.refl peer))
    hcommitted

/-- A committed and saved Node is held with its whole journal. -/
theorem holds_of_committed {replica : Replica α ε} {node committed : SharedNode α ε}
    {nodes saved : List (SharedNode α ε)} {nodeId : ObjId} {identity : SharedEventId}
    (hfound : findNode nodes nodeId = some node) (hid : committed.objId = node.objId)
    (hlive : replica.runtime.nodes = replaceNode nodes committed)
    (hsaved : replica.storage.nodes = saveNodeValue saved committed)
    (hidentity : identity ∈ sharedIdentities committed.journal) :
    replica.Holds nodeId identity := by
  have hnodeId := objId_of_findNode hfound
  have hlookup : findNode replica.runtime.nodes nodeId = some committed := by
    rw [hlive, findNode_replaceNode, hfound, Option.map_some, if_pos hid.symm]
  have hstored : findNode replica.storage.nodes nodeId = some committed := by
    rw [hsaved, ← hnodeId, ← hid]
    exact findNode_saveNodeValue saved committed
  exact holds_of_saved hlookup hstored rfl rfl hidentity

/-- A freeze commits, saves and sends a packet that is true. -/
theorem outcome_begun (h : DeliveryInvariant aether history peer)
    (hgrows : history.view.Grows after) {committed : SharedNode α ε}
    {key : PacketKey} {destination bytes : Bytes}
    (hcommitted : NodeIsTrue aether after peer committed)
    (hkey : packetKeyOf bytes = some key) (hpacket : PacketIsTrue aether after peer key bytes)
    (hnodes : runtime'.nodes = replaceNode history.replica.runtime.nodes committed) :
    OutcomeIsTrue aether history after peer [.saveNode committed, .send destination bytes]
      runtime' where
  live := live_of_replaced h hgrows hcommitted hnodes
  saves := by simp [Effect.SavesTrue, hcommitted]
  packets := by
    intro packet hmem
    simp only [sentPackets, List.filterMap_cons, hkey, Option.map_some, List.filterMap_nil,
      List.mem_singleton] at hmem
    rw [hmem]
    exact Or.inr hpacket
  acks := by
    intro other sending frame heffect hdecode
    simp only [List.mem_cons, List.not_mem_nil, or_false, reduceCtorEq, false_or,
      Effect.send.injEq] at heffect
    have hnone := packetKeyOf_of_decodeAckFrame hdecode
    rw [heffect.2, hkey] at hnone
    cases hnone

/-- What a freeze may carry: identities of a Node that is true and held. -/
theorem packetIsTrue_of_node {node : SharedNode α ε} {key : PacketKey} {bytes : Bytes}
    (hnode : NodeIsTrue aether after peer node) (hid : key.nodeId = node.objId)
    (hvalid : key.packetId.isValid = true) (hcuts : CutsLocalStates aether bytes)
    (hholds : ∀ identity ∈ sharedIdentities node.journal, after.holds node.objId identity)
    (hcarried : ∀ carried, carriedIdentities aether bytes = some carried →
      carried.Nodup ∧ ∀ identity ∈ carried, identity ∈ sharedIdentities node.journal) :
    PacketIsTrue aether after peer key bytes where
  valid := hvalid
  cuts := hcuts
  carries := by
    intro carried hbytes
    obtain ⟨honce, hmem⟩ := hcarried carried hbytes
    refine ⟨honce, fun identity hidentity => ?_⟩
    have hjournal := hmem identity hidentity
    rw [hid]
    exact ⟨hnode.fits identity hjournal, hholds identity hjournal,
      fun horigin => (hnode.foreign identity hjournal horigin).2⟩

end Outcomes

section Calls

variable {history next : PacketHistory α ε} {peer : ReplicaView} {env : StepEnv}
  {runtime' : SharedSyncRuntime α ε} {nodeId shareId : ObjId} {effects : List (Effect α ε)}

/-- The history after a call that returned. -/
structure IsAfterCall (history next : PacketHistory α ε) (effects : List (Effect α ε))
    (runtime' : SharedSyncRuntime α ε) : Prop where
  runtime : next.replica.runtime = runtime'
  storage : next.replica.storage = effects.foldl ReplicaStorage.perform history.replica.storage

/-- A packet that was begun is true if it carries part of the journal and its state
records what it carries. -/
theorem outcome_of_packetBegun (h : DeliveryInvariant aether history peer)
    (hgrows : history.view.Grows next.view)
    (hafter : IsAfterCall history next effects runtime')
    {node : SharedNode α ε} {destination : Bytes} {index : Nat} {state : LinkSyncState}
    {eventId : ObjId} {event : LinkSyncEvent} {packet : Bytes}
    (hdestination : IsSyncDestination history.replica.runtime nodeId shareId node destination
      index state)
    (hbegun : PacketBegun history.replica.runtime node index destination eventId event packet
      effects runtime')
    (hstate : ∀ state committed, state.commit eventId event = .ok committed →
      StateIsTrue aether next.view peer node.objId state →
      StateIsTrue aether next.view peer node.objId committed)
    (hkey : packetKeyOf packet = some ⟨nodeId, shareId, eventId⟩)
    (hvalid : eventId.isValid = true) (hcuts : CutsLocalStates aether packet)
    (hcarried : ∀ carried, carriedIdentities aether packet = some carried →
      carried.Nodup ∧ ∀ identity ∈ carried, identity ∈ sharedIdentities node.journal) :
    OutcomeIsTrue aether history next.view peer effects runtime' := by
  obtain ⟨committed, hcommit, heffects, hruntime⟩ := hbegun.outcome
  have hsame := sameShared_of_commitLinkSyncEvent hcommit
  have hnode := (h.live (List.mem_of_find?_eq_some hdestination.found)).mono hgrows (.refl peer)
  have hcommitted : NodeIsTrue aether next.view peer committed :=
    nodeIsTrue_of_commit hnode hcommit fun state committed _ happly => hstate state committed happly
  -- The Node is saved before the packet leaves, with everything the packet carries.
  have hlive : next.replica.runtime.nodes =
      replaceNode history.replica.runtime.nodes committed := by
    rw [hafter.runtime, hruntime]
  have hsaved : next.replica.storage.nodes =
      saveNodeValue history.replica.storage.nodes committed := by
    rw [hafter.storage, heffects]
    rfl
  have hholds : ∀ identity ∈ sharedIdentities committed.journal,
      next.view.holds nodeId identity := fun identity hidentity =>
    holds_of_committed hdestination.found hsame.objId hlive hsaved hidentity
  have hid : nodeId = committed.objId :=
    (objId_of_findNode hdestination.found).symm.trans hsame.objId.symm
  rw [heffects]
  refine outcome_begun h hgrows hcommitted hkey
    (packetIsTrue_of_node hcommitted hid hvalid hcuts ?_ ?_) (by rw [hruntime])
  · rw [← hid]
    exact hholds
  · rw [hsame.journal]
    exact hcarried

/-- What `SyncInitialState` does is true. -/
theorem outcome_syncInitialState (hlawful : aether.Lawful)
    (h : DeliveryInvariant aether history peer) (hgrows : history.view.Grows next.view)
    (hvalid : env.eventId.isValid = true)
    (hresult : (syncInitialState aether app env history.replica.runtime nodeId
      shareId).result = .ok runtime')
    (hafter : IsAfterCall history next
      (syncInitialState aether app env history.replica.runtime nodeId shareId).effects runtime') :
    OutcomeIsTrue aether history next.view peer
      (syncInitialState aether app env history.replica.runtime nodeId shareId).effects
      runtime' := by
  obtain ⟨node, destination, index, state, hdestination, ⟨-, heffects, rfl⟩ |
    ⟨hphase, heffects, rfl⟩ | ⟨frozen, -, hfrozen, hbegun⟩⟩ := syncInitialState_cases hresult
  · rw [heffects]
    exact outcome_nothing h hgrows rfl
  · rw [heffects]
    have hpacket : ((⟨node.objId, state.shareId, state.pendingInitialPacketId⟩ : PacketKey),
        state.pendingInitialPacket) ∈ state.pendingPackets node.objId := by
      simp [LinkSyncState.pendingPackets, hphase]
    exact outcome_resend h hgrows (h.sent_of_pending
      (List.mem_of_find?_eq_some hdestination.found) hdestination.state_eq hpacket)
  · have hnode := h.live (List.mem_of_find?_eq_some hdestination.found)
    have hid := objId_of_findNode hdestination.found
    have hcovered : ∀ carried, carriedIdentities aether
        (initialPacket env.eventId nodeId shareId frozen) = some carried →
        carried = sharedIdentities node.journal := by
      intro carried hcarried
      rw [← hid] at hcarried
      exact carriedIdentities_initialPacket hlawful hfrozen hcarried
    refine outcome_of_packetBegun h hgrows hafter hdestination hbegun
      (fun state committed hcommit hstate => ?_) (packetKeyOf_encodeNodeStateFrame _) hvalid
      ?_ fun carried hcarried => ?_
    · refine stateIsTrue_of_beginInitialSync hstate hcommit fun carried hcarried => ?_
      rw [coveredEventIds_eq hlawful hfrozen, hcovered carried hcarried]
    · rw [← hid]
      exact cutsLocalStates_initialPacket hlawful hfrozen _ _
    · rw [hcovered carried hcarried]
      exact ⟨hnode.once, fun identity hidentity => hidentity⟩

/-- What `SyncNextEvent` does is true. -/
theorem outcome_syncNextEvent (h : DeliveryInvariant aether history peer)
    (hgrows : history.view.Grows next.view) (hvalid : env.eventId.isValid = true)
    (hresult : (syncNextEvent aether app env history.replica.runtime nodeId
      shareId).result = .ok runtime')
    (hafter : IsAfterCall history next
      (syncNextEvent aether app env history.replica.runtime nodeId shareId).effects runtime') :
    OutcomeIsTrue aether history next.view peer
      (syncNextEvent aether app env history.replica.runtime nodeId shareId).effects
      runtime' := by
  obtain ⟨node, destination, index, state, hdestination, ⟨heffects, rfl⟩ |
    ⟨hphase, hpending, heffects, rfl⟩ | ⟨record, event, payload, -, -, hfrozen, hbegun⟩⟩ :=
    syncNextEvent_cases hresult
  · rw [heffects]
    exact outcome_nothing h hgrows rfl
  · rw [heffects]
    have hpacket : ((⟨node.objId, state.shareId, state.pendingEventPacketId⟩ : PacketKey),
        state.pendingEventPacket) ∈ state.pendingPackets node.objId := by
      simp [LinkSyncState.pendingPackets, hphase, hpending]
    exact outcome_resend h hgrows (h.sent_of_pending
      (List.mem_of_find?_eq_some hdestination.found) hdestination.state_eq hpacket)
  · have hnode := h.live (List.mem_of_find?_eq_some hdestination.found)
    obtain ⟨hmem, horigin, -, -⟩ := undelivered_of_nextUndelivered hfrozen.next
    have hidentity : record.identity ∈ sharedIdentities node.journal :=
      List.mem_map_of_mem (List.mem_filter.mpr
        ⟨hmem, by simpa [EventRecord.hasSharedIdentity] using horigin⟩)
    have hcarries : ∀ carried, carriedIdentities aether
        (eventPacket aether app env.eventId nodeId shareId record event payload) =
          some carried → carried = [record.identity] := fun carried hcarried =>
      carriedIdentities_eventPacket (hnode.fits _ hidentity) hcarried
    refine outcome_of_packetBegun h hgrows hafter hdestination hbegun
      (fun state committed hcommit hstate =>
        stateIsTrue_of_beginIncrementalEventSync hstate hcommit hcarries)
      (packetKeyOf_encodeEventFrame _) hvalid (cutsLocalStates_eventPacket _ _ _ _ _ _)
      fun carried hcarried => ?_
    rw [hcarries carried hcarried]
    refine ⟨List.nodup_singleton _, fun identity hone => ?_⟩
    rw [List.mem_singleton.mp hone]
    exact hidentity

/-- An Ack that nothing awaits does nothing, and an awaited one is true. -/
theorem outcome_onAck (h : DeliveryInvariant aether history peer)
    (hgrows : history.view.Grows next.view) {sourceEndpoint : Bytes} {frame : AckFrame}
    (hvalid : frame.packetId.isValid = true)
    (hack : AckIsTrue aether peer history.view
      ⟨frame.targetNodeId, frame.destinationShareId, frame.packetId⟩)
    (hresult : (onAck env history.replica.runtime sourceEndpoint frame).result =
      .ok runtime') :
    OutcomeIsTrue aether history next.view peer
      (onAck env history.replica.runtime sourceEndpoint frame).effects runtime' := by
  rcases onAck_cases hresult with ⟨-, heffects, rfl⟩ |
    ⟨node, index, state, committed, hawaited, hcommit, heffects, rfl⟩
  · rw [heffects]
    exact outcome_nothing h hgrows rfl
  · have hmem := List.mem_of_find?_eq_some hawaited.found
    have hid := objId_of_findNode hawaited.found
    have hshare := shareId_of_findLinkSyncIndex hawaited.index_eq
      (linkSyncStateAt_eq_ok_iff.mp hawaited.state_eq)
    have hcommitted : NodeIsTrue aether next.view peer committed := by
      refine (nodeIsTrue_of_commit (h.live hmem) hcommit ?_).mono hgrows (.refl peer)
      intro found completed hfound happly htrue
      cases hawaited.state_eq.symm.trans hfound
      refine stateIsTrue_of_completion htrue hvalid hawaited.awaits happly ?_
        fun packet hpacket bytes hsent => ?_
      · rw [hid, hshare]
        exact hack
      · -- The packet that is pending is the one that was sent under its key.
        exact h.sent_eq hsent (h.sent_of_pending hmem hawaited.state_eq hpacket)
    rw [heffects]
    refine ⟨live_of_replaced h hgrows hcommitted rfl, ?_, ?_, ?_⟩
    · simp [Effect.SavesTrue, hcommitted]
    · simp [sentPackets]
    · simp

end Calls

end AppTraverse
