import AppTraverse.Cluster.HonestReceipts
import AppTraverse.Cluster.SharedContents

/-!
# What a replica states about Events

A replica states the contents of its journals, in memory and saved, and those of the
packets it has sent.  `HistoryIsCovered` bounds them by a set of contents.  A step
stays within the set as long as what the step brings does: a frame brings what it
carries, a shared commit brings its Event, and nothing else brings anything
(`covered_of_step`).  So an Event is whatever its author committed, at every replica
and in every packet.
-/

namespace AppTraverse

open Foundations

variable {α ε : Type}

/-- Contents, under the Nodes they belong to. -/
abbrev ContentSet (ε : Type) := ObjId → SharedContent ε → Prop

section Definitions

variable (aether : Aether α ε) (app : AppClass α ε) (stated : ContentSet ε)

/-- The shared records of a Node have their Events, and say what is stated. -/
structure NodeIsCovered (node : SharedNode α ε) : Prop where
  resolved : EventsAreResolved node
  contents : ∀ content ∈ sharedContents node.journal, stated node.objId content

/-- A packet carries what is stated. -/
def PacketIsCovered (packet : PacketKey × Bytes) : Prop :=
  ∀ content ∈ carriedContents aether packet.2, stated packet.1.nodeId content

/-- A replica says nothing but what is stated. -/
structure HistoryIsCovered (history : PacketHistory α ε) : Prop where
  nodes : ∀ node ∈ history.replica.runtime.nodes ++ history.replica.storage.nodes,
    NodeIsCovered stated node
  packets : ∀ packet ∈ history.sent, PacketIsCovered aether stated packet

/-- The frame and the commit of an action are within what is stated. -/
def ActionIsCovered : ReplicaAction ε → Prop
  | .receive _ _ bytes => ∀ key, packetKeyOf bytes = some key →
      PacketIsCovered aether stated (key, bytes)
  | .operate _ nowUs nodeId operation => ∀ event identity order,
      operation = .commitShared event identity order →
      stated nodeId (sharedRecord event identity order nowUs).sharedContent
  | _ => True

/-- A Node is frozen only if one id names one object of its graph.  A Domain has one
object for each id. -/
def FreezesOneObjectEach (replica : Replica α ε) : ReplicaAction ε → Prop
  | .syncInitialState _ nodeId _ => ∀ node, findNode replica.runtime.nodes nodeId = some node →
      ObjectsAgree (reachableObjects aether app .networkShared node)
  | _ => True

/-- What a replica states. -/
def PacketHistory.States (history : PacketHistory α ε) : ContentSet ε := fun nodeId content =>
  (∃ node ∈ history.replica.runtime.nodes ++ history.replica.storage.nodes,
    node.objId = nodeId ∧ content ∈ sharedContents node.journal) ∨
  ∃ packet ∈ history.sent, packet.1.nodeId = nodeId ∧ content ∈ carriedContents aether packet.2

end Definitions

variable {aether : Aether α ε} {app : AppClass α ε} {stated : ContentSet ε}

/-- What a covered replica states is stated. -/
theorem HistoryIsCovered.of_states {history : PacketHistory α ε}
    (h : HistoryIsCovered aether stated history) {nodeId : ObjId} {content : SharedContent ε}
    (hstates : history.States aether nodeId content) : stated nodeId content := by
  rcases hstates with ⟨node, hnode, rfl, hmem⟩ | ⟨packet, hpacket, rfl, hmem⟩
  · exact (h.nodes node hnode).contents content hmem
  · exact h.packets packet hpacket content hmem

section Nodes

variable {node changed : SharedNode α ε}

theorem NodeIsCovered.of_sameJournal (h : NodeIsCovered stated node)
    (hid : changed.objId = node.objId) (hjournal : changed.journal = node.journal) :
    NodeIsCovered stated changed where
  resolved := by
    intro record hrecord
    rw [hjournal] at hrecord
    exact h.resolved record hrecord
  contents := by
    rw [hjournal, hid]
    exact h.contents

/-- A record that is inserted adds its content, if it is shared. -/
theorem NodeIsCovered.of_recordInserted {cls : NodeClass (SharedNodeFields α)
    (BaseSnapshot α) (SharedNodeEvent ε)} {added : EventRecord (SharedNodeEvent ε)}
    {nowUs : UInt64} (h : NodeIsCovered stated node)
    (hinserted : RecordInserted cls node added nowUs changed)
    (hadded : added.hasSharedIdentity = true → stated node.objId added.sharedContent) :
    NodeIsCovered stated changed := by
  have hmem : ∀ record ∈ changed.journal,
      record = added.stamped nowUs ∨ record ∈ node.journal := by
    intro record hrecord
    rw [hinserted.journal, insertedJournal] at hrecord
    exact List.mem_cons.mp ((lowerBoundInsert_perm eventRecordOrderLess _ _).subset hrecord)
  constructor
  case resolved =>
    intro record hrecord hshared
    rcases hmem record hrecord with rfl | hold
    · rw [stamped_event]
      exact ⟨hinserted.eventValid, hinserted.eventLoaded⟩
    · exact h.resolved record hold hshared
  case contents =>
    intro content hcontent
    obtain ⟨record, hrecord, hshared, rfl⟩ := mem_sharedContents.mp hcontent
    rw [hinserted.objId]
    rcases hmem record hrecord with rfl | hold
    · rw [stamped_hasSharedIdentity] at hshared
      rw [sharedContent_stamped]
      exact hadded hshared
    · exact h.contents _ (mem_sharedContents.mpr ⟨record, hold, hshared, rfl⟩)

/-- An operation adds at most the content that it commits. -/
theorem NodeIsCovered.of_run {ids : Nat → ObjId} {nowUs : UInt64}
    {operation : NodeOperation ε} (h : NodeIsCovered stated node)
    (hkeeps : operation ≠ .compactJournal)
    (hrun : operation.run app ids nowUs node = .ok changed)
    (hcommits : ∀ event identity order, operation = .commitShared event identity order →
      stated node.objId (sharedRecord event identity order nowUs).sharedContent) :
    NodeIsCovered stated changed := by
  rcases journal_of_operation hkeeps hrun with hsame | ⟨event, hinserted⟩ |
    ⟨event, identity, order, hcommit, hinserted⟩
  · exact h.of_sameJournal (objId_of_operated (nodeOperated_of_run hrun)) hsame
  · exact h.of_recordInserted hinserted fun hshared => by cases hshared
  · exact h.of_recordInserted hinserted fun _ => hcommits event identity order hcommit

/-- The effect saves no Node that says more. -/
def Effect.SavesCovered (stated : ContentSet ε) : Effect α ε → Prop
  | .saveNode node => NodeIsCovered stated node
  | _ => True

theorem nodesAreCovered_of_perform {effects : List (Effect α ε)}
    {storage : ReplicaStorage α ε} (h : ∀ node ∈ storage.nodes, NodeIsCovered stated node)
    (heffects : ∀ effect ∈ effects, effect.SavesCovered stated) :
    ∀ node ∈ (effects.foldl ReplicaStorage.perform storage).nodes,
      NodeIsCovered stated node := by
  induction effects generalizing storage with
  | nil => exact h
  | cons effect rest ih =>
      rw [List.forall_mem_cons] at heffects
      refine ih ?_ heffects.2
      cases effect with
      | commitObjectGraph graph => exact h
      | storeObject id layers => exact h
      | saveNode node => exact forall_saveNodeValue h heffects.1
      | saveLinkSyncState nodeId entry =>
          intro node hnode
          obtain ⟨before, hbefore, rfl⟩ := List.mem_map.mp hnode
          split
          case isTrue => exact (h before hbefore).of_sameJournal rfl rfl
          case isFalse => exact h before hbefore
      | bindNode endpoint node bound => exact h
      | send destination bytes => exact h

end Nodes

section Outcomes

variable {history : PacketHistory α ε} {peer : ReplicaView} {env : StepEnv}
  {runtime' : SharedSyncRuntime α ε} {nodeId shareId : ObjId}

/-- What an operation did is within what is stated. -/
structure OutcomeIsCovered (aether : Aether α ε) (stated : ContentSet ε)
    (history : PacketHistory α ε) (effects : List (Effect α ε))
    (runtime' : SharedSyncRuntime α ε) : Prop where
  live : ∀ node ∈ runtime'.nodes, NodeIsCovered stated node
  saves : ∀ effect ∈ effects, effect.SavesCovered stated
  packets : ∀ packet ∈ sentPackets effects,
    packet ∈ history.sent ∨ PacketIsCovered aether stated packet

theorem HistoryIsCovered.live (h : HistoryIsCovered aether stated history)
    {node : SharedNode α ε} (hnode : node ∈ history.replica.runtime.nodes) :
    NodeIsCovered stated node :=
  h.nodes node (List.mem_append_left _ hnode)

theorem HistoryIsCovered.live_of_same (h : HistoryIsCovered aether stated history)
    (hnodes : runtime'.nodes = history.replica.runtime.nodes) :
    ∀ node ∈ runtime'.nodes, NodeIsCovered stated node := by
  intro node hnode
  rw [hnodes] at hnode
  exact h.live hnode

theorem covered_nothing (h : HistoryIsCovered aether stated history)
    (hnodes : runtime'.nodes = history.replica.runtime.nodes) :
    OutcomeIsCovered aether stated history [] runtime' :=
  ⟨h.live_of_same hnodes, by simp, by simp [sentPackets]⟩

theorem covered_resend (h : HistoryIsCovered aether stated history)
    (hdelivery : DeliveryInvariant aether history peer) {key : PacketKey}
    {destination bytes : Bytes} (hsent : (key, bytes) ∈ history.sent) :
    OutcomeIsCovered aether stated history [.send destination bytes]
      history.replica.runtime where
  live := h.live_of_same rfl
  saves := by simp [Effect.SavesCovered]
  packets := by
    intro packet hpacket
    simp only [sentPackets, List.filterMap_cons, hdelivery.named hsent, Option.map_some,
      List.filterMap_nil, List.mem_singleton] at hpacket
    rw [hpacket]
    exact Or.inl hsent

/-- A packet that is begun carries part of what its Node says. -/
theorem covered_of_packetBegun (h : HistoryIsCovered aether stated history)
    {node : SharedNode α ε} {destination : Bytes} {index : Nat} {state : LinkSyncState}
    {eventId : ObjId} {event : LinkSyncEvent} {packet : Bytes} {effects : List (Effect α ε)}
    (hdestination : IsSyncDestination history.replica.runtime nodeId shareId node destination
      index state)
    (hbegun : PacketBegun history.replica.runtime node index destination eventId event packet
      effects runtime')
    (hkey : packetKeyOf packet = some ⟨nodeId, shareId, eventId⟩)
    (hcarries : ∀ content ∈ carriedContents aether packet,
      content ∈ sharedContents node.journal) :
    OutcomeIsCovered aether stated history effects runtime' := by
  obtain ⟨committed, hcommit, heffects, hruntime⟩ := hbegun.outcome
  have hsame := sameShared_of_commitLinkSyncEvent hcommit
  have hnode := h.live (List.mem_of_find?_eq_some hdestination.found)
  have hcommitted := hnode.of_sameJournal hsame.objId hsame.journal
  rw [heffects, hruntime]
  refine ⟨forall_replaceNode (fun _ hmem => h.live hmem) hcommitted,
    by simp [Effect.SavesCovered, hcommitted], fun sent hsent => Or.inr fun content hmem => ?_⟩
  simp only [sentPackets, List.filterMap_cons, hkey, Option.map_some, List.filterMap_nil,
    List.mem_singleton] at hsent
  subst hsent
  rw [← objId_of_findNode hdestination.found]
  exact hnode.contents content (hcarries content hmem)

theorem covered_syncInitialState (hlawful : aether.Lawful)
    (h : HistoryIsCovered aether stated history)
    (hdelivery : DeliveryInvariant aether history peer)
    (hagree : FreezesOneObjectEach aether app history.replica
      (.syncInitialState env nodeId shareId : ReplicaAction ε))
    (hresult : (syncInitialState aether app env history.replica.runtime nodeId
      shareId).result = .ok runtime') :
    OutcomeIsCovered aether stated history
      (syncInitialState aether app env history.replica.runtime nodeId shareId).effects
      runtime' := by
  obtain ⟨node, destination, index, state, hdestination, ⟨-, heffects, rfl⟩ |
    ⟨hphase, heffects, rfl⟩ | ⟨frozen, -, hfrozen, hbegun⟩⟩ := syncInitialState_cases hresult
  · rw [heffects]
    exact covered_nothing h rfl
  · rw [heffects]
    have hpacket : ((⟨node.objId, state.shareId, state.pendingInitialPacketId⟩ : PacketKey),
        state.pendingInitialPacket) ∈ state.pendingPackets node.objId := by
      simp [LinkSyncState.pendingPackets, hphase]
    exact covered_resend h hdelivery (hdelivery.sent_of_pending
      (List.mem_of_find?_eq_some hdestination.found) hdestination.state_eq hpacket)
  · have hnode := h.live (List.mem_of_find?_eq_some hdestination.found)
    refine covered_of_packetBegun h hdestination hbegun (packetKeyOf_encodeNodeStateFrame _)
      fun content hmem => ?_
    rw [← objId_of_findNode hdestination.found] at hmem
    exact mem_carriedContents_initialPacket hlawful (hagree node hdestination.found)
      hnode.resolved hfrozen hmem

theorem covered_syncNextEvent (hlawful : aether.Lawful)
    (h : HistoryIsCovered aether stated history)
    (hdelivery : DeliveryInvariant aether history peer)
    (hresult : (syncNextEvent aether app env history.replica.runtime nodeId
      shareId).result = .ok runtime') :
    OutcomeIsCovered aether stated history
      (syncNextEvent aether app env history.replica.runtime nodeId shareId).effects
      runtime' := by
  obtain ⟨node, destination, index, state, hdestination, ⟨heffects, rfl⟩ |
    ⟨hphase, hpending, heffects, rfl⟩ | ⟨record, event, payload, -, -, hfrozen, hbegun⟩⟩ :=
    syncNextEvent_cases hresult
  · rw [heffects]
    exact covered_nothing h rfl
  · rw [heffects]
    have hpacket : ((⟨node.objId, state.shareId, state.pendingEventPacketId⟩ : PacketKey),
        state.pendingEventPacket) ∈ state.pendingPackets node.objId := by
      simp [LinkSyncState.pendingPackets, hphase, hpending]
    exact covered_resend h hdelivery (hdelivery.sent_of_pending
      (List.mem_of_find?_eq_some hdestination.found) hdestination.state_eq hpacket)
  · have hmem := List.mem_of_find?_eq_some hdestination.found
    obtain ⟨hrecord, horigin, -, -⟩ := undelivered_of_nextUndelivered hfrozen.next
    have hshared : record.hasSharedIdentity = true := by
      simpa [EventRecord.hasSharedIdentity] using horigin
    have hfits := (hdelivery.live hmem).fits record.identity
      (List.mem_map_of_mem (List.mem_filter.mpr ⟨hrecord, hshared⟩))
    refine covered_of_packetBegun h hdestination hbegun (packetKeyOf_encodeEventFrame _)
      fun content hcontent => ?_
    rw [mem_carriedContents_eventPacket hlawful hfits hfrozen.loaded hfrozen.frozen hcontent]
    exact mem_sharedContents.mpr ⟨record, hrecord, hshared, rfl⟩

/-- An Ack brings nothing. -/
theorem covered_onAck (h : HistoryIsCovered aether stated history) {sourceEndpoint : Bytes}
    {frame : AckFrame}
    (hresult : (onAck env history.replica.runtime sourceEndpoint frame).result =
      .ok runtime') :
    OutcomeIsCovered aether stated history
      (onAck env history.replica.runtime sourceEndpoint frame).effects runtime' := by
  rcases onAck_cases hresult with ⟨-, heffects, rfl⟩ |
    ⟨node, index, state, committed, hawaited, hcommit, heffects, rfl⟩
  · rw [heffects]
    exact covered_nothing h rfl
  · have hsame := sameShared_of_commitLinkSyncEvent hcommit
    have hcommitted := (h.live (List.mem_of_find?_eq_some hawaited.found)).of_sameJournal
      hsame.objId hsame.journal
    rw [heffects]
    exact ⟨forall_replaceNode (fun _ hmem => h.live hmem) hcommitted,
      by simp [Effect.SavesCovered, hcommitted], by simp [sentPackets]⟩

/-- An Event frame brings the content it carries. -/
theorem covered_onEvent (h : HistoryIsCovered aether stated history) {sourceEndpoint bytes : Bytes}
    {frame : EventFrame}
    (hdecode : decodeEventFrame (aether.derives aether.eventClassId) bytes = some frame)
    (hframe : ∀ key, packetKeyOf bytes = some key → PacketIsCovered aether stated (key, bytes))
    (hresult : (onEvent aether app env history.replica sourceEndpoint frame).result =
      .ok runtime') :
    OutcomeIsCovered aether stated history
      (onEvent aether app env history.replica sourceEndpoint frame).effects runtime' := by
  have hquiet : sentPackets [(ackEffect sourceEndpoint frame.packetId frame.targetNodeId
      frame.destinationShareId : Effect α ε)] = [] :=
    sentPackets_eq_nil fun effect heffect => by
      rw [List.mem_singleton.mp heffect]
      exact sendAck_sendsNoPacket _ _
  rcases onEvent_cases hresult with ⟨heffects, rfl⟩ |
    ⟨node, parsed, wireRootId, existing, -, -, -, heffects, rfl⟩ |
    ⟨node, parsed, wireRootId, localEvent, inserted, hadmissible, hinserted, heffects, rfl⟩
  · rw [heffects]
    exact covered_nothing h rfl
  · rw [heffects]
    refine ⟨h.live_of_same rfl, by simp [ackEffect, Effect.SavesCovered], ?_⟩
    rw [hquiet]
    simp
  · obtain ⟨-, -, hrecord⟩ := recordInserted_of_commitShared hinserted.commit
    have hcontent := hframe _ (packetKeyOf_of_decodeEventFrame hdecode) (frame.content aether)
      (by rw [carriedContents_of_event hdecode]; exact List.mem_singleton_self _)
    have hcovered : NodeIsCovered stated inserted := by
      refine (h.live (List.mem_of_find?_eq_some hadmissible.found)).of_recordInserted hrecord
        fun _ => ?_
      rw [content_of_importedEvent hadmissible hinserted, objId_of_findNode hadmissible.found]
      exact hcontent
    rw [heffects]
    refine ⟨forall_replaceNode (fun _ hmem => h.live hmem) hcovered,
      by simp [Effect.SavesCovered, hcovered, ackEffect], ?_⟩
    change ∀ packet ∈ sentPackets [(ackEffect sourceEndpoint frame.packetId
      frame.targetNodeId frame.destinationShareId : Effect α ε)], _
    rw [hquiet]
    simp

/-- A snapshot brings the contents it carries. -/
theorem covered_onNodeState (h : HistoryIsCovered aether stated history)
    {sourceEndpoint bytes : Bytes} {frame : NodeStateFrame}
    (hscratch : ScratchIdsFresh aether env frame.payload)
    (hdecode : decodeNodeStateFrame bytes = some frame)
    (hcuts : CutsLocalStates aether bytes) (hvalid : frame.packetId.isValid = true)
    (hframe : ∀ key, packetKeyOf bytes = some key → PacketIsCovered aether stated (key, bytes))
    (hresult : (onNodeState aether app env history.replica sourceEndpoint frame).result =
      .ok runtime') :
    OutcomeIsCovered aether stated history
      (onNodeState aether app env history.replica sourceEndpoint frame).effects runtime' := by
  have hbinding : ∀ runtime node, (∀ effect ∈ (bindAndAcknowledge (α := α) (ε := ε) env runtime
      node sourceEndpoint frame).effects, effect.SavesCovered stated) ∧
      sentPackets (bindAndAcknowledge env runtime node sourceEndpoint frame).effects = [] := by
    intro runtime node
    refine ⟨fun effect hmem => ?_, sentPackets_eq_nil fun effect hmem =>
      (bindAndAcknowledge_savesNothing effect hmem).1⟩
    rcases answers_of_bindAndAcknowledge hmem with ⟨bound, rfl⟩ | rfl
    · trivial
    · trivial
  rcases onNodeState_cases hcuts hdecode hscratch hvalid hresult with
    ⟨hnil, rfl⟩ | ⟨node, -, -, heffects, hnodes⟩ |
    ⟨imported, completed, noted, entry, hregistered⟩
  · rw [hnil]
    exact covered_nothing h rfl
  · rw [heffects]
    refine ⟨h.live_of_same hnodes, (hbinding _ _).1, ?_⟩
    rw [(hbinding _ _).2]
    simp
  · obtain ⟨hid, hjournal, -, -⟩ := hregistered.noted_spec
    obtain ⟨hsaved, hquiet⟩ := hregistered.effects_spec
    obtain ⟨hcontents, hresolved⟩ := sharedContents_of_import hscratch hregistered.admitted
    -- The Node has exactly what the payload carries.
    have hnoted : NodeIsCovered stated noted := by
      refine ⟨fun record hrecord => hresolved record (hjournal ▸ hrecord), fun content hmem => ?_⟩
      rw [hjournal, hcontents] at hmem
      rw [hid]
      refine hframe _ (packetKeyOf_of_decodeNodeStateFrame hdecode) content ?_
      rwa [carriedContents_of_nodeState hdecode]
    refine ⟨fun node hnode => ?_, fun effect hmem => ?_, by rw [hquiet]; simp⟩
    · rw [hregistered.registered.nodes] at hnode
      rcases List.mem_append.mp hnode with hold | hnew
      · exact h.live hold
      · rw [List.mem_singleton.mp hnew]
        exact hnoted
    · rcases hsaved effect hmem with hnothing | rfl | rfl
      · cases effect with
        | saveNode node => exact hnothing.elim
        | _ => trivial
      · trivial
      · exact hnoted

end Outcomes

section Steps

variable {history next : PacketHistory α ε} {peer : ReplicaView}

/-- What a received frame does is within what it carries. -/
theorem covered_onBytes (h : HistoryIsCovered aether stated history) {env : StepEnv}
    {sourceEndpoint bytes : Bytes} {runtime' : SharedSyncRuntime α ε}
    (hscratch : ∀ frame, decodeNodeStateFrame bytes = some frame →
      ScratchIdsFresh aether env frame.payload)
    (htrue : FrameIsTrue aether peer history.view bytes)
    (hframe : ∀ key, packetKeyOf bytes = some key → PacketIsCovered aether stated (key, bytes))
    (hresult : (onBytes aether app env history.replica sourceEndpoint bytes).result =
      .ok runtime') :
    OutcomeIsCovered aether stated history
      (onBytes aether app env history.replica sourceEndpoint bytes).effects runtime' := by
  unfold onBytes at hresult ⊢
  split at hresult
  case h_1 =>
    cases hresult
    exact covered_nothing h rfl
  case h_2 hpeek =>
    split at hresult
    case h_1 =>
      cases hresult
      exact covered_nothing h rfl
    case h_2 frame hdecode =>
      have hpacket := (htrue.packet _ (packetKeyOf_of_decodeNodeStateFrame hdecode)).2
      exact covered_onNodeState h (hscratch frame hdecode) hdecode hpacket.cuts hpacket.valid
        hframe hresult
  case h_3 =>
    split at hresult
    case h_1 =>
      cases hresult
      exact covered_nothing h rfl
    case h_2 frame hdecode => exact covered_onAck h hresult
  case h_4 hpeek =>
    split at hresult
    case h_1 =>
      cases hresult
      exact covered_nothing h rfl
    case h_2 frame hdecode => exact covered_onEvent h hdecode hframe hresult

/-- Whatever an honest replica does is within what it said and what the action brings. -/
theorem covered_outcome (hlawful : aether.Lawful) {action : ReplicaAction ε}
    {runtime' : SharedSyncRuntime α ε} (h : HistoryIsCovered aether stated history)
    (hdelivery : DeliveryInvariant aether history peer)
    (hdraws : DrawsNewIds aether history action)
    (hhonest : ActsHonestly aether history peer action)
    (hagree : FreezesOneObjectEach aether app history.replica action)
    (hbrings : ActionIsCovered aether stated action)
    (hresult : (action.outcome aether app history.replica).result = .ok runtime') :
    OutcomeIsCovered aether stated history
      (action.outcome aether app history.replica).effects runtime' := by
  cases action with
  | receive env sourceEndpoint bytes =>
      exact covered_onBytes h hdraws.2.2 hhonest hbrings hresult
  | syncInitialState env nodeId shareId =>
      exact covered_syncInitialState hlawful h hdelivery hagree hresult
  | syncNextEvent env nodeId shareId =>
      exact covered_syncNextEvent hlawful h hdelivery hresult
  | operate ids nowUs nodeId operation =>
      simp only [ReplicaAction.outcome] at hresult ⊢
      split at hresult
      case h_1 => cases hresult
      case h_2 node hfound =>
        cases hrun : operation.run app ids nowUs node with
        | error reason => simp [hrun] at hresult
        | ok changed =>
            simp only [hrun, pureStep_ok_bind, EffectLog.pure_result, EffectLog.pure_effects,
              Except.ok.injEq] at hresult ⊢
            have hchanged := (h.live (List.mem_of_find?_eq_some hfound)).of_run hhonest.1 hrun
              (by rw [objId_of_findNode hfound]; exact hbrings)
            refine ⟨?_, by simp, by simp [sentPackets]⟩
            rw [← hresult]
            exact forall_replaceNode (fun _ hmem => h.live hmem) hchanged
  | saveNode nodeId =>
      simp only [ReplicaAction.outcome] at hresult ⊢
      split at hresult
      case h_1 => cases hresult
      case h_2 node hfound =>
        simp only [perform_bind, EffectLog.pure_result, EffectLog.pure_effects,
          Except.ok.injEq] at hresult ⊢
        have hnode := h.live (List.mem_of_find?_eq_some hfound)
        refine ⟨h.live_of_same (by rw [← hresult]), ?_, by simp [sentPackets]⟩
        simpa [Effect.SavesCovered] using hnode
  | restart =>
      cases hresult
      refine ⟨fun node hnode => ?_, by simp [ReplicaAction.outcome],
        by simp [ReplicaAction.outcome, sentPackets]⟩
      obtain ⟨saved, hsaved, rfl⟩ := List.mem_map.mp hnode
      exact (h.nodes saved (List.mem_append_right _ hsaved)).of_sameJournal rfl rfl

/-- A step says nothing but what was said and what it brings. -/
theorem covered_of_step (hlawful : aether.Lawful) {action : ReplicaAction ε}
    (h : HistoryIsCovered aether stated history)
    (hdelivery : DeliveryInvariant aether history peer)
    (hdraws : DrawsNewIds aether history action)
    (hhonest : ActsHonestly aether history peer action)
    (hagree : FreezesOneObjectEach aether app history.replica action)
    (hbrings : ActionIsCovered aether stated action)
    (hstep : packetStep aether app history action = some next) :
    HistoryIsCovered aether stated next := by
  obtain ⟨runtime', hresult, rfl⟩ := packetStep_eq_some_iff.mp hstep
  have hcovered := covered_outcome hlawful h hdelivery hdraws hhonest hagree hbrings hresult
  refine ⟨fun node hnode => ?_, fun packet hpacket => ?_⟩
  · rcases List.mem_append.mp hnode with hlive | hsaved
    · exact hcovered.live node hlive
    · exact nodesAreCovered_of_perform
        (fun saved hmem => h.nodes saved (List.mem_append_right _ hmem)) hcovered.saves node hsaved
  · rcases List.mem_append.mp hpacket with hold | hnew
    · exact h.packets packet hold
    · rcases hcovered.packets packet hnew with hsent | hnow
      · exact h.packets packet hsent
      · exact hnow

end Steps

end AppTraverse
