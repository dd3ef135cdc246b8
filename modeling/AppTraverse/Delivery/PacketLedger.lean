import AppTraverse.Delivery.LinkSyncRuns
import AppTraverse.Foundations.DurableOutbox
import Mathlib.Data.List.Flatten
import Mathlib.Data.List.Nodup

/-!
# The packets that a replica holds

The pending packets of the local sync states, read off the registered Nodes and off
the saved ones.  The lemmas say what replacing, saving, committing and loading a
Node does to these packets, and nothing about when that happens.
-/

namespace AppTraverse

open Foundations

/-- What names a packet: the Node, the relationship, and the ObjId of the Event that
froze it. -/
structure PacketKey where
  nodeId : ObjId
  shareId : ObjId
  packetId : ObjId
  deriving DecidableEq, Repr

/-- The three ids that follow the header of a frame. -/
def readPacketKey (input : Bytes) : Option PacketKey := do
  let (packetId, rest) ← readU32 input
  let (nodeId, rest) ← readU32 rest
  let (shareId, _) ← readU32 rest
  some ⟨⟨nodeId⟩, ⟨shareId⟩, ⟨packetId⟩⟩

/-- The packet that a NodeState or an Event frame carries; an Ack carries none. -/
def packetKeyOf (bytes : Bytes) : Option PacketKey :=
  match peekSyncFrameType bytes with
  | some .nodeState => readPacketKey (bytes.drop 2)
  | some .event => readPacketKey (bytes.drop 2)
  | _ => none

theorem readPacketKey_ids (packetId nodeId shareId : ObjId) (rest : Bytes) :
    readPacketKey (u32Bytes packetId.id ++ (u32Bytes nodeId.id ++
      (u32Bytes shareId.id ++ rest))) = some ⟨nodeId, shareId, packetId⟩ := by
  simp [readPacketKey]

theorem packetKeyOf_encodeNodeStateFrame (frame : NodeStateFrame) :
    packetKeyOf (encodeNodeStateFrame frame) =
      some ⟨frame.targetNodeId, frame.destinationShareId, frame.packetId⟩ := by
  unfold packetKeyOf
  rw [peekSyncFrameType_encodeNodeStateFrame]
  simp [encodeNodeStateFrame, header, appendObjId, appendU32, readPacketKey_ids]

theorem packetKeyOf_encodeEventFrame (frame : EventFrame) :
    packetKeyOf (encodeEventFrame frame) =
      some ⟨frame.targetNodeId, frame.destinationShareId, frame.packetId⟩ := by
  unfold packetKeyOf
  rw [peekSyncFrameType_encodeEventFrame]
  simp [encodeEventFrame, header, appendObjId, appendU32, appendU64, readPacketKey_ids]

theorem packetKeyOf_encodeAckFrame (frame : AckFrame) :
    packetKeyOf (encodeAckFrame frame) = none := by
  unfold packetKeyOf
  rw [peekSyncFrameType_encodeAckFrame]

/-- The packet a sync state has pending, if any. -/
def LinkSyncState.pendingPackets (state : LinkSyncState) (nodeId : ObjId) :
    List (PacketKey × Bytes) :=
  if state.initialSyncPhase = .pending then
    [(⟨nodeId, state.shareId, state.pendingInitialPacketId⟩, state.pendingInitialPacket)]
  else if state.initialSyncPhase = .complete ∧ state.hasPendingEvent = true then
    [(⟨nodeId, state.shareId, state.pendingEventPacketId⟩, state.pendingEventPacket)]
  else
    []

variable {α ε : Type}

/-- The packets of one `link_sync_states` entry. -/
def entryPackets (nodeId : ObjId) (entry : Ref LinkSyncState) : List (PacketKey × Bytes) :=
  match entry.obj with
  | none => []
  | some state => state.pendingPackets nodeId

/-- The packets of a Node. -/
def nodePackets (node : SharedNode α ε) : List (PacketKey × Bytes) :=
  node.fields.linkSyncStates.flatMap (entryPackets node.objId)

/-- The packets of all Nodes of a list. -/
def packetsOf (nodes : List (SharedNode α ε)) : Set (PacketKey × Bytes) :=
  {packet | ∃ node ∈ nodes, packet ∈ nodePackets node}

/-- The packets that effects hand to the transport. -/
def sentPackets (effects : List (Effect α ε)) : List (PacketKey × Bytes) :=
  effects.filterMap fun effect =>
    match effect with
    | .send _ bytes => (packetKeyOf bytes).map fun key => (key, bytes)
    | _ => none

section States

variable {state : LinkSyncState} {nodeId : ObjId}

theorem nodeId_of_mem_pendingPackets {packet : PacketKey × Bytes}
    (h : packet ∈ state.pendingPackets nodeId) : packet.1.nodeId = nodeId := by
  unfold LinkSyncState.pendingPackets at h
  split at h
  case isTrue =>
    rw [List.mem_singleton.mp h]
  case isFalse =>
    split at h
    case isTrue => rw [List.mem_singleton.mp h]
    case isFalse => cases h

theorem LinkSyncState.IsIdle.pendingPackets (h : state.IsIdle) :
    state.pendingPackets nodeId = [] := by
  simp [LinkSyncState.pendingPackets, h.not_pending, h.hasPendingEvent]

/-- A state that awaits a packet holds it, and nothing else. -/
theorem pendingPackets_of_awaits (nodeId : ObjId) {packetId : ObjId}
    (hvalid : packetId.isValid = true) (hawaits : state.awaits packetId = true) :
    ∃ bytes, state.pendingPackets nodeId = [(⟨nodeId, state.shareId, packetId⟩, bytes)] := by
  simp only [LinkSyncState.awaits, Bool.or_eq_true, Bool.and_eq_true,
    decide_eq_true_eq] at hawaits
  rcases hawaits with ⟨hphase, rfl⟩ | ⟨hphase, rfl⟩
  · exact ⟨state.pendingInitialPacket, by simp [LinkSyncState.pendingPackets, hphase]⟩
  · have hpending : state.hasPendingEvent = true := hvalid
    exact ⟨state.pendingEventPacket, by
      simp [LinkSyncState.pendingPackets, hphase, hpending]⟩

/-- The completion of a packet leaves nothing pending. -/
theorem pendingPackets_of_completion (hwell : state.WellFormed) {packetId eventId : ObjId}
    {committed : LinkSyncState} (hvalid : packetId.isValid = true)
    (hawaits : state.awaits packetId = true)
    (hcommit : state.commit eventId state.completion = .ok committed) :
    committed.pendingPackets nodeId = [] := by
  obtain ⟨-, -, happly⟩ := except_bind_eq_ok_iff.mp hcommit
  have hpermitted := isPermitted_completion hvalid hawaits
  unfold LinkSyncState.completion at happly
  split at happly
  case isTrue hphase =>
    -- In the pending phase no Event is pending.
    have hevent : state.hasPendingEvent = false := by
      cases hpending : state.hasPendingEvent with
      | false => rfl
      | true =>
          have hcomplete := (hwell.event hpending).1
          rw [hphase] at hcomplete
          cases hcomplete
    cases happly
    have hnone : state.pendingEventPacketId.isValid = false := hevent
    simp [LinkSyncState.pendingPackets, LinkSyncState.hasPendingEvent, hnone]
  case isFalse hphase =>
    obtain ⟨-, -, happly⟩ := except_bind_eq_ok_iff.mp happly
    cases happly
    simp [LinkSyncState.pendingPackets, hphase, LinkSyncState.hasPendingEvent]

/-- A begun initial synchronization holds its packet. -/
theorem pendingPackets_of_beginInitialSync (nodeId : ObjId) {eventId : ObjId} {packet : Bytes}
    {covered : List SharedEventId} {committed : LinkSyncState}
    (hcommit : state.commit eventId (.beginInitialSync packet covered) = .ok committed) :
    state.pendingPackets nodeId = [] ∧
      committed.pendingPackets nodeId = [(⟨nodeId, state.shareId, eventId⟩, packet)] := by
  obtain ⟨-, -, happly⟩ := except_bind_eq_ok_iff.mp hcommit
  obtain ⟨started, hstart, happly⟩ := except_bind_eq_ok_iff.mp happly
  obtain ⟨-, -, happly⟩ := except_bind_eq_ok_iff.mp happly
  cases happly
  rw [assertThat_eq_ok_iff, decide_eq_true_eq] at hstart
  simp [LinkSyncState.pendingPackets, hstart]

/-- A begun incremental synchronization holds its packet. -/
theorem pendingPackets_of_beginIncrementalEventSync (nodeId : ObjId) {eventId : ObjId}
    {identity : SharedEventId} {packet : Bytes} {committed : LinkSyncState}
    (hvalid : eventId.isValid = true)
    (hcommit : state.commit eventId (.beginIncrementalEventSync identity packet) =
      .ok committed) :
    state.pendingPackets nodeId = [] ∧
      committed.pendingPackets nodeId = [(⟨nodeId, state.shareId, eventId⟩, packet)] := by
  obtain ⟨-, -, happly⟩ := except_bind_eq_ok_iff.mp hcommit
  obtain ⟨complete, hcomplete, happly⟩ := except_bind_eq_ok_iff.mp happly
  obtain ⟨idle, hidle, happly⟩ := except_bind_eq_ok_iff.mp happly
  obtain ⟨-, -, happly⟩ := except_bind_eq_ok_iff.mp happly
  obtain ⟨-, -, happly⟩ := except_bind_eq_ok_iff.mp happly
  cases happly
  rw [assertThat_eq_ok_iff, decide_eq_true_eq] at hcomplete
  rw [assertThat_eq_ok_iff, Bool.not_eq_true'] at hidle
  constructor
  · simp [LinkSyncState.pendingPackets, hcomplete, hidle]
  · simp [LinkSyncState.pendingPackets, hcomplete, LinkSyncState.hasPendingEvent, hvalid]

end States

section Nodes

variable {nodes : List (SharedNode α ε)} {node node' : SharedNode α ε}

theorem nodeId_of_mem_nodePackets {packet : PacketKey × Bytes} (h : packet ∈ nodePackets node) :
    packet.1.nodeId = node.objId := by
  obtain ⟨entry, -, hentry⟩ := List.mem_flatMap.mp h
  unfold entryPackets at hentry
  split at hentry
  case h_1 => cases hentry
  case h_2 => exact nodeId_of_mem_pendingPackets hentry

/-- Packets after a Node took a new value: those of the new value, and those of the
other Nodes. -/
theorem mem_packetsOf_replaceNode {packet : PacketKey × Bytes}
    (h : packet ∈ packetsOf (replaceNode nodes node')) :
    packet ∈ nodePackets node' ∨
      (packet ∈ packetsOf nodes ∧ packet.1.nodeId ≠ node'.objId) := by
  obtain ⟨other, hother, hpacket⟩ := h
  obtain ⟨before, hbefore, rfl⟩ := List.mem_map.mp hother
  by_cases hsame : before.objId = node'.objId
  · rw [if_pos hsame] at hpacket
    exact Or.inl hpacket
  · rw [if_neg hsame] at hpacket
    refine Or.inr ⟨⟨before, hbefore, hpacket⟩, ?_⟩
    rw [nodeId_of_mem_nodePackets hpacket]
    exact hsame

/-- Packets after a Node was saved. -/
theorem mem_packetsOf_saveNodeValue {packet : PacketKey × Bytes} :
    packet ∈ packetsOf (saveNodeValue nodes node') ↔ packet ∈ nodePackets node' ∨
      (packet ∈ packetsOf nodes ∧ packet.1.nodeId ≠ node'.objId) := by
  unfold saveNodeValue
  split
  case isTrue hsaved =>
    obtain ⟨saved, hmem, hid⟩ := List.any_eq_true.mp hsaved
    rw [decide_eq_true_eq] at hid
    refine ⟨mem_packetsOf_replaceNode, ?_⟩
    rintro (hpacket | ⟨⟨other, hother, hpacket⟩, hid'⟩)
    · exact ⟨node', List.mem_map.mpr ⟨saved, hmem, if_pos hid⟩, hpacket⟩
    · refine ⟨other, List.mem_map.mpr ⟨other, hother, if_neg ?_⟩, hpacket⟩
      rw [← nodeId_of_mem_nodePackets hpacket]
      exact hid'
  case isFalse hnew =>
    have hother : ∀ other ∈ nodes, other.objId ≠ node'.objId := by
      intro other hother hid
      exact hnew (List.any_eq_true.mpr ⟨other, hother, decide_eq_true hid⟩)
    constructor
    · rintro ⟨other, hmem, hpacket⟩
      rcases List.mem_append.mp hmem with hold | hadded
      · refine Or.inr ⟨⟨other, hold, hpacket⟩, ?_⟩
        rw [nodeId_of_mem_nodePackets hpacket]
        exact hother other hold
      · rw [List.mem_singleton.mp hadded] at hpacket
        exact Or.inl hpacket
    · rintro (hpacket | ⟨⟨other, hmem, hpacket⟩, -⟩)
      · exact ⟨node', by simp, hpacket⟩
      · exact ⟨other, List.mem_append_left _ hmem, hpacket⟩

/-- Dropped and new sync states bring no packet. -/
theorem nodePackets_sublist_of_statesFrom (hid : node'.objId = node.objId)
    (h : StatesFrom node.fields.linkSyncStates node'.fields.linkSyncStates) :
    (nodePackets node').Sublist (nodePackets node) := by
  obtain ⟨kept, created, hkept, hstates, hcreated⟩ := h
  have hnone : created.flatMap (entryPackets node.objId) = [] := by
    rw [List.flatMap_eq_nil_iff]
    intro entry hentry
    obtain ⟨shareId, link, hobj⟩ := hcreated entry hentry
    rw [entryPackets, hobj]
    exact (LinkSyncState.isIdle_fresh shareId link).pendingPackets
  rw [nodePackets, hstates, hid, List.flatMap_append, hnone, List.append_nil]
  exact hkept.flatMap _

/-- A commit on one sync state changes the packets of that state only. -/
theorem nodePackets_of_commit {index : Nat} {state : LinkSyncState}
    (committed : LinkSyncState) (hstate : linkSyncStateAt node index = .ok state) :
    ∃ before after,
      nodePackets node = before ++ state.pendingPackets node.objId ++ after ∧
      nodePackets (setLinkSyncStateAt node index committed) =
        before ++ committed.pendingPackets node.objId ++ after := by
  obtain ⟨found, hfound, hobj⟩ :=
    Option.bind_eq_some_iff.mp (linkSyncStateAt_eq_ok_iff.mp hstate)
  obtain ⟨hlt, hget⟩ := List.getElem?_eq_some_iff.mp hfound
  have hsplit : node.fields.linkSyncStates =
      node.fields.linkSyncStates.take index ++
        found :: node.fields.linkSyncStates.drop (index + 1) := by
    rw [← hget, List.getElem_cons_drop, List.take_append_drop]
  have hmodified : (node.fields.linkSyncStates.modify index fun entry =>
      { entry with obj := some committed }) =
      node.fields.linkSyncStates.take index ++
        { found with obj := some committed } ::
          node.fields.linkSyncStates.drop (index + 1) := by
    rw [List.modify_eq_take_cons_drop hlt, hget]
  refine ⟨(node.fields.linkSyncStates.take index).flatMap (entryPackets node.objId),
    (node.fields.linkSyncStates.drop (index + 1)).flatMap (entryPackets node.objId), ?_, ?_⟩
  · rw [nodePackets]
    conv_lhs => rw [hsplit]
    rw [List.flatMap_append, List.flatMap_cons, entryPackets, hobj, List.append_assoc]
  · show ((node.fields.linkSyncStates.modify index fun entry =>
      { entry with obj := some committed }).flatMap (entryPackets node.objId)) = _
    rw [hmodified, List.flatMap_append, List.flatMap_cons, List.append_assoc]
    rfl

end Nodes

end AppTraverse
