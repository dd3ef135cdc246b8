import AppTraverse.Cluster.DeliveryKnowledge

/-!
# What the Events of a sync state keep

One lemma for each way in which the runtime commits an Event on a local sync state:
the state stays true, given what the caller knows at that point.  A Begin Event
records what its packet carries, a completion relies on the Ack, and the two Events
of a received snapshot rely on the packet that brought it.
-/

namespace AppTraverse

open Foundations

variable {α ε : Type} {aether : Aether α ε} {own peer : ReplicaView}
  {nodeId eventId : ObjId} {state committed : LinkSyncState}

/-- A Begin Event records what its snapshot covers. -/
theorem stateIsTrue_of_beginInitialSync {packet : Bytes} {covered : List SharedEventId}
    (h : StateIsTrue aether own peer nodeId state)
    (hcommit : state.commit eventId (.beginInitialSync packet covered) = .ok committed)
    (hcovered : ∀ carried, carriedIdentities aether packet = some carried →
      covered = carried) :
    StateIsTrue aether own peer nodeId committed := by
  obtain ⟨-, -, happly⟩ := except_bind_eq_ok_iff.mp hcommit
  obtain ⟨-, -, happly⟩ := except_bind_eq_ok_iff.mp happly
  obtain ⟨-, -, happly⟩ := except_bind_eq_ok_iff.mp happly
  cases happly
  exact ⟨h.delivered, fun _ => hcovered, h.event, h.received⟩

/-- A Begin Event records the Event that its packet carries. -/
theorem stateIsTrue_of_beginIncrementalEventSync {packet : Bytes} {identity : SharedEventId}
    (h : StateIsTrue aether own peer nodeId state)
    (hcommit : state.commit eventId (.beginIncrementalEventSync identity packet) =
      .ok committed)
    (hcarried : ∀ carried, carriedIdentities aether packet = some carried →
      carried = [identity]) :
    StateIsTrue aether own peer nodeId committed := by
  obtain ⟨-, -, happly⟩ := except_bind_eq_ok_iff.mp hcommit
  obtain ⟨-, -, happly⟩ := except_bind_eq_ok_iff.mp happly
  obtain ⟨-, -, happly⟩ := except_bind_eq_ok_iff.mp happly
  obtain ⟨-, -, happly⟩ := except_bind_eq_ok_iff.mp happly
  obtain ⟨-, -, happly⟩ := except_bind_eq_ok_iff.mp happly
  cases happly
  exact ⟨h.delivered, h.initial, fun _ => hcarried, h.received⟩

/-- The sender of a snapshot holds what the snapshot brought. -/
theorem stateIsTrue_of_completeFromReceivedSnapshot {received : List SharedEventId}
    (h : StateIsTrue aether own peer nodeId state)
    (hcommit : state.commit eventId (.completeFromReceivedSnapshot received) = .ok committed)
    (hheld : ∀ identity ∈ received, peer.holds nodeId identity) :
    StateIsTrue aether own peer nodeId committed := by
  obtain ⟨-, -, happly⟩ := except_bind_eq_ok_iff.mp hcommit
  cases happly
  refine ⟨fun identity hidentity => ?_, by simp, h.event, h.received⟩
  rcases LinkSyncState.mem_addDelivered.mp hidentity with hold | hnew
  · exact h.delivered identity hold
  · exact hheld identity (List.mem_filter.mp hnew).1

/-- A noted packet is one that the other side sent and this side holds. -/
theorem stateIsTrue_of_noteInitialSyncReceived {packetId : ObjId} {bytes : Bytes}
    {carried : List SharedEventId} (h : StateIsTrue aether own peer nodeId state)
    (hcommit : state.commit eventId (.noteInitialSyncReceived packetId) = .ok committed)
    (hsent : peer.sent ⟨nodeId, state.shareId, packetId⟩ bytes)
    (hcarried : carriedIdentities aether bytes = some carried)
    (hheld : ∀ identity ∈ carried, own.holds nodeId identity) :
    StateIsTrue aether own peer nodeId committed := by
  obtain ⟨-, -, happly⟩ := except_bind_eq_ok_iff.mp hcommit
  cases happly
  exact ⟨h.delivered, by simp, h.event, fun _ => ⟨bytes, carried, hsent, hcarried, hheld⟩⟩

/-- The Ack of the pending packet completes it: the other side holds what it carried. -/
theorem stateIsTrue_of_completion {packetId : ObjId}
    (h : StateIsTrue aether own peer nodeId state) (hvalid : packetId.isValid = true)
    (hawaits : state.awaits packetId = true)
    (hcommit : state.commit eventId state.completion = .ok committed)
    (hack : AckIsTrue aether peer own ⟨nodeId, state.shareId, packetId⟩)
    (hexact : ∀ packet ∈ state.pendingPackets nodeId, ∀ bytes, own.sent packet.1 bytes →
      bytes = packet.2) :
    StateIsTrue aether own peer nodeId committed := by
  obtain ⟨bytes, carried, hsent, hcarried, hheld⟩ := hack
  obtain ⟨-, -, happly⟩ := except_bind_eq_ok_iff.mp hcommit
  simp only [LinkSyncState.awaits, Bool.or_eq_true, Bool.and_eq_true,
    decide_eq_true_eq] at hawaits
  rcases hawaits with ⟨hphase, hpacket⟩ | ⟨hphase, hpacket⟩
  · -- The acknowledged packet is the pending snapshot.
    have hbytes : bytes = state.pendingInitialPacket := by
      refine hexact (⟨nodeId, state.shareId, packetId⟩, state.pendingInitialPacket) ?_ bytes
        hsent
      simp [LinkSyncState.pendingPackets, hphase, hpacket]
    rw [hbytes] at hcarried
    rw [LinkSyncState.completion, if_pos hphase] at happly
    cases happly
    refine ⟨fun identity hidentity => ?_, by simp, h.event, h.received⟩
    rcases LinkSyncState.mem_addDelivered.mp hidentity with hold | hnew
    · exact h.delivered identity hold
    · rw [h.initial hphase carried hcarried] at hnew
      exact hheld identity hnew
  · -- It is the pending Event.
    have hpending : state.hasPendingEvent = true := by
      rw [LinkSyncState.hasPendingEvent, hpacket]
      exact hvalid
    have hnot : ¬ state.initialSyncPhase = .pending := by
      rw [hphase]
      simp
    have hbytes : bytes = state.pendingEventPacket := by
      refine hexact (⟨nodeId, state.shareId, packetId⟩, state.pendingEventPacket) ?_ bytes hsent
      simp [LinkSyncState.pendingPackets, hphase, hpending, hpacket]
    rw [hbytes] at hcarried
    rw [LinkSyncState.completion, if_neg hnot] at happly
    obtain ⟨-, -, happly⟩ := except_bind_eq_ok_iff.mp happly
    cases happly
    refine ⟨fun identity hidentity => ?_, fun hphase' => absurd hphase' hnot, ?_, h.received⟩
    · rcases LinkSyncState.mem_addDelivered.mp hidentity with hold | hnew
      · exact h.delivered identity hold
      · rw [h.event hpending carried hcarried] at hheld
        exact hheld identity hnew
    · intro hstill
      cases hstill

end AppTraverse
