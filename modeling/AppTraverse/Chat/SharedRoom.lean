import AppTraverse.Chat.ChatRuns
import AppTraverse.Runtime.TopologyRuns

/-!
# The room that a host shares with a client

A host creates the room of a client with two relationships, one to itself and one to the client.
What happens to the room later is messages, progress of its synchronization, and restarts: none
of it is a topology Event, so every rebuild finds the two relationships again.
-/

namespace AppTraverse

open Foundations

/-- Each of two endpoints has exactly one open Share, and both Shares are ReadWrite. -/
structure SharedBetween (shares : List Share) (hostUid clientUid : Bytes) : Prop where
  host : (sharesOfEndpoint shares hostUid).map Share.access = [ShareAccess.readWrite]
  client : (sharesOfEndpoint shares clientUid).map Share.access = [ShareAccess.readWrite]

/-- The room follows from its base and its journal, and its topology Events drew these ids. -/
def HasTopology (room : ChatRoom) (drawn : List ObjId) : Prop :=
  ∃ opened, TopologyInvariant chatRoom ⟨room, opened, drawn⟩

/-- A room that was shared with two different endpoints is shared between them. -/
theorem sharedBetween_pair {hostUid clientUid : Bytes} (hne : clientUid ≠ hostUid)
    {first second : Share} (hfirst : shareEndpoint first = some hostUid)
    (hsecond : shareEndpoint second = some clientUid)
    (hfirstAccess : first.access = ShareAccess.readWrite)
    (hsecondAccess : second.access = ShareAccess.readWrite) :
    SharedBetween [first, second] hostUid clientUid := by
  have hne' : hostUid ≠ clientUid := fun hsame => hne hsame.symm
  constructor
  · simp [sharesOfEndpoint, hfirst, hsecond, hne, hfirstAccess]
  · simp [sharesOfEndpoint, hfirst, hsecond, hne', hsecondAccess]

section Steps

variable {roomIds : Nat → ObjId} {room next : ChatRoom} {drawn : List ObjId} {nowUs : UInt64}

theorem hasTopology_newChatRoom {roomId baseId : ObjId} (hvalid : baseId.isValid = true)
    (hother : baseId ≠ roomId) : HasTopology (newChatRoom roomIds roomId baseId) [] :=
  ⟨[], topologyInvariant_new
    ⟨roomIds, roomId, chatRoomClassId, baseId, _, hvalid, hother, rfl, rfl, rfl⟩⟩

namespace HasTopology

/-- An operation on a room keeps its topology in order, and does to it what it should. -/
theorem operate (hids : ∀ n, (roomIds n).isValid = true) (h : HasTopology room drawn)
    (nowUs : UInt64) (operation : NodeOperation MessageAddedEvent)
    (hcommands : operation.KeepsTopologyCommands)
    (hfresh : ∀ id ∈ (NodeAction.operate roomIds nowUs operation).topologyEventId,
      id.isValid = true ∧ id ∉ drawn)
    (hrun : operation.run chatRoom roomIds nowUs room = .ok next) :
    (∃ opened, TopologyInvariant chatRoom ⟨room, opened, drawn⟩ ∧
      TopologyMoves ⟨room, opened, drawn⟩ next (.operate roomIds nowUs operation)) ∧
    HasTopology next
      (drawn ++ (NodeAction.operate roomIds nowUs operation).topologyEventId.toList) ∧
    next.objId = room.objId := by
  obtain ⟨opened, hinvariant⟩ := h
  have hallowed : TopologyAllowed (⟨room, opened, drawn⟩ : TopologyHistory _ _)
      (.operate roomIds nowUs operation) := by
    constructor
    case commands =>
      intro _ _ _ hsame
      cases hsame
      exact hcommands
    case ids =>
      intro _ _ _ hsame
      cases hsame
      exact hids
    case fresh => exact hfresh
  obtain ⟨hmoves, hafter⟩ :=
    stepIsSound_of_nodeStep hinvariant hallowed (toOption_eq_some_iff.mpr hrun)
  exact ⟨⟨opened, hinvariant, hmoves⟩, ⟨_, hafter⟩, objId_of_operated (nodeOperated_of_run hrun)⟩

/-- A message leaves the relationships as they are. -/
theorem commitMessage (hids : ∀ n, (roomIds n).isValid = true) (h : HasTopology room drawn)
    {eventId : ObjId} {message : MessageValue}
    (hrun : AppTraverse.commitMessage roomIds nowUs room eventId message = .ok next) :
    HasTopology next drawn ∧ next.fields.shares = room.fields.shares ∧
      next.objId = room.objId := by
  obtain ⟨⟨opened, -, hkept⟩, hafter, hobjId⟩ := h.operate hids nowUs
    (.commitShared ⟨eventId, some (.app ⟨message⟩)⟩ message.id ⟨message.timestampUs⟩)
    ⟨_, rfl⟩ (fun id hid => nomatch hid) hrun
  replace hafter : HasTopology next (drawn ++ []) := hafter
  rw [List.append_nil] at hafter
  exact ⟨hafter, hkept.shares, hobjId⟩

theorem blockCompaction (hids : ∀ n, (roomIds n).isValid = true) (h : HasTopology room drawn)
    (blocked : Bool) : HasTopology { room with journalCompactionBlocked := blocked } drawn := by
  obtain ⟨-, hafter, -⟩ := h.operate hids 0 (.setJournalCompactionBlocked blocked) trivial
    (fun id hid => nomatch hid) rfl
  replace hafter : HasTopology _ (drawn ++ []) := hafter
  rw [List.append_nil] at hafter
  exact hafter

/-- A new relationship is added to those there are. -/
theorem addShare (hids : ∀ n, (roomIds n).isValid = true) (h : HasTopology room drawn)
    {link : Ref Link} {access : UInt8} {eventId : ObjId} (hvalid : eventId.isValid = true)
    (hfresh : eventId ∉ drawn)
    (hlink : link.id ∉ room.fields.shares.map fun share => share.link.id)
    (hrun : AppTraverse.addShare chatRoom roomIds room link access eventId nowUs = .ok next) :
    HasTopology next (drawn ++ [eventId]) ∧
      next.fields.shares = room.fields.shares ++ [⟨eventId, link, access⟩] ∧
      next.objId = room.objId := by
  have hnew : ∀ id ∈ (NodeAction.operate roomIds nowUs
      (.addShare link access eventId : NodeOperation MessageAddedEvent)).topologyEventId,
      id.isValid = true ∧ id ∉ drawn := by
    intro id hid
    cases hid
    exact ⟨hvalid, hfresh⟩
  obtain ⟨⟨opened, -, hmoves⟩, hafter, hobjId⟩ :=
    h.operate hids nowUs (.addShare link access eventId) trivial hnew hrun
  rw [TopologyMoves, if_neg hlink] at hmoves
  exact ⟨hafter, hmoves.2.1, hobjId⟩

/-- Progress of the synchronization leaves the relationships as they are. -/
theorem progress (h : HasTopology room drawn) {index : Nat} {eventId : ObjId}
    {event : LinkSyncEvent} (hcommit : commitLinkSyncEvent room index eventId event = .ok next) :
    HasTopology next drawn ∧ next.fields.shares = room.fields.shares ∧
      next.objId = room.objId := by
  obtain ⟨opened, hinvariant⟩ := h
  obtain ⟨⟨hshares, -⟩, hafter⟩ := stepIsSound_progress hinvariant hcommit
  refine ⟨⟨opened ++ newlyOpened room next, ?_⟩, hshares,
    (sameShared_of_commitLinkSyncEvent hcommit).objId⟩
  replace hafter : TopologyInvariant chatRoom
    ⟨next, opened ++ newlyOpened room next, drawn ++ []⟩ := hafter
  rw [List.append_nil] at hafter
  exact hafter

/-- A room that is loaded again is what it was. -/
theorem reloaded (h : HasTopology room drawn) : HasTopology room.reloaded drawn := by
  obtain ⟨opened, hinvariant⟩ := h
  have hkept : TopologyKept room room.reloaded := ⟨rfl, rfl⟩
  have hafter := hinvariant.of_topologyKept hkept rfl rfl hinvariant.base rfl hinvariant.sorted
    (fun record hrecord _ hremove => ⟨record, hrecord, hremove⟩) []
  rw [List.append_nil] at hafter
  exact ⟨_, hafter⟩

end HasTopology

end Steps

end AppTraverse
