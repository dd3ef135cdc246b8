import AppTraverse.Chat.HostState

/-!
# A session of a host

What every handler of a host keeps wherever it is cut off: the rooms of its entries are shared
with their clients, and a client that was accepted has its room in storage.  The calls of the
synchronization runtime save rooms one by one, and leave the relationships of all of them.
-/

namespace AppTraverse

open Foundations

section Tables

variable {rooms : AList fun _ : ObjId => ChatRoom} {nodes : List ChatRoom} {node : ChatRoom}

/-- The last Node of an id takes its place in the table. -/
theorem lookup_setRooms (rooms : AList fun _ : ObjId => ChatRoom) (nodes : List ChatRoom)
    (roomId : ObjId) : (setRooms rooms nodes).lookup roomId =
      (nodes.reverse.find? fun node => decide (node.objId = roomId)).or
        (rooms.lookup roomId) := by
  induction nodes generalizing rooms with
  | nil => rfl
  | cons head rest ih =>
      show (setRooms (rooms.insert head.objId head) rest).lookup roomId = _
      rw [ih, List.reverse_cons, List.find?_append, Option.or_assoc]
      congr 1
      by_cases hsame : roomId = head.objId
      · subst hsame
        simp [AList.lookup_insert]
      · rw [AList.lookup_insert_ne hsame]
        simp [Ne.symm hsame]

/-- Nodes that are in the table leave it as it is. -/
theorem lookup_setRooms_same (h : ∀ node ∈ nodes, rooms.lookup node.objId = some node)
    (roomId : ObjId) : (setRooms rooms nodes).lookup roomId = rooms.lookup roomId := by
  rw [lookup_setRooms]
  cases hfind : nodes.reverse.find? fun node => decide (node.objId = roomId) with
  | none => rfl
  | some found =>
      have hmem := List.mem_reverse.mp (List.mem_of_find?_eq_some hfind)
      have hid : found.objId = roomId := by simpa using List.find?_some hfind
      subst hid
      exact (h found hmem).symm

/-- One Node among those that are in the table takes its place there. -/
theorem lookup_setRooms_insert (hmem : node ∈ nodes)
    (h : ∀ other ∈ nodes, other = node ∨
      (other.objId ≠ node.objId ∧ rooms.lookup other.objId = some other)) (roomId : ObjId) :
    (setRooms rooms nodes).lookup roomId = (rooms.insert node.objId node).lookup roomId := by
  rw [lookup_setRooms]
  cases hfind : nodes.reverse.find? fun node => decide (node.objId = roomId) with
  | none =>
      have hne : roomId ≠ node.objId := by
        rintro rfl
        have hnone := List.find?_eq_none.mp hfind node (List.mem_reverse.mpr hmem)
        simp at hnone
      rw [AList.lookup_insert_ne hne]
      rfl
  | some found =>
      have hfound := List.mem_reverse.mp (List.mem_of_find?_eq_some hfind)
      have hid : found.objId = roomId := by simpa using List.find?_some hfind
      subst hid
      rcases h found hfound with rfl | ⟨hne, hlookup⟩
      · rw [AList.lookup_insert]
        rfl
      · rw [AList.lookup_insert_ne hne, hlookup]
        rfl

/-- The rooms of a table, under their own ids. -/
theorem lookup_of_mem_values (hkeys : Everywhere (fun roomId room => room.objId = roomId) rooms)
    (hmem : node ∈ rooms.entries.map Sigma.snd) : rooms.lookup node.objId = some node := by
  obtain ⟨⟨roomId, room⟩, hentry, rfl⟩ := List.mem_map.mp hmem
  have hlookup : rooms.lookup roomId = some room := AList.mem_lookup_iff.mpr hentry
  show rooms.lookup room.objId = some room
  rw [hkeys roomId room hlookup, hlookup]

/-- Saving one Node into the rooms of a table. -/
theorem lookup_saveNodeValue
    (hkeys : Everywhere (fun roomId room => room.objId = roomId) rooms) (roomId : ObjId) :
    (setRooms rooms (saveNodeValue (rooms.entries.map Sigma.snd) node)).lookup roomId =
      (rooms.insert node.objId node).lookup roomId := by
  apply lookup_setRooms_insert
  · unfold saveNodeValue
    split
    case isTrue hany =>
      obtain ⟨other, hother, hid⟩ := List.any_eq_true.mp hany
      exact List.mem_map.mpr ⟨other, hother, if_pos (of_decide_eq_true hid)⟩
    case isFalse => exact List.mem_append_right _ (List.mem_singleton_self _)
  · intro other hother
    unfold saveNodeValue at hother
    split at hother
    case isTrue =>
      obtain ⟨before, hbefore, hreplaced⟩ := List.mem_map.mp hother
      split at hreplaced
      case isTrue => exact Or.inl hreplaced.symm
      case isFalse hne =>
        subst hreplaced
        exact Or.inr ⟨hne, lookup_of_mem_values hkeys hbefore⟩
    case isFalse hnone =>
      rcases List.mem_append.mp hother with hold | hlast
      · refine Or.inr ⟨?_, lookup_of_mem_values hkeys hold⟩
        intro hsame
        exact hnone (List.any_eq_true.mpr ⟨other, hold, decide_eq_true hsame⟩)
      · exact Or.inl (List.mem_singleton.mp hlast)

end Tables

/-- The client of an endpoint has a chat that is bound to the room. -/
def ChatState.HasRoom (state : ChatState) (clientUid : Bytes) (roomId : ObjId) : Prop :=
  roomId.isValid = true ∧ ∃ entryId entry, ListedEntry state entryId clientUid entry ∧
    entry.fields.room = roomId

/-- A chat that is bound stays bound to its room. -/
theorem ChatState.HasRoom.of_kept {state next : ChatState} {clientUid : Bytes} {roomId : ObjId}
    (h : state.HasRoom clientUid roomId) (hkept : EntriesKept state next) :
    next.HasRoom clientUid roomId := by
  obtain ⟨hvalid, entryId, entry, hlisted, rfl⟩ := h
  obtain ⟨kept, hfound, hpeer, hroom⟩ := hkept.entries entryId entry hlisted.found
  exact ⟨hvalid, entryId, kept,
    ⟨hkept.chats entryId hlisted.listed, hfound, hpeer.trans hlisted.peer⟩, hroom hvalid⟩

/-- What holds of a session of a host wherever it is cut off. -/
structure HostSession (session : ChatSession) : Prop where
  world : HostWorld session.world
  runtime : session.runtime.IsLocal chatDemoRuntime
  accepted : ∀ destination msg, (destination, msg) ∈ session.sent → msg.kind = .joinAccepted →
    session.world.saved.HasRoom destination msg.roomId
  nodes : ∀ runtime, session.syncRuntime = some runtime → ∀ node ∈ runtime.nodes,
    (session.world.live.rooms.lookup node.objId).isSome = true

/-- The endpoint that the workspace is bound to is the one that the session has. -/
def KnowsItself (session : ChatSession) : Prop :=
  session.identityConflict = false → session.myUid ≠ [] →
    session.world.live.workspace.fields.localEndpointUid = session.myUid

/-- A session of the host that went on with the same endpoint. -/
structure HostContinues (session next : ChatSession) : Prop where
  host : HostSession next
  moved : HostMoved session.world next.world
  myUid : next.myUid = session.myUid
  conflict : next.identityConflict = session.identityConflict

namespace HostContinues

variable {session middle next : ChatSession}

theorem refl (h : HostSession session) : HostContinues session session :=
  ⟨h, .refl _, rfl, rfl⟩

theorem trans (h : HostContinues session middle) (h' : HostContinues middle next) :
    HostContinues session next :=
  ⟨h'.host, h.moved.trans h'.moved, h'.myUid.trans h.myUid, h'.conflict.trans h.conflict⟩

theorem knowsItself (h : HostContinues session next) (hknows : KnowsItself session) :
    KnowsItself next := by
  intro hconflict huid
  rw [h.conflict] at hconflict
  rw [h.myUid] at huid ⊢
  have hsame := hknows hconflict huid
  rw [h.moved.endpoint (by rw [hsame]; exact huid), hsame]

end HostContinues

namespace HostSession

variable {session : ChatSession}

/-- Another world that the host moved to. -/
theorem setWorld (h : HostSession session) {world : ChatWorld} (hworld : HostWorld world)
    (hmoved : HostMoved session.world world) :
    HostContinues session { session with world := world } where
  host :=
    { world := hworld
      runtime := h.runtime
      accepted := fun destination msg hmem hkind =>
        (h.accepted destination msg hmem hkind).of_kept hmoved.saved
      nodes := fun runtime hruntime node hnode =>
        hmoved.rooms _ (h.nodes runtime hruntime node hnode) }
  moved := hmoved
  myUid := rfl
  conflict := rfl

/-- Another room in memory. -/
theorem setRoom (h : HostSession session) {roomId : ObjId} {room : ChatRoom}
    (hstate : HostState (session.world.live.setRoom roomId room)) :
    HostContinues session { session with world := { session.world with
      live := session.world.live.setRoom roomId room } } :=
  h.setWorld (h.world.setRooms hstate)
    ⟨⟨(EntriesKept.refl _).entries, fun _ hmem => hmem⟩, .refl _,
      fun _ hroom => isSome_lookup_insert hroom, fun _ => rfl⟩

/-- The rooms that the runtime sees are those in memory. -/
theorem replica_nodes (h : HostSession session)
    {runtime : SharedSyncRuntime Messages MessageAddedEvent}
    (hruntime : session.syncRuntime = some runtime) :
    ∀ node ∈ (session.replicaOf runtime).runtime.nodes,
      session.world.live.rooms.lookup node.objId = some node := by
  intro node hnode
  obtain ⟨known, hknown, rfl⟩ := List.mem_map.mp hnode
  obtain ⟨room, hroom⟩ := Option.isSome_iff_exists.mp (h.nodes runtime hruntime known hknown)
  rw [hroom, Option.getD_some, (h.world.live.rooms _ room hroom).1, hroom]

/-- The runtime after a call that left the rooms in memory the rooms of a host. -/
theorem setRuntime (h : HostSession session)
    {after : SharedSyncRuntime Messages MessageAddedEvent}
    {rooms : AList fun _ : ObjId => ChatRoom}
    (hstate : HostState { session.world.live with rooms := rooms })
    (hlookup : ∀ roomId, (setRooms session.world.live.rooms after.nodes).lookup roomId =
      rooms.lookup roomId)
    (hrooms : ∀ roomId, (session.world.live.rooms.lookup roomId).isSome = true →
      (rooms.lookup roomId).isSome = true)
    (hnodes : ∀ node ∈ after.nodes, (rooms.lookup node.objId).isSome = true) :
    HostContinues session (session.setRuntime after) := by
  have hmoved : HostMoved session.world (session.setRuntime after).world := by
    refine ⟨⟨(EntriesKept.refl _).entries, fun _ hmem => hmem⟩, .refl _, ?_, fun _ => rfl⟩
    intro roomId hroom
    show ((setRooms session.world.live.rooms after.nodes).lookup roomId).isSome = true
    rw [hlookup]
    exact hrooms roomId hroom
  have hworld : HostWorld (session.setRuntime after).world :=
    h.world.setRooms (hstate.of_rooms hlookup)
  have hset := h.setWorld hworld hmoved
  refine ⟨⟨hworld, h.runtime, hset.host.accepted, ?_⟩, hmoved, rfl, rfl⟩
  intro runtime hruntime node hnode
  cases hruntime
  show ((setRooms session.world.live.rooms after.nodes).lookup node.objId).isSome = true
  rw [hlookup]
  exact hnodes node hnode

/-- Storage in which single rooms were saved. -/
theorem setStorage (h : HostSession session)
    {storage : ReplicaStorage Messages MessageAddedEvent}
    {rooms : AList fun _ : ObjId => ChatRoom}
    (hstate : HostState { session.world.saved with rooms := rooms })
    (hlookup : ∀ roomId, (setRooms session.world.saved.rooms storage.nodes).lookup roomId =
      rooms.lookup roomId) : HostContinues session (session.setStorage storage) := by
  have hmoved : HostMoved session.world (session.setStorage storage).world :=
    ⟨.refl _, ⟨(EntriesKept.refl _).entries, fun _ hmem => hmem⟩, fun _ hroom => hroom,
      fun _ => rfl⟩
  have hworld : HostWorld (session.setStorage storage).world :=
    h.world.setSavedRooms (hstate.of_rooms hlookup)
  have hset := h.setWorld hworld hmoved
  exact ⟨⟨hworld, h.runtime, hset.host.accepted, h.nodes⟩, hmoved, rfl, rfl⟩

end HostSession

end AppTraverse
