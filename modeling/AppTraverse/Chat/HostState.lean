import AppTraverse.Chat.JoinProtocol
import AppTraverse.Chat.SharedRoom
import AppTraverse.Chat.WorkspaceForm

/-!
# The rooms of a host

Every entry of a host that has a room has one that is shared between the host and its client.
The host persists its whole workspace at once and the synchronization saves single rooms, so
that what is persisted is a past state of the entries with rooms that have the same
relationships as those in memory.
-/

namespace AppTraverse

open Foundations

/-- What holds of the rooms of a host, and of the entries that are bound to them. -/
structure HostState (state : ChatState) : Prop where
  role : state.workspace.fields.demoRole ≠ .client
  rooms : Everywhere (fun roomId room =>
    room.objId = roomId ∧ ∃ drawn, HasTopology room drawn) state.rooms
  bound : ∀ entryId fields, state.entryFields entryId = some fields →
    fields.room.isValid = true → state.workspace.fields.localEndpointUid ≠ [] ∧
      ∃ room, state.rooms.lookup fields.room = some room ∧
        SharedBetween room.fields.shares state.workspace.fields.localEndpointUid fields.peerUid

/-- No entry is bound to the room. -/
def ChatState.IsUnbound (state : ChatState) (roomId : ObjId) : Prop :=
  ∀ entryId fields, state.entryFields entryId = some fields → fields.room.isValid = true →
    fields.room ≠ roomId

/-- A stage that binds an entry to a room that is shared with its peer, and makes no client of
the host. -/
def StageShares (state : ChatState) : ChatStage → Prop
  | .commitWorkspace _ (.demoRoleConfigured role) => role ≠ .client
  | .commitEntry entryId _ (.chatBindingChanged _ roomId) => ∀ fields,
      state.entryFields entryId = some fields →
        state.workspace.fields.localEndpointUid ≠ [] ∧
        ∃ room, state.rooms.lookup roomId = some room ∧
          SharedBetween room.fields.shares state.workspace.fields.localEndpointUid fields.peerUid
  | _ => True

/-- What a stage of a host meets. -/
structure HostStage (state : ChatState) (stage : ChatStage) : Prop where
  fits : StageFits state stage
  allowed : StageAllowed state stage
  shares : StageShares state stage

namespace HostState

variable {state : ChatState}

/-- Rooms that are found as before. -/
theorem of_rooms (h : HostState state) {rooms : AList fun _ : ObjId => ChatRoom}
    (hsame : ∀ roomId, rooms.lookup roomId = state.rooms.lookup roomId) :
    HostState { state with rooms := rooms } where
  role := h.role
  rooms roomId room hroom := h.rooms roomId room ((hsame roomId).symm.trans hroom)
  bound entryId fields hfields hvalid := by
    obtain ⟨hendpoint, room, hroom, hshared⟩ := h.bound entryId fields hfields hvalid
    exact ⟨hendpoint, room, (hsame _).trans hroom, hshared⟩

/-- A room that is not there is no entry's room. -/
theorem isUnbound (h : HostState state) {roomId : ObjId}
    (hnone : state.rooms.lookup roomId = none) : state.IsUnbound roomId := by
  rintro entryId fields hfields hvalid rfl
  obtain ⟨-, room, hroom, -⟩ := h.bound entryId fields hfields hvalid
  rw [hnone] at hroom
  cases hroom

/-- A room that is shared with the peers of the entries that are bound to it. -/
theorem setRoom (h : HostState state) {roomId : ObjId} {room : ChatRoom}
    {drawn : List ObjId} (hobjId : room.objId = roomId) (htopology : HasTopology room drawn)
    (hshared : ∀ entryId fields, state.entryFields entryId = some fields →
      fields.room.isValid = true → fields.room = roomId →
        SharedBetween room.fields.shares state.workspace.fields.localEndpointUid
          fields.peerUid) : HostState (state.setRoom roomId room) where
  role := h.role
  rooms := h.rooms.insert ⟨hobjId, drawn, htopology⟩
  bound entryId fields hfields hvalid := by
    obtain ⟨hendpoint, found, hfound, hbetween⟩ := h.bound entryId fields hfields hvalid
    refine ⟨hendpoint, ?_⟩
    by_cases hsame : fields.room = roomId
    · have hnow := hshared entryId fields hfields hvalid hsame
      subst hsame
      exact ⟨room, AList.lookup_insert _, hnow⟩
    · exact ⟨found, (AList.lookup_insert_ne hsame).trans hfound, hbetween⟩

/-- A room that keeps its relationships. -/
theorem setRoom_kept (h : HostState state) {roomId : ObjId} {room old : ChatRoom}
    {drawn : List ObjId} (hold : state.rooms.lookup roomId = some old)
    (hobjId : room.objId = roomId) (htopology : HasTopology room drawn)
    (hshares : room.fields.shares = old.fields.shares) :
    HostState (state.setRoom roomId room) := by
  apply h.setRoom hobjId htopology
  rintro entryId fields hfields hvalid rfl
  obtain ⟨-, found, hfound, hbetween⟩ := h.bound entryId fields hfields hvalid
  cases hold.symm.trans hfound
  rw [hshares]
  exact hbetween

/-- Another workspace with the same chats. -/
theorem setWorkspace (h : HostState state) {workspace : ChatWorkspace}
    (hrole : workspace.fields.demoRole ≠ .client)
    (hendpoint : state.workspace.fields.localEndpointUid ≠ [] →
      workspace.fields.localEndpointUid = state.workspace.fields.localEndpointUid) :
    HostState { state with workspace := workspace } where
  role := hrole
  rooms := h.rooms
  bound entryId fields hfields hvalid := by
    obtain ⟨hbound, hroom⟩ := h.bound entryId fields hfields hvalid
    have hsame := hendpoint hbound
    show workspace.fields.localEndpointUid ≠ [] ∧ ∃ room, _ ∧
      SharedBetween _ workspace.fields.localEndpointUid _
    rw [hsame]
    exact ⟨hbound, hroom⟩

/-- An entry whose room, if it has one, is shared with its peer. -/
theorem setEntry (h : HostState state) {entryId : ObjId} {entry : ChatEntry}
    (hbound : entry.fields.room.isValid = true →
      state.workspace.fields.localEndpointUid ≠ [] ∧
        ∃ room, state.rooms.lookup entry.fields.room = some room ∧
          SharedBetween room.fields.shares state.workspace.fields.localEndpointUid
            entry.fields.peerUid) :
    HostState { state with entries := state.entries.insert entryId entry } where
  role := h.role
  rooms := h.rooms
  bound other fields hfields hvalid := by
    rw [ChatState.entryFields_insert] at hfields
    split at hfields
    case isTrue =>
      cases hfields
      exact hbound hvalid
    case isFalse => exact h.bound other fields hfields hvalid

theorem reloaded (h : HostState state) : HostState state.reloaded where
  role := h.role
  rooms := by
    refine Everywhere.mapValues (h.rooms.mono ?_)
    rintro roomId room ⟨hobjId, drawn, htopology⟩
    exact ⟨hobjId, drawn, htopology.reloaded⟩
  bound entryId fields hfields hvalid := by
    rw [ChatState.entryFields_reloaded] at hfields
    obtain ⟨hendpoint, room, hroom, hshared⟩ := h.bound entryId fields hfields hvalid
    refine ⟨hendpoint, room.reloaded, ?_, hshared⟩
    show (mapValues Node.reloaded state.rooms).lookup fields.room = _
    rw [lookup_mapValues, hroom]
    rfl

end HostState

section Stages

variable {roomIds : Nat → ObjId} {clockUs : UInt64} {world next : ChatWorld}

/-- A stage that fits makes a new entry, or binds one without a room. -/
theorem HostStage.keeps {state : ChatState} {stage : ChatStage} (h : HostStage state stage) :
    StageKeeps state stage := by
  obtain ⟨hfits, hallowed, -⟩ := h
  cases stage with
  | createEntry entryId baseId fields =>
      exact ⟨hallowed.1, Option.map_eq_none_iff.mp hfits.1⟩
  | commitEntry entryId eventId event =>
      cases event with
      | chatBindingChanged link roomId =>
          intro entry hentry hvalid
          rw [(hfits entry.fields (ChatState.entryFields_of_lookup hentry)).2] at hvalid
          cases hvalid
      | draftChanged text => trivial
      | scrollChanged scroll => trivial
  | commitWorkspace eventId event => trivial
  | commitMessage roomId eventId message => trivial
  | persist => trivial

/-- A stage of a host keeps its rooms shared. -/
theorem hostState_runStage (hids : ∀ n, (roomIds n).isValid = true) (h : HostState world.live)
    (hlocal : NodesLocal world.live) {stage : ChatStage} (hstage : HostStage world.live stage)
    (hrun : world.runStage roomIds clockUs stage = .ok next) : HostState next.live := by
  obtain ⟨hfits, hallowed, hshares⟩ := hstage
  cases stageRun_of_runStage hrun with
  | createEntry entryId baseId fields hresult =>
      subst hresult
      refine h.setEntry fun hvalid => ?_
      rw [show (initializeRuntimeNode chatEntry.nodeClass entryId chatEntryClassId baseId
        fields).fields.room = ObjId.empty from hallowed.2] at hvalid
      cases hvalid
  | commitWorkspace eventId event workspace hcommit hresult =>
      subst hresult
      obtain ⟨-, -, hcommitted⟩ := hlocal.workspace.committed rfl hcommit
      have hfields := hcommitted.fields
      cases event with
      | demoRoleConfigured role =>
          exact h.setWorkspace (by rw [hfields]; exact hshares) fun _ => by rw [hfields]; rfl
      | localEndpointBound endpointUid =>
          exact h.setWorkspace (by rw [hfields]; exact h.role) fun hbound =>
            absurd hfits hbound
      | hostUidInputChanged text =>
          exact h.setWorkspace (by rw [hfields]; exact h.role) fun _ => by rw [hfields]; rfl
      | messageSequenceReserved reservedSequence =>
          exact h.setWorkspace (by rw [hfields]; exact h.role) fun _ => by rw [hfields]; rfl
      | chatEntryAdded entryId =>
          exact h.setWorkspace (by rw [hfields]; exact h.role) fun _ => by rw [hfields]; rfl
      | chatSelected entryId =>
          exact h.setWorkspace (by rw [hfields]; exact h.role) fun _ => by rw [hfields]; rfl
      | desktopBoundsChanged bounds =>
          exact h.setWorkspace (by rw [hfields]; exact h.role) fun _ => by rw [hfields]; rfl
  | commitEntry entryId eventId event entry after hfound hcommit hresult =>
      subst hresult
      obtain ⟨-, -, hcommitted⟩ := (hlocal.entries entryId entry hfound).committed rfl hcommit
      have hentry := ChatState.entryFields_of_lookup hfound
      apply h.setEntry
      rw [hcommitted.fields]
      cases event with
      | chatBindingChanged link roomId => exact fun _ => hshares entry.fields hentry
      | draftChanged text => exact h.bound entryId entry.fields hentry
      | scrollChanged scroll => exact h.bound entryId entry.fields hentry
  | commitMessage roomId eventId message room after hfound hcommit hresult =>
      subst hresult
      obtain ⟨hobjId, drawn, htopology⟩ := h.rooms roomId room hfound
      obtain ⟨hafter, hsame, hafterId⟩ := htopology.commitMessage hids hcommit
      exact h.setRoom_kept hfound (hafterId.trans hobjId) hafter hsame
  | persist hresult =>
      subst hresult
      exact h

end Stages

/-- A host in memory and as it is persisted. -/
structure HostWorld (world : ChatWorld) : Prop where
  live : HostState world.live
  saved : HostState world.saved
  formed : world.Formed
  nodes : NodesLocal world.live
  savedNodes : NodesLocal world.saved
  entries : EntriesKept world.saved world.live
  endpoint : world.saved.workspace.fields.localEndpointUid ≠ [] →
    world.live.workspace.fields.localEndpointUid =
      world.saved.workspace.fields.localEndpointUid

/-- What a host keeps of its entries, its rooms and its endpoint. -/
structure HostMoved (world next : ChatWorld) : Prop where
  live : EntriesKept world.live next.live
  saved : EntriesKept world.saved next.saved
  rooms : ∀ roomId, (world.live.rooms.lookup roomId).isSome = true →
    (next.live.rooms.lookup roomId).isSome = true
  endpoint : world.live.workspace.fields.localEndpointUid ≠ [] →
    next.live.workspace.fields.localEndpointUid = world.live.workspace.fields.localEndpointUid

namespace HostMoved

variable {world middle next : ChatWorld}

theorem refl (world : ChatWorld) : HostMoved world world :=
  ⟨.refl _, .refl _, fun _ h => h, fun _ => rfl⟩

theorem trans (h : HostMoved world middle) (h' : HostMoved middle next) :
    HostMoved world next where
  live := h.live.trans h'.live
  saved := h.saved.trans h'.saved
  rooms roomId hroom := h'.rooms roomId (h.rooms roomId hroom)
  endpoint hbound := by
    have hmiddle := h.endpoint hbound
    rw [h'.endpoint (by rw [hmiddle]; exact hbound), hmiddle]

end HostMoved

namespace HostWorld

variable {roomIds : Nat → ObjId} {clockUs : UInt64} {world next : ChatWorld}

/-- What is in memory becomes what is persisted. -/
theorem persist (h : HostWorld world) :
    HostWorld world.persist ∧ HostMoved world world.persist :=
  ⟨⟨h.live, h.live, ⟨h.formed.1, h.formed.1⟩, h.nodes, h.nodes, .refl _, fun _ => rfl⟩,
    ⟨.refl _, h.entries, fun _ hroom => hroom, fun _ => rfl⟩⟩

/-- Other rooms in memory. -/
theorem setRooms (h : HostWorld world) {rooms : AList fun _ : ObjId => ChatRoom}
    (hstate : HostState { world.live with rooms := rooms }) :
    HostWorld { world with live := { world.live with rooms := rooms } } where
  live := hstate
  saved := h.saved
  formed := ⟨⟨h.formed.1.valid, h.formed.1.peers, h.formed.1.distinct, h.formed.1.selected,
    h.formed.1.bound⟩, h.formed.2⟩
  nodes := h.nodes.setRooms rooms
  savedNodes := h.savedNodes
  entries := ⟨h.entries.entries, h.entries.chats⟩
  endpoint := h.endpoint

/-- Other rooms in storage. -/
theorem setSavedRooms (h : HostWorld world) {rooms : AList fun _ : ObjId => ChatRoom}
    (hstate : HostState { world.saved with rooms := rooms }) :
    HostWorld { world with saved := { world.saved with rooms := rooms } } where
  live := h.live
  saved := hstate
  formed := ⟨h.formed.1, ⟨h.formed.2.valid, h.formed.2.peers, h.formed.2.distinct,
    h.formed.2.selected, h.formed.2.bound⟩⟩
  nodes := h.nodes
  savedNodes := h.savedNodes.setRooms rooms
  entries := ⟨h.entries.entries, h.entries.chats⟩
  endpoint := h.endpoint

/-- A room as it is in memory may be saved alone: the entries in storage that are bound to it
are bound to it in memory. -/
theorem saveRoom (h : HostWorld world) {roomId : ObjId} {room : ChatRoom}
    (hroom : world.live.rooms.lookup roomId = some room) :
    HostState (world.saved.setRoom roomId room) := by
  obtain ⟨hobjId, drawn, htopology⟩ := h.live.rooms roomId room hroom
  apply h.saved.setRoom hobjId htopology
  rintro entryId fields hfields hvalid rfl
  obtain ⟨hendpoint, -⟩ := h.saved.bound entryId fields hfields hvalid
  obtain ⟨entry, hentry, rfl⟩ := Option.map_eq_some_iff.mp hfields
  obtain ⟨kept, hkept, hpeer, hsame⟩ := h.entries.entries entryId entry hentry
  have hkeptRoom := hsame hvalid
  obtain ⟨-, found, hfound, hbetween⟩ := h.live.bound entryId kept.fields
    (ChatState.entryFields_of_lookup hkept) (by rw [hkeptRoom]; exact hvalid)
  rw [hkeptRoom] at hfound
  cases hroom.symm.trans hfound
  rw [h.endpoint hendpoint, hpeer] at hbetween
  exact hbetween

theorem runStage (hids : ∀ n, (roomIds n).isValid = true) (h : HostWorld world)
    {stage : ChatStage} (hstage : HostStage world.live stage)
    (hrun : world.runStage roomIds clockUs stage = .ok next) :
    HostWorld next ∧ HostMoved world next := by
  have hkept := worldKept_runStage h.nodes h.savedNodes hstage.keeps hrun
  obtain ⟨hformed, hset⟩ := formed_runStage h.formed.1 h.nodes hstage.fits hrun
  have hlive := hostState_runStage hids h.live h.nodes hstage hrun
  rcases saved_of_runStage hrun with hsame | ⟨-, rfl⟩
  · have hmoved : HostMoved world next := by
      refine ⟨hkept.entries, ?_, fun roomId hroom => rooms_of_runStage hrun hroom, hset.endpoint⟩
      rw [hsame]
      exact .refl _
    refine ⟨⟨hlive, ?_, ⟨hformed, ?_⟩, hkept.live, hkept.saved, ?_, ?_⟩, hmoved⟩
    · rw [hsame]
      exact h.saved
    · rw [hsame]
      exact h.formed.2
    · rw [hsame]
      exact h.entries.trans hkept.entries
    · rw [hsame]
      intro hbound
      have hnow := h.endpoint hbound
      rw [hset.endpoint (by rw [hnow]; exact hbound), hnow]
  · exact h.persist

/-- The process starts again from what was persisted. -/
theorem restart (h : HostWorld world) : HostWorld world.restart where
  live := h.saved.reloaded
  saved := h.saved
  formed := ⟨h.formed.2.reloaded, h.formed.2⟩
  nodes := h.savedNodes.reloaded
  savedNodes := h.savedNodes
  entries := by
    refine ⟨fun entryId entry hentry => ⟨entry.reloaded, ?_, rfl, fun _ => rfl⟩, fun _ hmem => hmem⟩
    replace hentry : world.saved.entries.lookup entryId = some entry := hentry
    show (mapValues Node.reloaded world.saved.entries).lookup entryId = _
    rw [lookup_mapValues, hentry]
    rfl
  endpoint _ := rfl

end HostWorld

end AppTraverse
