import AppTraverse.Chat.HostSession

/-!
# The handlers of a host

The rules for what the handlers of a host are made of: the stages of its commands, the calls of
the synchronization runtime, and the acceptance of a client.  A host accepts a client only once
the client has its room in storage, whichever of the two branches it takes.
-/

namespace AppTraverse

open Foundations

variable {platform : ChatPlatform} {env : SessionEnv} {session : ChatSession}

section Stages

variable {clockUs : UInt64}

/-- The stages of a command of a host. -/
abbrev HostStages (roomIds : Nat → ObjId) (clockUs : UInt64) (world : ChatWorld)
    (stages : List ChatStage) : Prop :=
  EveryStep (stageStep roomIds clockUs) (fun world stage => HostStage world.live stage) world
    stages

/-- Stages that fit and are allowed, and that bind no entry. -/
theorem hostStages_of_meet {roomIds : Nat → ObjId} {world : ChatWorld} {fits : Prop}
    {stages : List ChatStage} (hmeet : StagesMeet roomIds clockUs fits world stages)
    (hallowed : ∀ stage ∈ stages, StageAllowed world.live stage)
    (hshares : EveryStep (stageStep roomIds clockUs)
      (fun world stage => StageShares world.live stage) world stages) :
    HostStages roomIds clockUs world stages := by
  have hallowedSteps : EveryStep (stageStep roomIds clockUs)
      (fun world stage => StageAllowed world.live stage) world stages := by
    clear hmeet hshares
    induction stages generalizing world with
    | nil => trivial
    | cons stage rest ih =>
        refine everyStep_cons.mpr ⟨hallowed stage List.mem_cons_self, fun next hnext => ih ?_⟩
        intro other hother
        exact stageAllowed_of_runStage (toOption_eq_some_iff.mp hnext)
          (hallowed other (List.mem_cons_of_mem _ hother))
  exact ((hmeet.and hallowedSteps).and hshares).mono fun _ _ hstage =>
    ⟨hstage.1.1.1, hstage.1.2, hstage.2⟩

/-- The commands of the user of a host. -/
theorem hostStages_command {roomIds : Nat → ObjId} {world : ChatWorld} (h : HostWorld world)
    {env : CommandEnv} (henv : ∀ n, (env.ids n).isValid = true)
    (hfresh : world.live.entries.lookup (env.ids 0) = none) (command : ChatCommand)
    (hbind : ∀ entryId link roomId, command ≠ .bindChat entryId link roomId)
    (hrole : command ≠ .configureDemoRole .client) :
    HostStages roomIds clockUs world (command.stages env world.live) := by
  apply hostStages_of_meet (stagesMeet_command henv h.formed.1 h.nodes
    (by rw [ChatState.entryFields, hfresh]; rfl) command) (stagesAllowed henv)
  apply everyStep_of_mem
  cases command with
  | bindChat entryId link roomId => exact absurd rfl (hbind entryId link roomId)
  | configureDemoRole role =>
      have hhost : role ≠ .client := fun hsame => hrole (by rw [hsame])
      simp only [ChatCommand.stages, configureDemoRole]
      repeat' split
      all_goals simp [StageShares, hhost]
  | submitDraft entryId nowUs =>
      simp only [ChatCommand.stages, submitDraft]
      repeat' split
      all_goals simp [submitStages, StageShares]
  | _ =>
      simp only [ChatCommand.stages, setHostUidInput, openOrSelectChat, bindLocalEndpoint,
        setDraft, setScroll, setEntryField, setDesktopBounds, selectChat]
      repeat' split
      all_goals simp [StageShares]

/-- Binding an entry to a room that is shared with its peer. -/
theorem hostStages_bindChat {roomIds : Nat → ObjId} {world : ChatWorld} (h : HostWorld world)
    {env : CommandEnv} (henv : ∀ n, (env.ids n).isValid = true) {entryId roomId : ObjId}
    {link : Ref Link} (hshares : StageShares world.live
      (.commitEntry entryId (env.ids 0) (.chatBindingChanged link roomId))) :
    HostStages roomIds clockUs world (bindChat env world.live entryId link roomId).stages := by
  apply hostStages_of_meet (stagesMeet_bindChat henv h.formed.1 False entryId link roomId)
    bindChat_stagesAllowed
  unfold bindChat
  repeat' split
  all_goals first | trivial | exact ⟨hshares, fun _ _ => ⟨trivial, fun _ _ => trivial⟩⟩

/-- Only a message changes a room. -/
theorem rooms_eq_of_runStages {roomIds : Nat → ObjId} {world next : ChatWorld}
    {stages : List ChatStage}
    (hmessage : ∀ roomId eventId message, .commitMessage roomId eventId message ∉ stages)
    (hrun : world.runStages roomIds clockUs stages = .ok next) :
    next.live.rooms = world.live.rooms := by
  induction stages generalizing world with
  | nil =>
      cases hrun
      rfl
  | cons stage rest ih =>
      rw [ChatWorld.runStages, List.foldlM_cons] at hrun
      obtain ⟨middle, hstage, hrest⟩ := except_bind_eq_ok_iff.mp hrun
      rw [ih (fun roomId eventId message hmem =>
        hmessage roomId eventId message (List.mem_cons_of_mem _ hmem)) hrest]
      cases stageRun_of_runStage hstage with
      | commitMessage roomId eventId message room after hfound hcommit hresult =>
          exact absurd List.mem_cons_self (hmessage roomId eventId message)
      | createEntry entryId baseId fields hresult => rw [hresult]; rfl
      | commitWorkspace eventId event workspace hcommit hresult => rw [hresult]
      | commitEntry entryId eventId event entry after hentry hcommit hresult => rw [hresult]
      | persist hresult => rw [hresult]; rfl

theorem rooms_of_openOrSelectChat {roomIds : Nat → ObjId} {world next : ChatWorld}
    {env : CommandEnv} {peerUid : Bytes}
    (hrun : world.runStages roomIds clockUs (openOrSelectChat env world.live peerUid).stages =
      .ok next) : next.live.rooms = world.live.rooms := by
  apply rooms_eq_of_runStages _ hrun
  intro roomId eventId message
  unfold openOrSelectChat
  dsimp only
  repeat' split
  all_goals simp

/-- The rule for the stages of a command. -/
theorem safe_hostStages (hids : ∀ n, (platform.roomIds n).isValid = true)
    (h : HostSession session) {stages : List ChatStage}
    (hstages : HostStages platform.roomIds clockUs session.world stages) :
    (runChatStages platform clockUs stages).Safe HostSession
      (fun _ final => HostContinues session final ∧ ∃ world,
        final = { session with world := world } ∧
          session.world.runStages platform.roomIds clockUs stages = .ok world) session := by
  induction stages generalizing session with
  | nil => exact ⟨.refl h, session.world, rfl, rfl⟩
  | cons stage rest ih =>
      obtain ⟨hnow, hlater⟩ := everyStep_cons.mp hstages
      rw [runChatStages, Program.safe_bind]
      intro changed hchanged
      obtain ⟨world, hworld, rfl⟩ := Option.map_eq_some_iff.mp hchanged
      have hrun := toOption_eq_some_iff.mp hworld
      obtain ⟨hnext, hmoved⟩ := h.world.runStage hids hnow hrun
      have hset := h.setWorld hnext hmoved
      refine ⟨hset.host, (ih hset.host (hlater world hworld)).mono ?_⟩
      rintro - final ⟨hfinal, last, rfl, hlast⟩
      refine ⟨hset.trans hfinal, last, rfl, ?_⟩
      rw [ChatWorld.runStages, List.foldlM_cons]
      show (session.world.runStage platform.roomIds clockUs stage >>= _) = _
      rw [hrun]
      exact hlast

/-- The rule for a command that is planned in the state it finds. -/
theorem safe_hostPlanned (hids : ∀ n, (platform.roomIds n).isValid = true)
    (h : HostSession session) {ρ : Type} {planned : ChatState → Planned ρ}
    (hstages : HostStages platform.roomIds clockUs session.world
      (planned session.world.live).stages) :
    (runPlanned platform clockUs planned).Safe HostSession
      (fun result final => result = (planned session.world.live).result ∧
        HostContinues session final ∧ ∃ world, final = { session with world := world } ∧
          session.world.runStages platform.roomIds clockUs
            (planned session.world.live).stages = .ok world) session := by
  rw [runPlanned, Program.safe_bind, Program.safe_read]
  refine ⟨h, ?_⟩
  rw [Program.safe_bind]
  exact (safe_hostStages hids h hstages).mono fun _ _ hfinal => ⟨rfl, hfinal⟩

end Stages

section Calls

/-- What a call of the runtime did to the rooms: it sent something at most, or it made progress
on one local sync state, and saved that room. -/
inductive RoomCall (before after : SharedSyncRuntime Messages MessageAddedEvent)
    (effects : List (Effect Messages MessageAddedEvent)) : Prop where
  | quiet (nodes : after.nodes = before.nodes)
      (sends : ∀ effect ∈ effects, ∃ destination bytes, effect = .send destination bytes)
  | progressed (node committed : ChatRoom) (index : Nat) (eventId : ObjId)
      (event : LinkSyncEvent) (destination packet : Bytes) (registered : node ∈ before.nodes)
      (commit : commitLinkSyncEvent node index eventId event = .ok committed)
      (nodes : after.nodes = replaceNode before.nodes committed)
      (effects_eq : effects = [.saveNode committed, .send destination packet])

variable {aether : Aether Messages MessageAddedEvent}
  {runtime after : SharedSyncRuntime Messages MessageAddedEvent} {stepEnv : StepEnv}
  {nodeId shareId : ObjId}

theorem roomCall_of_packetBegun {node : ChatRoom} {destination : Bytes} {index : Nat}
    {state : LinkSyncState} {eventId : ObjId} {event : LinkSyncEvent} {packet : Bytes}
    {effects : List (Effect Messages MessageAddedEvent)}
    (hdestination : IsSyncDestination runtime nodeId shareId node destination index state)
    (h : PacketBegun runtime node index destination eventId event packet effects after) :
    RoomCall runtime after effects := by
  obtain ⟨committed, hcommit, rfl, rfl⟩ := h.outcome
  exact .progressed node committed index eventId event destination packet
    (List.mem_of_find?_eq_some hdestination.found) hcommit rfl rfl

theorem roomCall_syncInitialState
    (h : (syncInitialState aether chatRoom stepEnv runtime nodeId shareId).result = .ok after) :
    RoomCall runtime after
      (syncInitialState aether chatRoom stepEnv runtime nodeId shareId).effects := by
  obtain ⟨node, destination, index, state, hdestination, ⟨-, hnil, rfl⟩ | ⟨-, hsent, rfl⟩ |
    ⟨frozen, -, -, hbegun⟩⟩ := syncInitialState_cases h
  · rw [hnil]
    exact .quiet rfl fun effect hmem => absurd hmem List.not_mem_nil
  · rw [hsent]
    exact .quiet rfl fun effect hmem => ⟨_, _, List.mem_singleton.mp hmem⟩
  · exact roomCall_of_packetBegun hdestination hbegun

theorem roomCall_syncNextEvent
    (h : (syncNextEvent aether chatRoom stepEnv runtime nodeId shareId).result = .ok after) :
    RoomCall runtime after
      (syncNextEvent aether chatRoom stepEnv runtime nodeId shareId).effects := by
  obtain ⟨node, destination, index, state, hdestination, ⟨hnil, rfl⟩ | ⟨-, -, hsent, rfl⟩ |
    ⟨record, event, payload, -, -, -, hbegun⟩⟩ := syncNextEvent_cases h
  · rw [hnil]
    exact .quiet rfl fun effect hmem => absurd hmem List.not_mem_nil
  · rw [hsent]
    exact .quiet rfl fun effect hmem => ⟨_, _, List.mem_singleton.mp hmem⟩
  · exact roomCall_of_packetBegun hdestination hbegun

/-- The rooms of storage are under their own ids. -/
theorem HostState.keys {state : ChatState} (h : HostState state) :
    Everywhere (fun roomId room => room.objId = roomId) state.rooms :=
  h.rooms.mono fun _ _ hroom => hroom.1

/-- A send leaves the storage as it is. -/
theorem HostSession.performSend (h : HostSession session) (destination bytes : Bytes) :
    HostContinues session
      (session.setStorage (session.storage.perform (.send destination bytes))) :=
  h.setStorage h.world.saved
    (lookup_setRooms_same fun _ hnode => lookup_of_mem_values h.world.saved.keys hnode)

/-- A room that is saved as it is in memory. -/
theorem HostSession.performSave (h : HostSession session) {room : ChatRoom}
    (hroom : session.world.live.rooms.lookup room.objId = some room) :
    HostContinues session (session.setStorage (session.storage.perform (.saveNode room))) :=
  h.setStorage (h.world.saveRoom hroom) (lookup_saveNodeValue h.world.saved.keys)

/-- Sends leave the session as it is. -/
theorem safe_performSends (h : HostSession session)
    {effects : List (Effect Messages MessageAddedEvent)}
    (hsends : ∀ effect ∈ effects, ∃ destination bytes, effect = .send destination bytes) :
    (performEffects platform env effects).Safe HostSession
      (fun _ final => HostContinues session final) session := by
  induction effects generalizing session with
  | nil => exact .refl h
  | cons effect rest ih =>
      obtain ⟨destination, bytes, rfl⟩ := hsends effect List.mem_cons_self
      have hfirst := h.performSend destination bytes
      have hrest := ih hfirst.host fun other hmem => hsends other (List.mem_cons_of_mem _ hmem)
      rw [performEffects, Program.safe_bind, performEffect, Program.safe_modify]
      · exact ⟨hfirst.host, hrest.mono fun _ _ hfinal => hfirst.trans hfinal⟩
      · exact fun _ _ _ hbind => by cases hbind

/-- The rule for a call of the synchronization runtime. -/
theorem safe_hostCall {call : Replica Messages MessageAddedEvent →
      RuntimeM Messages MessageAddedEvent (SharedSyncRuntime Messages MessageAddedEvent)}
    (h : HostSession session)
    (hcall : ∀ replica after, (call replica).result = .ok after →
      RoomCall replica.runtime after (call replica).effects) :
    (callSync platform env call).Safe HostSession
      (fun _ final => HostContinues session final) session := by
  rw [callSync, Program.safe_bind, Program.safe_read]
  refine ⟨h, ?_⟩
  cases hruntime : session.syncRuntime with
  | none => exact .refl h
  | some runtime =>
  dsimp only
  cases hresult : (call (session.replicaOf runtime)).result with
  | error reason => exact fun _ hnone => by cases hnone
  | ok after =>
  dsimp only
  rw [Program.safe_bind, Program.safe_modify]
  have hknown := h.replica_nodes hruntime
  cases hcall _ _ hresult with
  | quiet hnodes hsends =>
      rw [← hnodes] at hknown
      have hset : HostContinues session (session.setRuntime after) :=
        h.setRuntime h.world.live (lookup_setRooms_same hknown) (fun _ hroom => hroom)
          fun node hnode => by rw [hknown node hnode]; rfl
      exact ⟨hset.host, (safe_performSends hset.host hsends).mono fun _ _ hfinal =>
        hset.trans hfinal⟩
  | progressed node committed index eventId event destination packet hregistered hcommit hnodes
      heffects =>
      have hroom := hknown node hregistered
      obtain ⟨-, drawn, htopology⟩ := h.world.live.rooms _ node hroom
      obtain ⟨hafter, hshares, hobjId⟩ := htopology.progress hcommit
      have hstate : HostState (session.world.live.setRoom committed.objId committed) :=
        h.world.live.setRoom_kept (by rw [hobjId]; exact hroom) rfl hafter hshares
      -- Every other Node of the runtime is the room in memory.
      have hothers : ∀ other ∈ after.nodes, other = committed ∨
          (other.objId ≠ committed.objId ∧
            session.world.live.rooms.lookup other.objId = some other) := by
        intro other hother
        rw [hnodes] at hother
        obtain ⟨before, hbefore, hreplaced⟩ := List.mem_map.mp hother
        split at hreplaced
        case isTrue => exact Or.inl hreplaced.symm
        case isFalse hne =>
          subst hreplaced
          exact Or.inr ⟨hne, hknown before hbefore⟩
      have hmem : committed ∈ after.nodes := by
        rw [hnodes]
        exact List.mem_map.mpr ⟨node, hregistered, if_pos hobjId.symm⟩
      have hlookup := lookup_setRooms_insert hmem hothers
      have hset : HostContinues session (session.setRuntime after) := by
        refine h.setRuntime hstate hlookup (fun _ hroom => isSome_lookup_insert hroom) ?_
        intro other hother
        rcases hothers other hother with rfl | ⟨-, hfound⟩
        · show ((session.world.live.rooms.insert _ _).lookup _).isSome = true
          rw [AList.lookup_insert]
          rfl
        · exact isSome_lookup_insert (by rw [hfound]; rfl)
      have hnow : (session.setRuntime after).world.live.rooms.lookup committed.objId =
          some committed := (hlookup committed.objId).trans (AList.lookup_insert _)
      have hsaved := hset.host.performSave hnow
      refine ⟨hset.host, ?_⟩
      rw [heffects, performEffects, Program.safe_bind, performEffect, Program.safe_modify]
      · refine ⟨hsaved.host, (safe_performSends hsaved.host ?_).mono fun _ _ hfinal =>
          (hset.trans hsaved).trans hfinal⟩
        exact fun effect hsent => ⟨destination, packet, List.mem_singleton.mp hsent⟩
      · exact fun _ _ _ hbind => by cases hbind

end Calls

section Acceptance

variable {clientUid : Bytes} {roomId : ObjId}

/-- The workspace is persisted. -/
theorem HostSession.persisted (h : HostSession session) :
    HostContinues session { session with world := session.world.persist } :=
  h.setWorld h.world.persist.1 h.world.persist.2

/-- A room of the replica is registered. -/
theorem HostSession.registerRoom (h : HostSession session) (roomId : ObjId) :
    HostContinues session (registerRoom session roomId) := by
  unfold AppTraverse.registerRoom
  split
  case h_1 => exact .refl h
  case h_2 room hroom =>
    refine ⟨⟨h.world, h.runtime, h.accepted, ?_⟩, .refl _, rfl, rfl⟩
    intro runtime hruntime node hnode
    obtain ⟨before, hbefore, rfl⟩ := Option.map_eq_some_iff.mp hruntime
    show (session.world.live.rooms.lookup node.objId).isSome = true
    split at hnode
    case isTrue => exact h.nodes before hbefore node hnode
    case isFalse =>
      rcases List.mem_append.mp hnode with hold | hlast
      · exact h.nodes before hbefore node hold
      · rw [List.mem_singleton.mp hlast, (h.world.live.rooms roomId room hroom).1, hroom]
        rfl

/-- A client may be accepted once its room is in storage. -/
theorem safe_sendJoinAccepted (h : HostSession session) {attemptId : ObjId}
    (hroom : session.world.saved.HasRoom clientUid roomId) :
    (sendJoinAccepted platform clientUid attemptId roomId).Safe HostSession
      (fun _ final => HostContinues session final) session := by
  rw [sendJoinAccepted, Program.safe_bind, Program.safe_modify]
  have hsent : HostContinues session
      (if canEncode platform { kind := .joinAccepted, attemptId := attemptId, roomId := roomId }
        then session.sendControl clientUid
          { kind := .joinAccepted, attemptId := attemptId, roomId := roomId }
        else session) := by
    split
    case isFalse => exact .refl h
    case isTrue =>
      refine ⟨⟨h.world, h.runtime, ?_, h.nodes⟩, .refl _, rfl, rfl⟩
      intro destination msg hmem hkind
      rcases List.mem_append.mp hmem with hold | hlast
      · exact h.accepted destination msg hold hkind
      · cases List.mem_singleton.mp hlast
        exact hroom
  refine ⟨hsent.host, ?_⟩
  rw [Program.safe_modify]
  have hregistered := hsent.host.registerRoom roomId
  exact ⟨hregistered.host, hsent.trans hregistered⟩

theorem safe_syncRoom (h : HostSession session) :
    (syncRoom platform env roomId clientUid).Safe HostSession
      (fun _ final => HostContinues session final) session := by
  rw [syncRoom, Program.safe_bind, Program.safe_read]
  refine ⟨h, ?_⟩
  split
  · exact .refl h
  split
  · exact .refl h
  exact safe_hostCall h fun _ _ hresult => roomCall_syncInitialState hresult

/-- A room that a host is about to give to a client: no entry has it yet. -/
structure RoomPrepared (start session : ChatSession) (roomId : ObjId) (room : ChatRoom)
    (drawn : List ObjId) : Prop where
  continues : HostContinues start session
  found : session.world.live.rooms.lookup roomId = some room
  topology : HasTopology room drawn
  unbound : session.world.live.IsUnbound roomId
  entries : session.world.live.entries = start.world.live.entries
  workspace : session.world.live.workspace = start.world.live.workspace

/-- The room takes another value. -/
theorem RoomPrepared.setRoom {start : ChatSession} {room next : ChatRoom}
    {drawn drawn' : List ObjId} (h : RoomPrepared start session roomId room drawn)
    (hobjId : next.objId = room.objId) (htopology : HasTopology next drawn') :
    RoomPrepared start { session with world := { session.world with
      live := session.world.live.setRoom roomId next } } roomId next drawn' where
  continues := by
    have hstate : HostState (session.world.live.setRoom roomId next) := by
      apply h.continues.host.world.live.setRoom _ htopology
      · intro entryId fields hfields hvalid hsame
        exact absurd hsame (h.unbound entryId fields hfields hvalid)
      · rw [hobjId, (h.continues.host.world.live.rooms roomId room h.found).1]
    exact h.continues.trans (h.continues.host.setRoom hstate)
  found := AList.lookup_insert _
  topology := htopology
  unbound := h.unbound
  entries := h.entries
  workspace := h.workspace

/-- The rule for a room that is created. -/
theorem HostSession.safe_createRoom (h : HostSession session) {baseId : ObjId}
    {post : Unit → ChatSession → Prop}
    (hnone : session.world.live.rooms.lookup roomId = none) (hvalid : baseId.isValid = true)
    (hother : baseId ≠ roomId)
    (hpost : ∀ final, RoomPrepared session final roomId
      (newChatRoom platform.roomIds roomId baseId) [] → post () final) :
    (createRoom platform roomId baseId).Safe HostSession post session := by
  have htopology : HasTopology (newChatRoom platform.roomIds roomId baseId) [] :=
    hasTopology_newChatRoom hvalid hother
  have hunbound := h.world.live.isUnbound hnone
  have hstate : HostState (session.world.live.setRoom roomId
      (newChatRoom platform.roomIds roomId baseId)) :=
    h.world.live.setRoom rfl htopology fun entryId fields hfields hbound hsame =>
      absurd hsame (hunbound entryId fields hfields hbound)
  have hprepared : RoomPrepared session { session with world := { session.world with
      live := session.world.live.setRoom roomId (newChatRoom platform.roomIds roomId baseId) } }
      roomId (newChatRoom platform.roomIds roomId baseId) [] :=
    ⟨h.setRoom hstate, AList.lookup_insert _, htopology, hunbound, rfl, rfl⟩
  rw [createRoom, Program.safe_modify]
  exact ⟨hprepared.continues.host, hpost _ hprepared⟩

/-- Its journal is never compacted. -/
theorem RoomPrepared.blockCompaction (hids : ∀ n, (platform.roomIds n).isValid = true)
    {start : ChatSession} {room : ChatRoom} {drawn : List ObjId}
    (h : RoomPrepared start session roomId room drawn) :
    RoomPrepared start (session.blockCompaction roomId) roomId
      { room with journalCompactionBlocked := true } drawn := by
  have htopology : HasTopology { room with journalCompactionBlocked := true } drawn :=
    h.topology.blockCompaction hids true
  have hobjId : ({ room with journalCompactionBlocked := true } : ChatRoom).objId =
      room.objId := rfl
  have hset := h.setRoom hobjId htopology
  unfold ChatSession.blockCompaction
  rw [h.found]
  exact hset

/-- The rule for a relationship that is added to it. -/
theorem RoomPrepared.safe_addShare (hids : ∀ n, (platform.roomIds n).isValid = true)
    {start : ChatSession} {room : ChatRoom} {drawn : List ObjId}
    (h : RoomPrepared start session roomId room drawn) {clockUs : UInt64} {eventId : ObjId}
    {link : Ref Link} {post : Unit → ChatSession → Prop} (hvalid : eventId.isValid = true)
    (hfresh : eventId ∉ drawn)
    (hlink : link.id ∉ room.fields.shares.map fun share => share.link.id)
    (hpost : ∀ final next, next.fields.shares =
        room.fields.shares ++ [⟨eventId, link, ShareAccess.readWrite⟩] →
      RoomPrepared start final roomId next (drawn ++ [eventId]) → post () final) :
    (addRoomShare platform clockUs roomId eventId link).Safe HostSession post session := by
  intro changed hchanged
  obtain ⟨found, hfound, hchanged⟩ := Option.bind_eq_some_iff.mp hchanged
  cases h.found.symm.trans hfound
  obtain ⟨next, hadded, rfl⟩ := Option.map_eq_some_iff.mp hchanged
  obtain ⟨htopology, hshares, hobjId⟩ :=
    h.topology.addShare hids hvalid hfresh hlink (toOption_eq_some_iff.mp hadded)
  have hset := h.setRoom hobjId htopology
  exact ⟨hset.continues.host, hpost _ next hshares hset⟩

/-- A client that has no room gets one, and is accepted with it. -/
theorem safe_hostAcceptNew (hids : ∀ n, (platform.roomIds n).isValid = true)
    (h : HostSession session) (hfresh : SessionIdsFresh session env)
    (huid : session.world.live.workspace.fields.localEndpointUid = session.myUid)
    (hmyUid : session.myUid ≠ []) (hother : clientUid ≠ session.myUid)
    (htrim : trimAsciiWhitespace clientUid = clientUid) {req : ChatBootstrapMessage} :
    (acceptNewClient platform env clientUid req).Safe HostSession
      (fun _ final => HostContinues session final) session := by
  have hentries := hfresh.entries 0
  rw [acceptNewClient, Program.safe_bind]
  refine (safe_hostPlanned hids h (hostStages_command h.world hfresh.valid hentries
    (.openOrSelectChat clientUid) (fun _ _ _ hbind => by cases hbind)
      (by intro hclient; cases hclient))).mono ?_
  rintro entryId opened ⟨hresult, hopened, world, rfl, hrun⟩
  split
  case isTrue => exact hopened
  case isFalse hentryValid =>
  rw [Bool.not_eq_true', Bool.not_eq_false, hresult] at hentryValid
  obtain ⟨entry, hlisted⟩ := listedEntry_of_openOrSelectChat h.world.nodes h.world.savedNodes
    hfresh.valid hentries hentryValid hrun
  rw [← hresult, htrim] at hlisted
  extract_lets fresh roomId remoteLink
  have hroomNone : world.live.rooms.lookup roomId = none := by
    rw [rooms_of_openOrSelectChat hrun]
    exact hfresh.rooms 4
  have hdistinct : ∀ m < maxDrawnIds, ∀ n < maxDrawnIds, m ≠ n →
      env.command.ids m ≠ env.command.ids n := fun m hm n hn hne hsame =>
    hne (hfresh.distinct m hm n hn hsame)
  rw [Program.safe_bind]
  apply hopened.host.safe_createRoom hroomNone (hfresh.valid 5)
    (hdistinct 5 (by decide) 4 (by decide) (by decide))
  intro created hcreated
  rw [Program.safe_bind, Program.safe_modify]
  have hblocked := hcreated.blockCompaction hids
  refine ⟨hblocked.continues.host, ?_⟩
  rw [Program.safe_bind, Program.safe_read]
  refine ⟨hblocked.continues.host, ?_⟩
  generalize created.blockCompaction roomId = blocked at hblocked ⊢
  extract_lets localLink
  rw [Program.safe_bind]
  apply hblocked.safe_addShare hids (hfresh.valid 8) List.not_mem_nil List.not_mem_nil
  intro hosted first hfirst hfirstPrepared
  rw [Program.safe_bind]
  have hlocalShares : first.fields.shares = [⟨fresh 4, localLink, ShareAccess.readWrite⟩] :=
    hfirst
  apply hfirstPrepared.safe_addShare hids (hfresh.valid 9)
  · intro hmem
    exact hdistinct 9 (by decide) 8 (by decide) (by decide) (List.mem_singleton.mp hmem)
  · rw [hlocalShares]
    intro hmem
    exact hdistinct 7 (by decide) 6 (by decide) (by decide) (List.mem_singleton.mp hmem)
  intro shared room hshares hprepared
  have hbetween : SharedBetween room.fields.shares session.myUid clientUid := by
    rw [hshares, hlocalShares]
    refine sharedBetween_pair hother ?_ ?_ rfl rfl
    · have hvalid : localLink.isValid = true := hfresh.valid 6
      rw [shareEndpoint, hvalid]
      exact congrArg some hblocked.continues.myUid
    · have hvalid : remoteLink.isValid = true := hfresh.valid 7
      rw [shareEndpoint, hvalid]
      rfl
  have hcontinues := hopened.trans hprepared.continues
  have hendpoint : shared.world.live.workspace.fields.localEndpointUid = session.myUid := by
    rw [hcontinues.moved.endpoint (by rw [huid]; exact hmyUid), huid]
  have hentry : shared.world.live.entries.lookup entryId = some entry := by
    rw [hprepared.entries]
    exact hlisted.found
  have hstage : StageShares shared.world.live (.commitEntry entryId
      ((env.command.drop 10).ids 0) (.chatBindingChanged remoteLink roomId)) := by
    intro fields hfields
    cases (ChatState.entryFields_of_lookup hentry).symm.trans hfields
    rw [hendpoint, hlisted.peer]
    exact ⟨hmyUid, room, hprepared.found, hbetween⟩
  rw [Program.safe_bind]
  refine (safe_hostPlanned hids hcontinues.host (hostStages_bindChat hcontinues.host.world
    (fun n => hfresh.valid (n + 10)) hstage)).mono ?_
  rintro bound final ⟨hbound, hfinal, last, rfl, hbindRun⟩
  have hdone := hcontinues.trans hfinal
  split
  case isTrue => exact hdone
  case isFalse hsucceeded =>
  rw [Bool.not_eq_true', Bool.not_eq_false, hbound] at hsucceeded
  obtain ⟨after, hafter, hafterRoom⟩ :=
    room_of_bindChat hcontinues.host.world.nodes hsucceeded hbindRun
  have hlistedShared : ListedEntry shared.world.live entryId clientUid entry :=
    ⟨by rw [hprepared.workspace]; exact hlisted.listed, hentry, hlisted.peer⟩
  obtain ⟨kept, hkept⟩ := hfinal.moved.live.listed hlistedShared
  cases hafter.symm.trans hkept.found
  have hroom : last.live.HasRoom clientUid roomId :=
    ⟨hfresh.valid 4, entryId, after, hkept, hafterRoom⟩
  rw [Program.safe_bind, persistWorkspace, Program.safe_modify]
  have hpersisted := hfinal.host.persisted
  refine ⟨hpersisted.host, ?_⟩
  rw [Program.safe_bind]
  refine (safe_sendJoinAccepted hpersisted.host hroom).mono ?_
  intro _ accepted haccepted
  exact (safe_syncRoom haccepted.host).mono fun _ _ hsynced =>
    ((hdone.trans hpersisted).trans haccepted).trans hsynced

/-- Any other control message may be sent. -/
theorem safe_sendJoinRejected (h : HostSession session) {attemptId : ObjId} {reason : Bytes} :
    (sendJoinRejected platform clientUid attemptId reason).Safe HostSession
      (fun _ final => HostContinues session final) session := by
  rw [sendJoinRejected, Program.safe_modify]
  split
  case isTrue => exact ⟨h, .refl h⟩
  case isFalse =>
    have hsent : HostContinues session (session.sendControl clientUid
        { kind := .joinRejected, attemptId := attemptId, rejectionReason := reason }) := by
      refine ⟨⟨h.world, h.runtime, ?_, h.nodes⟩, .refl _, rfl, rfl⟩
      intro destination msg hmem hkind
      rcases List.mem_append.mp hmem with hold | hlast
      · exact h.accepted destination msg hold hkind
      · cases List.mem_singleton.mp hlast
        cases hkind
    exact ⟨hsent.host, hsent⟩

/-- A host accepts a client with the room that the client has, or with a new one. -/
theorem safe_hostAccept (hids : ∀ n, (platform.roomIds n).isValid = true)
    (h : HostSession session) (hfresh : SessionIdsFresh session env)
    (hknows : KnowsItself session) (hconflict : session.identityConflict = false)
    (htrim : trimAsciiWhitespace clientUid = clientUid) {req : ChatBootstrapMessage} :
    (hostAcceptClient platform env clientUid req).Safe HostSession
      (fun _ final => HostContinues session final) session := by
  rw [hostAcceptClient, Program.safe_bind, Program.safe_read]
  refine ⟨h, ?_⟩
  split
  case isTrue => exact .refl h
  case isFalse =>
  split
  case isTrue => exact .refl h
  case isFalse hready =>
  split
  case isTrue => exact .refl h
  case isFalse hforeign =>
  simp only [Bool.or_eq_true, not_or, Bool.not_eq_true, decide_eq_true_eq] at hready hforeign
  have hmyUid : session.myUid ≠ [] := by simpa using hready.1.2
  extract_lets roomId
  split
  case isTrue =>
    exact safe_hostAcceptNew hids h hfresh (hknows hconflict hmyUid) hmyUid hforeign.2 htrim
  case isFalse hvalid =>
  rw [Bool.not_eq_true', Bool.not_eq_false] at hvalid
  split
  case isTrue => exact safe_sendJoinRejected h
  case isFalse =>
  have hroom : session.world.live.HasRoom clientUid roomId := by
    refine ⟨hvalid, ?_⟩
    simp only [roomId] at hvalid ⊢
    split at hvalid
    case h_1 => cases hvalid
    case h_2 entryId hfind =>
      obtain ⟨-, entry, hlisted⟩ := listedEntry_of_findEntryByPeer hfind
      exact ⟨entryId, entry, hlisted, (roomOf_of_lookup hlisted.found).symm⟩
  rw [Program.safe_bind, persistWorkspace, Program.safe_modify]
  have hpersisted := h.persisted
  refine ⟨hpersisted.host, ?_⟩
  rw [Program.safe_bind]
  refine (safe_sendJoinAccepted hpersisted.host hroom).mono ?_
  intro _ accepted haccepted
  have hdone := hpersisted.trans haccepted
  rw [Program.safe_bind, Program.safe_read]
  refine ⟨hdone.host, ?_⟩
  split
  · exact fun _ hnone => by cases hnone
  · exact hdone
  · exact (safe_syncRoom hdone.host).mono fun _ _ hsynced => hdone.trans hsynced

end Acceptance

end AppTraverse
