import AppTraverse.Chat.ChatCommands
import AppTraverse.Foundations.Tables

/-!
# Runs of a chat replica

Commands, crashes between any two of their stages, and whatever happens to the rooms:
Events that a peer sends and that are admitted, changes of the sharing topology, snapshots
that are imported, compactions.  A peer may name any origin, sequence and timestamp, so
nothing is assumed of the records in a room except that they were inserted.

What every run keeps is that each Node stands: it can be replayed, and so it takes Events.
-/

namespace AppTraverse

open Foundations

/-- A Node as it is loaded again after a restart. -/
def Node.reloaded {σ β ε : Type} (node : Node σ β ε) : Node σ β ε :=
  { node with
    appliedJournalSize := none
    generation := 1
    journalRetentionPolicy := {}
    journalCompactionBlocked := false }

/-- The replica after it is started from what it persisted. -/
def ChatState.reloaded (state : ChatState) : ChatState where
  workspace := state.workspace.reloaded
  entries := mapValues Node.reloaded state.entries
  rooms := mapValues Node.reloaded state.rooms

/-- The process ends, and a new one loads what was persisted. -/
def ChatWorld.restart (world : ChatWorld) : ChatWorld where
  live := world.saved.reloaded
  saved := world.saved
  history := { world.history with unsaved := [] }

/-- The actions of a replica.  `callRoom` stands for the calls that the synchronization
runtime makes on a room, and `importRoom` for a snapshot that it admitted. -/
inductive ChatAction where
  | run (env : CommandEnv) (command : ChatCommand)
  | interrupted (env : CommandEnv) (command : ChatCommand) (stages : Nat)
  | crash
  | persist
  | createRoom (roomId baseId : ObjId)
  | importRoom (snapshot : ChatRoom)
  | callRoom (roomId : ObjId) (call : NodeCall (SharedNodeEvent MessageAddedEvent))
  | saveRoom (roomId : ObjId)

section Steps

variable (roomIds : Nat → ObjId)

/-- A room that was just created. -/
def newChatRoom (roomId baseId : ObjId) : ChatRoom :=
  initializeRuntimeNode (chatRoom.nodeClass roomIds) roomId chatRoomClassId baseId
    { shares := [], app := [] }

/-- Another room of the replica. -/
def ChatState.setRoom (state : ChatState) (roomId : ObjId) (room : ChatRoom) : ChatState :=
  { state with rooms := state.rooms.insert roomId room }

/-- One action.  A failed assertion has no next state: the process is gone, and what can
follow is `interrupted` in its place. -/
def chatStep (world : ChatWorld) : ChatAction → Option ChatWorld
  | .run env command =>
      (world.runStages roomIds env.clockUs (command.stages env world.live)).toOption
  | .interrupted env command stages =>
      ((world.runStages roomIds env.clockUs
        ((command.stages env world.live).take stages)).toOption).map ChatWorld.restart
  | .crash => some world.restart
  | .persist => some world.persist
  | .createRoom roomId baseId =>
      some { world with live := world.live.setRoom roomId (newChatRoom roomIds roomId baseId) }
  | .importRoom snapshot =>
      ((replayFromBase (chatRoom.nodeClass roomIds) snapshot).toOption).map fun room =>
        { world with live := world.live.setRoom room.objId room }
  | .callRoom roomId call =>
      (world.live.rooms.lookup roomId).bind fun room =>
        (callStep (chatRoom.nodeClass roomIds) room call).map fun next =>
          { world with live := world.live.setRoom roomId next }
  | .saveRoom roomId =>
      (world.live.rooms.lookup roomId).map fun room =>
        { world with saved := world.saved.setRoom roomId room }

end Steps

/-- Every id that is drawn is valid, and an admitted snapshot has a base and searchable
local sync states. -/
def ChatActionAllowed (_ : ChatWorld) : ChatAction → Prop
  | .run env _ => ∀ n, (env.ids n).isValid = true
  | .interrupted env _ _ => ∀ n, (env.ids n).isValid = true
  | .createRoom _ baseId => baseId.isValid = true
  | .importRoom snapshot =>
      snapshot.base.isValid = true ∧ StatesUsable snapshot.fields.linkSyncStates
  | _ => True

/-- The replica at its first start. -/
def newChatState (workspaceId baseId : ObjId) : ChatState where
  workspace := initializeRuntimeNode chatWorkspace.nodeClass workspaceId chatWorkspaceClassId
    baseId {}
  entries := ∅
  rooms := ∅

/-- It is saved at once. -/
def newChatWorld (workspaceId baseId : ObjId) : ChatWorld where
  live := newChatState workspaceId baseId
  saved := newChatState workspaceId baseId

/-- The Nodes that only this replica commits to. -/
structure NodesLocal (state : ChatState) : Prop where
  workspace : state.workspace.IsLocal chatWorkspace
  entries : Everywhere (fun _ entry => entry.IsLocal chatEntry) state.entries

section Soundness

variable {roomIds : Nat → ObjId} (hids : ∀ n, (roomIds n).isValid = true)

/-- Every Node of the replica stands, and the rooms that entries are bound to are there. -/
structure ChatState.Sound (state : ChatState) : Prop where
  workspace : state.workspace.IsLocal chatWorkspace
  entries : Everywhere (fun _ entry => entry.IsLocal chatEntry ∧
    (entry.fields.room.isValid = true →
      (state.rooms.lookup entry.fields.room).isSome = true)) state.entries
  rooms : Everywhere (fun _ room => room.Stands (chatRoom.serializedFields roomIds hids))
    state.rooms

/-- A stage that refers to a room of the replica, and to valid new ids. -/
def StageAllowed (state : ChatState) : ChatStage → Prop
  | .createEntry _ baseId fields => baseId.isValid = true ∧ fields.room = ObjId.empty
  | .commitEntry _ _ (.chatBindingChanged _ roomId) => (state.rooms.lookup roomId).isSome = true
  | _ => True

variable {hids} {world next : ChatWorld} {clockUs : UInt64}

theorem Node.Stands.reloaded {σ β ε τ : Type} {cls : NodeClass σ β ε}
    {S : SerializedFields cls τ} {node : Node σ β ε} (h : node.Stands S) :
    node.reloaded.Stands S :=
  ⟨⟨rfl, h.replay⟩, h.baseValid, h.sound⟩

namespace ChatState.Sound

variable {state : ChatState}

theorem nodesLocal (h : state.Sound hids) : NodesLocal state :=
  ⟨h.workspace, h.entries.mono fun _ _ hentry => hentry.1⟩

theorem reloaded (h : state.Sound hids) : state.reloaded.Sound hids where
  workspace := ⟨h.workspace.toStands.reloaded, h.workspace.sorted⟩
  entries := by
    refine Everywhere.mapValues (h.entries.mono ?_)
    rintro key entry ⟨hlocal, hroom⟩
    refine ⟨⟨hlocal.toStands.reloaded, hlocal.sorted⟩, ?_⟩
    intro hvalid
    show ((mapValues Node.reloaded state.rooms).lookup entry.fields.room).isSome = true
    rw [lookup_mapValues, Option.isSome_map]
    exact hroom hvalid
  rooms := Everywhere.mapValues (h.rooms.mono fun _ _ hroom => hroom.reloaded)

theorem setRoom (h : state.Sound hids) {roomId : ObjId} {room : ChatRoom}
    (hroom : room.Stands (chatRoom.serializedFields roomIds hids)) :
    (state.setRoom roomId room).Sound hids where
  workspace := h.workspace
  entries := h.entries.mono fun _ _ hentry =>
    ⟨hentry.1, fun hvalid => isSome_lookup_insert (hentry.2 hvalid)⟩
  rooms := h.rooms.insert hroom

theorem setEntry (h : state.Sound hids) {entryId : ObjId} {entry : ChatEntry}
    (hentry : entry.IsLocal chatEntry)
    (hroom : entry.fields.room.isValid = true →
      (state.rooms.lookup entry.fields.room).isSome = true) :
    ({ state with entries := state.entries.insert entryId entry } : ChatState).Sound hids where
  workspace := h.workspace
  entries := h.entries.insert ⟨hentry, hroom⟩
  rooms := h.rooms

/-- The Node of a room after a call of the runtime. -/
theorem callRoom (h : state.Sound hids) {roomId : ObjId} {room after : ChatRoom}
    {call : NodeCall (SharedNodeEvent MessageAddedEvent)}
    (hroom : state.rooms.lookup roomId = some room)
    (hcall : callStep (chatRoom.nodeClass roomIds) room call = some after) :
    (state.setRoom roomId after).Sound hids :=
  h.setRoom ((h.rooms roomId room hroom).callStep hcall)

end ChatState.Sound

/-- Inversion of a stage. -/
inductive StageRun (roomIds : Nat → ObjId) (clockUs : UInt64) (world next : ChatWorld) :
    ChatStage → Prop where
  | createEntry (entryId baseId : ObjId) (fields : ChatEntryFields)
      (result : next = world.createEntry entryId baseId fields) :
      StageRun roomIds clockUs world next (.createEntry entryId baseId fields)
  | commitWorkspace (eventId : ObjId) (event : ChatWorkspaceEvent) (workspace : ChatWorkspace)
      (committed : commit chatWorkspace.nodeClass world.live.workspace ⟨eventId, some event⟩
        clockUs = .ok workspace)
      (result : next = { world with
        live := { world.live with workspace := workspace }
        history := { world.history with
          reserved := world.history.reserved ++ reservedBy event
          unsaved := world.history.unsaved ++ reservedBy event } }) :
      StageRun roomIds clockUs world next (.commitWorkspace eventId event)
  | commitEntry (entryId eventId : ObjId) (event : ChatEntryEvent) (entry after : ChatEntry)
      (found : world.live.entries.lookup entryId = some entry)
      (committed : commit chatEntry.nodeClass entry ⟨eventId, some event⟩ clockUs = .ok after)
      (result : next = { world with live := { world.live with
        entries := world.live.entries.insert entryId after } }) :
      StageRun roomIds clockUs world next (.commitEntry entryId eventId event)
  | commitMessage (roomId eventId : ObjId) (message : MessageValue) (room after : ChatRoom)
      (found : world.live.rooms.lookup roomId = some room)
      (committed : commitMessage roomIds clockUs room eventId message = .ok after)
      (result : next = { world with
        live := world.live.setRoom roomId after
        history := { world.history with
          authored := world.history.authored ++ [message] } }) :
      StageRun roomIds clockUs world next (.commitMessage roomId eventId message)
  | persist (result : next = world.persist) : StageRun roomIds clockUs world next .persist

theorem stageRun_of_runStage {stage : ChatStage}
    (hrun : world.runStage roomIds clockUs stage = .ok next) :
    StageRun roomIds clockUs world next stage := by
  cases stage with
  | createEntry entryId baseId fields =>
      exact .createEntry entryId baseId fields (Except.ok.inj hrun).symm
  | commitWorkspace eventId event =>
      obtain ⟨workspace, hcommit, hrun⟩ := except_bind_eq_ok_iff.mp hrun
      exact .commitWorkspace eventId event workspace hcommit (Except.ok.inj hrun).symm
  | commitEntry entryId eventId event =>
      simp only [ChatWorld.runStage, ChatWorld.commitEntry] at hrun
      split at hrun
      case h_1 => cases hrun
      case h_2 entry hentry =>
        obtain ⟨after, hcommit, hrun⟩ := except_bind_eq_ok_iff.mp hrun
        exact .commitEntry entryId eventId event entry after hentry hcommit
          (Except.ok.inj hrun).symm
  | commitMessage roomId eventId message =>
      simp only [ChatWorld.runStage, ChatWorld.commitMessage] at hrun
      split at hrun
      case h_1 => cases hrun
      case h_2 room hroom =>
        obtain ⟨after, hcommit, hrun⟩ := except_bind_eq_ok_iff.mp hrun
        exact .commitMessage roomId eventId message room after hroom hcommit
          (Except.ok.inj hrun).symm
  | persist => exact .persist (Except.ok.inj hrun).symm

/-- A stage keeps the Nodes standing. -/
theorem sound_runStage (h : world.live.Sound hids) {stage : ChatStage}
    (hallowed : StageAllowed world.live stage)
    (hrun : world.runStage roomIds clockUs stage = .ok next) : next.live.Sound hids := by
  cases stageRun_of_runStage hrun with
  | createEntry entryId baseId fields hresult =>
      subst hresult
      refine h.setEntry (isLocal_initializeRuntimeNode hallowed.1) ?_
      intro hvalid
      rw [show (initializeRuntimeNode chatEntry.nodeClass entryId chatEntryClassId baseId
        fields).fields.room = ObjId.empty from hallowed.2] at hvalid
      cases hvalid
  | commitWorkspace eventId event workspace hcommit hresult =>
      subst hresult
      obtain ⟨-, -, hcommitted⟩ := h.workspace.committed rfl hcommit
      exact ⟨hcommitted.isLocal, h.entries, h.rooms⟩
  | commitEntry entryId eventId event entry after hentry hcommit hresult =>
      subst hresult
      obtain ⟨hlocal, hroom⟩ := h.entries entryId entry hentry
      obtain ⟨-, -, hcommitted⟩ := hlocal.committed rfl hcommit
      refine h.setEntry hcommitted.isLocal ?_
      rw [hcommitted.fields]
      cases event with
      | chatBindingChanged link roomId => exact fun _ => hallowed
      | draftChanged text => exact hroom
      | scrollChanged scroll => exact hroom
  | commitMessage roomId eventId message room after hroom hcommit hresult =>
      subst hresult
      have hcall : callStep (chatRoom.nodeClass roomIds) room (.journal (.commitShared
          ⟨eventId, some (.app ⟨message⟩)⟩ message.id ⟨message.timestampUs⟩ clockUs)) =
            some after := toOption_eq_some_iff.mpr hcommit
      exact h.callRoom hroom hcall
  | persist hresult =>
      subst hresult
      exact h

/-- The rooms that are there stay there. -/
theorem rooms_of_runStage {stage : ChatStage}
    (hrun : world.runStage roomIds clockUs stage = .ok next) {roomId : ObjId}
    (hroom : (world.live.rooms.lookup roomId).isSome = true) :
    (next.live.rooms.lookup roomId).isSome = true := by
  cases stageRun_of_runStage hrun with
  | commitMessage other eventId message room after hfound hcommit hresult =>
      subst hresult
      exact isSome_lookup_insert hroom
  | createEntry entryId baseId fields hresult =>
      subst hresult
      exact hroom
  | commitWorkspace eventId event workspace hcommit hresult =>
      subst hresult
      exact hroom
  | commitEntry entryId eventId event entry after hentry hcommit hresult =>
      subst hresult
      exact hroom
  | persist hresult =>
      subst hresult
      exact hroom

theorem stageAllowed_of_runStage {stage other : ChatStage}
    (hrun : world.runStage roomIds clockUs stage = .ok next)
    (hallowed : StageAllowed world.live other) : StageAllowed next.live other := by
  cases other with
  | commitEntry entryId eventId event =>
      cases event with
      | chatBindingChanged link roomId => exact rooms_of_runStage hrun hallowed
      | draftChanged text => trivial
      | scrollChanged scroll => trivial
  | createEntry entryId baseId fields => exact hallowed
  | commitWorkspace eventId event => trivial
  | commitMessage roomId eventId message => trivial
  | persist => trivial

/-- A replica whose live and persisted Nodes stand. -/
def ChatWorld.Sound (hids : ∀ n, (roomIds n).isValid = true) (world : ChatWorld) : Prop :=
  world.live.Sound hids ∧ world.saved.Sound hids

/-- Only `persist` changes what is persisted. -/
theorem saved_of_runStage {stage : ChatStage}
    (hrun : world.runStage roomIds clockUs stage = .ok next) :
    next.saved = world.saved ∨ (stage = .persist ∧ next = world.persist) := by
  cases stageRun_of_runStage hrun with
  | persist hresult => exact Or.inr ⟨rfl, hresult⟩
  | createEntry entryId baseId fields hresult => exact Or.inl (by rw [hresult]; rfl)
  | commitWorkspace eventId event workspace hcommit hresult => exact Or.inl (by rw [hresult])
  | commitEntry entryId eventId event entry after hentry hcommit hresult =>
      exact Or.inl (by rw [hresult])
  | commitMessage roomId eventId message room after hroom hcommit hresult =>
      exact Or.inl (by rw [hresult])

/-- One stage of a replica whose Nodes stand. -/
theorem ChatWorld.Sound.runStage (h : world.Sound hids) {stage : ChatStage}
    (hallowed : StageAllowed world.live stage)
    (hrun : world.runStage roomIds clockUs stage = .ok next) : next.Sound hids := by
  refine ⟨sound_runStage h.1 hallowed hrun, ?_⟩
  rcases saved_of_runStage hrun with hsame | ⟨-, rfl⟩
  · rw [hsame]
    exact h.2
  · exact h.1

/-- The stages of a command, as far as they got. -/
theorem sound_runStages (h : world.Sound hids) {stages : List ChatStage}
    (hallowed : ∀ stage ∈ stages, StageAllowed world.live stage)
    (hrun : world.runStages roomIds clockUs stages = .ok next) : next.Sound hids := by
  induction stages generalizing world with
  | nil =>
      cases hrun
      exact h
  | cons stage rest ih =>
      rw [ChatWorld.runStages, List.foldlM_cons] at hrun
      obtain ⟨middle, hstage, hrest⟩ := except_bind_eq_ok_iff.mp hrun
      have hfirst := hallowed stage List.mem_cons_self
      refine ih (h.runStage hfirst hstage) ?_ hrest
      intro other hother
      exact stageAllowed_of_runStage hstage (hallowed other (List.mem_cons_of_mem _ hother))

/-- `BindChat` binds an entry to a room of the replica only. -/
theorem bindChat_stagesAllowed {env : CommandEnv} {state : ChatState} {entryId roomId : ObjId}
    {link : Ref Link} :
    ∀ stage ∈ (bindChat env state entryId link roomId).stages, StageAllowed state stage := by
  unfold bindChat
  split
  · simp
  split
  case isTrue => simp
  case isFalse hpointers =>
  have hroom : (state.rooms.lookup roomId).isSome = true := by
    rw [Bool.or_eq_true, not_or, Option.isNone_iff_eq_none] at hpointers
    exact Option.isSome_iff_ne_none.mpr hpointers.2
  repeat' split
  all_goals simp [StageAllowed, hroom]

/-- A command creates entries without a room, and binds an entry to a room of the replica
only. -/
theorem stagesAllowed {env : CommandEnv} (henv : ∀ n, (env.ids n).isValid = true)
    {state : ChatState} {command : ChatCommand} :
    ∀ stage ∈ command.stages env state, StageAllowed state stage := by
  cases command with
  | bindChat entryId link roomId => exact bindChat_stagesAllowed
  | submitDraft entryId nowUs =>
      simp only [ChatCommand.stages, submitDraft]
      repeat' split
      all_goals simp [submitStages, StageAllowed]
  | _ =>
      simp only [ChatCommand.stages, configureDemoRole, setHostUidInput, openOrSelectChat,
        bindLocalEndpoint, setDraft, setScroll, setEntryField, setDesktopBounds, selectChat]
      repeat' split
      all_goals simp [StageAllowed, henv]

/-- Every action keeps every Node standing. -/
theorem sound_chatStep (h : world.Sound hids) {action : ChatAction}
    (hallowed : ChatActionAllowed world action)
    (hstep : chatStep roomIds world action = some next) : next.Sound hids := by
  cases action with
  | run env command =>
      exact sound_runStages h (stagesAllowed hallowed) (toOption_eq_some_iff.mp hstep)
  | interrupted env command stages =>
      obtain ⟨reached, hrun, rfl⟩ := Option.map_eq_some_iff.mp hstep
      have hreached := sound_runStages h
        (fun stage hstage => stagesAllowed hallowed stage (List.mem_of_mem_take hstage))
        (toOption_eq_some_iff.mp hrun)
      exact ⟨hreached.2.reloaded, hreached.2⟩
  | crash =>
      cases hstep
      exact ⟨h.2.reloaded, h.2⟩
  | persist =>
      cases hstep
      exact ⟨h.1, h.1⟩
  | createRoom roomId baseId =>
      cases hstep
      refine ⟨h.1.setRoom ⟨folds_initializeRuntimeNode, hallowed, ?_⟩, h.2⟩
      intro entry hentry
      cases hentry
  | importRoom snapshot =>
      obtain ⟨room, hroom, rfl⟩ := Option.map_eq_some_iff.mp hstep
      have hrebuilt := toOption_eq_some_iff.mp hroom
      have hfolds : room.Folds (chatRoom.serializedFields roomIds hids) :=
        .of_replayFromBase hrebuilt
      refine ⟨h.1.setRoom ⟨hfolds, ?_, ?_⟩, h.2⟩
      · obtain ⟨base, applied, -, -, -, rfl⟩ := replayFromBase_keeps hrebuilt
        exact hallowed.1
      · obtain ⟨base, applied, -, hrun, -, rfl⟩ := replayFromBase_keeps hrebuilt
        exact SerializedFields.sound_of_applyRecords _
          (SerializedFields.sound_loadBase _ _ base hallowed.2) hrun
  | callRoom roomId call =>
      obtain ⟨room, hroom, hstep⟩ := Option.bind_eq_some_iff.mp hstep
      obtain ⟨after, hcall, rfl⟩ := Option.map_eq_some_iff.mp hstep
      exact ⟨h.1.callRoom hroom hcall, h.2⟩
  | saveRoom roomId =>
      obtain ⟨room, hroom, rfl⟩ := Option.map_eq_some_iff.mp hstep
      exact ⟨h.1, h.2.setRoom (h.1.rooms roomId room hroom)⟩

theorem sound_newChatWorld {workspaceId baseId : ObjId} (hvalid : baseId.isValid = true) :
    (newChatWorld workspaceId baseId).Sound hids := by
  have hstate : (newChatState workspaceId baseId).Sound hids :=
    ⟨isLocal_initializeRuntimeNode hvalid, Everywhere.empty, Everywhere.empty⟩
  exact ⟨hstate, hstate⟩

/-- The Nodes of a replica stand after every run. -/
theorem sound_chatRun {workspaceId baseId : ObjId} (hvalid : baseId.isValid = true)
    {actions : List ChatAction}
    (hallowed : EveryStep (chatStep roomIds) ChatActionAllowed
      (newChatWorld workspaceId baseId) actions)
    (hrun : runActions (chatStep roomIds) (newChatWorld workspaceId baseId) actions =
      some world) : world.Sound hids :=
  runActions_invariant (ChatWorld.Sound hids)
    (fun _ _ _ hstate haction hstep => sound_chatStep hstate haction hstep)
    (sound_newChatWorld hvalid) hallowed hrun

end Soundness

end AppTraverse
