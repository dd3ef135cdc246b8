import AppTraverse.Chat.HostHandlers
import AppTraverse.Chat.SentMessages
import AppTraverse.Reference.ChatSessions

/-!
# One room for each client

A host that restarts at any point, also in the middle of a handler, gives each client one room:
the room that the client was accepted with was in storage by then, and the entry of the client
keeps it.
-/

namespace AppTraverse

open Foundations

/-- The events of a host: it is not configured as a client, and what sends it control messages
has the text of a uid.  The frames of its rooms are not among them. -/
def IsHostEvent : SessionEvent → Prop
  | .command _ chosen => chosen ≠ .configureDemoRole .client
  | .control _ source _ => isUidText source = true
  | .frame _ _ _ => False
  | _ => True

/-- The event that is handled, to its end or not. -/
def SessionAction.event : SessionAction → SessionEvent
  | .handle event => event
  | .crash event _ _ _ => event

/-- What the surroundings of a host promise. -/
def HostActionAllowed (session : ChatSession) (action : SessionAction) : Prop :=
  SessionActionAllowed session action ∧ IsHostEvent action.event

/-- A host between two events. -/
def HostReady (session : ChatSession) : Prop := HostSession session ∧ KnowsItself session

section Events

variable {platform : ChatPlatform} {env : SessionEnv} {session : ChatSession}

theorem HostContinues.ready {next : ChatSession} (h : HostContinues session next)
    (hknows : KnowsItself session) : HostReady next :=
  ⟨h.host, h.knowsItself hknows⟩

/-- A session that differs in nothing that a host keeps. -/
theorem HostSession.of_eq (h : HostSession session) {next : ChatSession}
    (hworld : next.world = session.world) (hruntime : next.runtime = session.runtime)
    (hsent : next.sent = session.sent)
    (hnodes : ∀ runtime, next.syncRuntime = some runtime → ∀ node ∈ runtime.nodes,
      (session.world.live.rooms.lookup node.objId).isSome = true) : HostSession next := by
  constructor
  · rw [hworld]
    exact h.world
  · rw [hruntime]
    exact h.runtime
  · rw [hsent, hworld]
    exact h.accepted
  · rw [hworld]
    exact hnodes

/-- After an endpoint was bound the workspace is bound to it. -/
theorem endpoint_of_bindLocalEndpoint {roomIds : Nat → ObjId} {clockUs : UInt64}
    {world next : ChatWorld} {commandEnv : CommandEnv} {uid : Bytes}
    (hlocal : NodesLocal world.live)
    (hbound : (bindLocalEndpoint commandEnv world.live uid).result = true)
    (hrun : world.runStages roomIds clockUs
      (bindLocalEndpoint commandEnv world.live uid).stages = .ok next) :
    next.live.workspace.fields.localEndpointUid = uid := by
  unfold bindLocalEndpoint at hbound hrun
  split at hbound
  case isTrue => cases hbound
  case isFalse hempty =>
  rw [if_neg hempty] at hrun
  split at hbound
  case isTrue hsame =>
    rw [if_pos hsame] at hrun
    cases hrun
    exact hsame
  case isFalse hother =>
  rw [if_neg hother] at hrun
  split at hbound
  case isTrue => cases hbound
  case isFalse hfree =>
  rw [if_neg hfree, ChatWorld.runStages, List.foldlM_cons] at hrun
  obtain ⟨committed, hcommit, hrun⟩ := except_bind_eq_ok_iff.mp hrun
  cases hrun
  cases stageRun_of_runStage hcommit with
  | commitWorkspace eventId event workspace hcommitted hresult =>
      subst hresult
      obtain ⟨-, -, hfields⟩ := hlocal.workspace.committed rfl hcommitted
      show workspace.fields.localEndpointUid = uid
      rw [hfields.fields]
      rfl

theorem safe_hostCopyUid (h : HostSession session) :
    (copyHostUid env).Safe HostSession (fun _ final => HostContinues session final) session := by
  rw [copyHostUid, Program.safe_bind, Program.safe_read]
  refine ⟨h, ?_⟩
  extract_lets uid
  split
  · exact .refl h
  intro changed hchanged
  obtain ⟨runtime, hcommit, rfl⟩ := Option.map_eq_some_iff.mp hchanged
  obtain ⟨-, -, hcommitted⟩ := h.runtime.committed rfl (toOption_eq_some_iff.mp hcommit)
  have hnext : HostSession { session with runtime := runtime } :=
    ⟨h.world, hcommitted.isLocal, h.accepted, h.nodes⟩
  exact ⟨hnext, hnext, .refl _, rfl, rfl⟩

theorem safe_hostUid (hids : ∀ n, (platform.roomIds n).isValid = true) (h : HostSession session)
    (hfresh : SessionIdsFresh session env) {uid : Bytes} :
    (onUid platform env uid).Safe HostSession (fun _ final => HostReady final) session := by
  rw [onUid, Program.safe_bind, Program.safe_modify]
  have hnamed : HostSession { session with myUid := uid } := h.of_eq rfl rfl rfl h.nodes
  refine ⟨hnamed, ?_⟩
  rw [Program.safe_bind, Program.safe_read]
  refine ⟨hnamed, ?_⟩
  extract_lets persisted
  split
  case isTrue =>
    rw [Program.safe_modify]
    have hconflict : HostSession { session with myUid := uid, identityConflict := true } :=
      h.of_eq rfl rfl rfl h.nodes
    exact ⟨hconflict, hconflict, fun hnone => by cases hnone⟩
  case isFalse =>
    rw [Program.safe_bind]
    refine (safe_hostPlanned hids hnamed (hostStages_command hnamed.world hfresh.valid
      (hfresh.entries 0) (.bindLocalEndpoint uid) (fun _ _ _ hbind => by cases hbind)
      (by intro hclient; cases hclient))).mono ?_
    rintro bound final ⟨hbound, hfinal, world, rfl, hrun⟩
    split
    case isTrue =>
      rw [Program.safe_modify]
      have hconflict : HostSession
          { session with myUid := uid, world := world, identityConflict := true } :=
        hfinal.host.of_eq rfl rfl rfl hfinal.host.nodes
      exact ⟨hconflict, hconflict, fun hnone => by cases hnone⟩
    case isFalse hsucceeded =>
      rw [Bool.not_eq_true', Bool.not_eq_false, hbound] at hsucceeded
      exact ⟨hfinal.host, fun _ _ =>
        endpoint_of_bindLocalEndpoint hnamed.world.nodes hsucceeded hrun⟩

/-- The rooms of all entries are registered. -/
theorem HostSession.registerEntryRooms (h : HostSession session) :
    HostContinues session (registerEntryRooms session) := by
  unfold AppTraverse.registerEntryRooms
  generalize session.world.live.workspace.fields.chats = chats
  induction chats generalizing session with
  | nil => exact .refl h
  | cons entryId rest ih =>
      rw [List.foldl_cons]
      split
      · have hfirst := h.registerRoom (session.roomOf entryId)
        exact hfirst.trans (ih hfirst.host)
      · exact ih h

/-- What is expected of an endpoint does not concern the rooms. -/
theorem HostSession.expectAgain (h : HostSession session) :
    HostContinues session (expectAgain session) := by
  unfold AppTraverse.expectAgain
  split
  case isFalse => exact .refl h
  case isTrue =>
    refine ⟨h.of_eq rfl rfl rfl ?_, .refl _, rfl, rfl⟩
    intro runtime hruntime node hnode
    obtain ⟨before, hbefore, rfl⟩ := Option.map_eq_some_iff.mp hruntime
    refine h.nodes before hbefore node ?_
    unfold expectInitialNodeFromEndpoint at hnode
    dsimp only at hnode
    split at hnode
    · exact hnode
    · split at hnode
      · exact hnode
      · exact hnode

/-- A host sends no join again. -/
theorem resendJoin_of_host (platform : ChatPlatform) (now : Nat)
    (hrole : session.demoRole ≠ .client) : resendJoin platform now session = session := by
  unfold resendJoin
  exact if_pos (Or.inl hrole)

theorem safe_hostReady (h : HostSession session) :
    (onReady platform env).Safe HostSession (fun _ final => HostContinues session final)
      session := by
  rw [onReady, Program.safe_bind, Program.safe_read]
  refine ⟨h, ?_⟩
  split
  case isTrue => exact .refl h
  case isFalse =>
  rw [Program.safe_bind, Program.safe_modify]
  have hnone : (newSyncRuntime platform session.myUid).nodes = [] := by
    unfold newSyncRuntime allowStandaloneEventClass
    split
    · rfl
    · rfl
  have hstarted : HostContinues session { session with
      aetherReady := true
      syncRuntime := some (newSyncRuntime platform session.myUid) } := by
    refine ⟨h.of_eq rfl rfl rfl ?_, .refl _, rfl, rfl⟩
    intro runtime hruntime node hnode
    cases hruntime
    rw [hnone] at hnode
    cases hnode
  refine ⟨hstarted.host, ?_⟩
  rw [Program.safe_bind, Program.safe_modify]
  have hregistered := hstarted.trans hstarted.host.registerEntryRooms
  refine ⟨hregistered.host, ?_⟩
  rw [Program.safe_bind, Program.safe_modify]
  have hexpected := hregistered.trans hregistered.host.expectAgain
  refine ⟨hexpected.host, ?_⟩
  rw [Program.safe_modify, resendJoin_of_host platform env.now hexpected.host.world.live.role]
  exact ⟨hexpected.host, hexpected⟩

/-- Every event of a host keeps what a host keeps. -/
theorem safe_hostEvent (hids : ∀ n, (platform.roomIds n).isValid = true)
    (h : HostReady session) {event : SessionEvent}
    (hallowed : SessionEventAllowed session event) (hevent : IsHostEvent event) :
    (event.program platform).Safe HostSession (fun _ final => HostReady final) session := by
  obtain ⟨hhost, hknows⟩ := h
  have hrole : session.demoRole ≠ .client := hhost.world.live.role
  have hcontinues : ∀ program : Program ChatSession Unit, program.Safe HostSession
      (fun _ final => HostContinues session final) session →
      program.Safe HostSession (fun _ final => HostReady final) session :=
    fun program hprogram => hprogram.mono fun _ _ hfinal => hfinal.ready hknows
  cases event with
  | command env chosen =>
      apply hcontinues
      rw [SessionEvent.program, Program.safe_bind, Program.safe_read]
      refine ⟨hhost, ?_⟩
      exact (safe_hostStages hids hhost (hostStages_command hhost.world hallowed.1.valid
        (hallowed.1.entries 0) chosen hallowed.2 hevent)).mono fun _ _ hfinal => hfinal.1
  | copyHostUid env => exact hcontinues _ (safe_hostCopyUid hhost)
  | joinHost env =>
      apply hcontinues
      rw [SessionEvent.program, beginJoin, Program.safe_bind, Program.safe_read, if_pos hrole]
      exact ⟨hhost, .refl hhost⟩
  | control env source bytes =>
      apply hcontinues
      rw [SessionEvent.program, handleControl, Program.safe_bind, Program.safe_read]
      refine ⟨hhost, ?_⟩
      split
      case isTrue => exact .refl hhost
      case isFalse hconflict =>
      split
      case h_1 => exact .refl hhost
      case h_2 msg hdecoded =>
      split
      case isTrue =>
        exact safe_hostAccept hids hhost hallowed hknows (Bool.not_eq_true _ ▸ hconflict)
          (trimAsciiWhitespace_of_isUidText hevent)
      case isFalse => exact .refl hhost
  | frame env source bytes => exact hevent.elim
  | syncInitialState env roomId shareId =>
      exact hcontinues _ (safe_hostCall hhost fun _ _ hresult =>
        roomCall_syncInitialState hresult)
  | syncNextEvent env roomId shareId =>
      exact hcontinues _ (safe_hostCall hhost fun _ _ hresult => roomCall_syncNextEvent hresult)
  | tick env =>
      apply hcontinues
      rw [SessionEvent.program, driveJoinSend, Program.safe_bind, Program.safe_read,
        if_pos hrole]
      exact ⟨hhost, .refl hhost⟩
  | uid env endpointUid => exact safe_hostUid hids hhost hallowed
  | ready env => exact hcontinues _ (safe_hostReady hhost)
  | retryConnection =>
      apply hcontinues
      rw [SessionEvent.program, AppTraverse.retryConnection, Program.safe_modify]
      split
      case isTrue => exact ⟨hhost, .refl hhost⟩
      case isFalse =>
        have hstopped : HostContinues session
            { session with syncRuntime := none, aetherReady := false } :=
          ⟨hhost.of_eq rfl rfl rfl (fun _ hnone => by cases hnone), .refl _, rfl, rfl⟩
        exact ⟨hstopped.host, hstopped⟩
  | persist =>
      apply hcontinues
      rw [SessionEvent.program, persistWorkspace, Program.safe_modify]
      exact ⟨hhost.persisted.host, hhost.persisted⟩

end Events

section Runs

variable {platform : ChatPlatform} {session next : ChatSession}

/-- A room whose journal is not compacted any more. -/
theorem HostSession.blockCompaction (hids : ∀ n, (platform.roomIds n).isValid = true)
    (h : HostSession session) (roomId : ObjId) :
    HostContinues session (session.blockCompaction roomId) := by
  unfold ChatSession.blockCompaction
  split
  case h_1 => exact .refl h
  case h_2 room hroom =>
    obtain ⟨hobjId, drawn, htopology⟩ := h.world.live.rooms roomId room hroom
    have hblocked : HasTopology { room with journalCompactionBlocked := true } drawn :=
      htopology.blockCompaction hids true
    exact h.setRoom (h.world.live.setRoom_kept hroom hobjId hblocked rfl)

theorem HostSession.blockEntryRooms (hids : ∀ n, (platform.roomIds n).isValid = true)
    (h : HostSession session) : HostContinues session (blockEntryRooms session) := by
  unfold AppTraverse.blockEntryRooms
  generalize session.world.live.workspace.fields.chats = chats
  induction chats generalizing session with
  | nil => exact .refl h
  | cons entryId rest ih =>
      rw [List.foldl_cons]
      split
      · have hfirst := h.blockCompaction hids (session.roomOf entryId)
        exact hfirst.trans (ih hfirst.host)
      · exact ih h

/-- A new session that sent nothing yet. -/
theorem hostSession_newSession {world : ChatWorld} (h : HostWorld world)
    {runtimeId runtimeBaseId : ObjId} (hvalid : runtimeBaseId.isValid = true) :
    HostSession (newSession world runtimeId runtimeBaseId) where
  world := h
  runtime := isLocal_initializeRuntimeNode hvalid
  accepted _ _ hmem := absurd hmem List.not_mem_nil
  nodes _ hnone := by cases hnone

/-- Who was accepted before a restart has its room after it. -/
theorem HostSession.relaunched (hids : ∀ n, (platform.roomIds n).isValid = true)
    (h : HostSession session) {runtimeId runtimeBaseId : ObjId}
    (hvalid : runtimeBaseId.isValid = true) :
    HostReady (session.relaunched runtimeId runtimeBaseId) := by
  have hloaded : HostSession (newSession session.world.restart runtimeId runtimeBaseId) :=
    hostSession_newSession h.world.restart hvalid
  have hblocked := hloaded.blockEntryRooms hids
  refine ⟨⟨hblocked.host.world, hblocked.host.runtime, ?_, hblocked.host.nodes⟩, ?_⟩
  · intro destination msg hmem hkind
    exact (h.accepted destination msg hmem hkind).of_kept hblocked.moved.saved
  · intro _ huid
    exact absurd hblocked.myUid huid

/-- Every action of a host keeps what a host keeps. -/
theorem HostReady.sessionStep (hids : ∀ n, (platform.roomIds n).isValid = true)
    (h : HostReady session) {action : SessionAction} (hallowed : HostActionAllowed session action)
    (hstep : sessionStep platform session action = some next) : HostReady next := by
  obtain ⟨haction, hevent⟩ := hallowed
  cases action with
  | handle event =>
      obtain ⟨⟨result, final⟩, hrun, rfl⟩ := Option.map_eq_some_iff.mp hstep
      exact (safe_hostEvent hids h haction hevent).run hrun
  | crash event steps runtimeId runtimeBaseId =>
      obtain ⟨reached, hcut, rfl⟩ := Option.map_eq_some_iff.mp hstep
      have hreached := (safe_hostEvent hids h haction.1 hevent).cutOff h.1 hcut
      exact hreached.relaunched hids haction.2

theorem hostReady_firstSession {workspaceId baseId runtimeId runtimeBaseId : ObjId}
    (hbase : baseId.isValid = true) (hruntimeBase : runtimeBaseId.isValid = true) :
    HostReady (firstSession workspaceId baseId runtimeId runtimeBaseId) := by
  have hstate : HostState (newChatState workspaceId baseId) := by
    refine ⟨nofun, Everywhere.empty, ?_⟩
    intro entryId fields hfields
    unfold ChatState.entryFields newChatState at hfields
    rw [AList.lookup_empty] at hfields
    cases hfields
  have hnodes : NodesLocal (newChatState workspaceId baseId) :=
    ⟨isLocal_initializeRuntimeNode hbase, Everywhere.empty⟩
  exact ⟨hostSession_newSession ⟨hstate, hstate, formed_newChatWorld, hnodes, hnodes, .refl _,
    fun _ => rfl⟩ hruntimeBase, fun _ huid => absurd rfl huid⟩

/-- What holds of the clients of a host. -/
structure GivesOneRoom (session : ChatSession) : Prop where
  entries : ∀ clientUid, (session.world.live.workspace.fields.chats.filter fun entryId =>
    decide (session.world.live.peerOf entryId = some clientUid)).length ≤ 1
  rooms : ∀ clientUid first second, session.world.live.HasRoom clientUid first →
    session.world.live.HasRoom clientUid second → first = second
  accepted : ∀ clientUid first second, (clientUid, first) ∈ session.sent →
    (clientUid, second) ∈ session.sent → first.kind = .joinAccepted →
    second.kind = .joinAccepted →
    first.roomId = second.roomId ∧ session.world.live.HasRoom clientUid first.roomId
  shared : ∀ clientUid roomId, session.world.live.HasRoom clientUid roomId → ∃ room,
    session.world.live.rooms.lookup roomId = some room ∧
    SharedBetween room.fields.shares session.world.live.workspace.fields.localEndpointUid
      clientUid

/-- Every client that is accepted had its room in storage before the message was sent. -/
def PersistsBeforeAccepting (platform : ChatPlatform) (session : ChatSession)
    (event : SessionEvent) : Prop :=
  ∀ steps before after, (event.program platform).cutOff steps session = some before →
    (event.program platform).cutOff (steps + 1) session = some after →
    ∀ clientUid msg, (clientUid, msg) ∈ after.sent → msg.kind = .joinAccepted →
      before.world.saved.HasRoom clientUid msg.roomId

/-- The session is as it was, but for JoinRejected messages to the client. -/
def OnlyRejects (clientUid : Bytes) (attemptId : ObjId) (session reached : ChatSession) : Prop :=
  ∃ answers, reached = { session with sent := session.sent ++ answers } ∧
    ∀ answer ∈ answers, answer.1 = clientUid ∧ answer.2.kind = .joinRejected ∧
      answer.2.attemptId = attemptId

/-- Chats of one client are one chat. -/
theorem ChatState.Formed.listed_unique {state : ChatState} (h : state.Formed)
    {first second : ObjId} {clientUid : Bytes} {entry other : ChatEntry}
    (hfirst : ListedEntry state first clientUid entry)
    (hsecond : ListedEntry state second clientUid other) : first = second := by
  by_contra hne
  have hsymm : Std.Symm fun first second => state.peerOf first ≠ state.peerOf second :=
    ⟨fun _ _ hdiffers => hdiffers.symm⟩
  have hpeers := h.distinct.forall hfirst.listed hsecond.listed hne
  rw [ChatState.peerOf, ChatState.peerOf, ChatState.entryFields_of_lookup hfirst.found,
    ChatState.entryFields_of_lookup hsecond.found] at hpeers
  exact hpeers (congrArg some (hfirst.peer.trans hsecond.peer.symm))

theorem ChatState.Formed.hasRoom_unique {state : ChatState} (h : state.Formed)
    {clientUid : Bytes} {first second : ObjId} (hfirst : state.HasRoom clientUid first)
    (hsecond : state.HasRoom clientUid second) : first = second := by
  obtain ⟨-, entryId, entry, hlisted, rfl⟩ := hfirst
  obtain ⟨-, otherId, other, hother, rfl⟩ := hsecond
  cases h.listed_unique hlisted hother
  cases hlisted.found.symm.trans hother.found
  rfl

theorem ChatState.Formed.length_chatsOf {state : ChatState} (h : state.Formed)
    (clientUid : Bytes) : (state.workspace.fields.chats.filter fun entryId =>
      decide (state.peerOf entryId = some clientUid)).length ≤ 1 := by
  have hdistinct := h.distinct.filter fun entryId =>
    decide (state.peerOf entryId = some clientUid)
  cases hfilter : state.workspace.fields.chats.filter fun entryId =>
    decide (state.peerOf entryId = some clientUid) with
  | nil => exact Nat.zero_le 1
  | cons first rest =>
      cases rest with
      | nil => exact Nat.le_refl 1
      | cons second others =>
          rw [hfilter] at hdistinct
          have hmember : ∀ entryId ∈ first :: second :: others,
              state.peerOf entryId = some clientUid := by
            intro entryId hmem
            rw [← hfilter] at hmem
            exact of_decide_eq_true (List.mem_filter.mp hmem).2
          refine absurd ?_ (List.rel_of_pairwise_cons hdistinct List.mem_cons_self)
          rw [hmember first List.mem_cons_self,
            hmember second (List.mem_cons_of_mem _ List.mem_cons_self)]

theorem HostSession.givesOneRoom (h : HostSession session) : GivesOneRoom session where
  entries := h.world.formed.1.length_chatsOf
  rooms _ _ _ := h.world.formed.1.hasRoom_unique
  accepted clientUid first second hfirst hsecond hkind hkind' := by
    have hroom := (h.accepted clientUid first hfirst hkind).of_kept h.world.entries
    have hroom' := (h.accepted clientUid second hsecond hkind').of_kept h.world.entries
    exact ⟨h.world.formed.1.hasRoom_unique hroom hroom', hroom⟩
  shared clientUid roomId hroom := by
    obtain ⟨hvalid, entryId, entry, hlisted, rfl⟩ := hroom
    obtain ⟨-, room, hfound, hbetween⟩ := h.world.live.bound entryId entry.fields
      (ChatState.entryFields_of_lookup hlisted.found) hvalid
    rw [hlisted.peer] at hbetween
    exact ⟨room, hfound, hbetween⟩

theorem ChatState.Formed.findEntryByPeer_eq {state : ChatState} (h : state.Formed)
    {clientUid : Bytes} {entryId : ObjId} {entry : ChatEntry}
    (hlisted : ListedEntry state entryId clientUid entry) :
    findEntryByPeer state clientUid = some entryId := by
  cases hfind : findEntryByPeer state clientUid with
  | some found =>
      obtain ⟨-, other, hother⟩ := listedEntry_of_findEntryByPeer hfind
      rw [h.listed_unique hlisted hother]
  | none =>
      have hnone := List.find?_eq_none.mp hfind entryId hlisted.listed
      simp [h.valid entryId hlisted.listed, hlisted.found, hlisted.peer] at hnone

theorem OnlyRejects.refl (clientUid : Bytes) (attemptId : ObjId) (session : ChatSession) :
    OnlyRejects clientUid attemptId session session :=
  ⟨[], by rw [List.append_nil], fun _ hmem => absurd hmem List.not_mem_nil⟩

/-- A request for another room than the client has is answered by JoinRejected only. -/
theorem safe_conflictingRequest (h : HostSession session) {env : SessionEnv}
    {source bytes : Bytes} {msg : ChatBootstrapMessage} {roomId : ObjId}
    (hdecoded : decodeChatBootstrap platform bytes = some msg) (hkind : msg.kind = .joinRequest)
    (hroom : session.world.live.HasRoom source roomId) (hclaimed : msg.roomId.isValid = true)
    (hother : msg.roomId ≠ roomId) :
    (handleControl platform env source bytes).Safe (OnlyRejects source msg.attemptId session)
      (fun _ final => OnlyRejects source msg.attemptId session final) session := by
  have hrefl := OnlyRejects.refl source msg.attemptId session
  obtain ⟨hvalid, entryId, entry, hlisted, rfl⟩ := hroom
  rw [handleControl, Program.safe_bind, Program.safe_read]
  refine ⟨hrefl, ?_⟩
  split
  case isTrue => exact hrefl
  case isFalse =>
  rw [hdecoded]
  dsimp only
  rw [hkind]
  split
  case isFalse =>
    have hrole : session.demoRole ≠ .client := h.world.live.role
    rw [if_pos hrole]
    exact hrefl
  case isTrue =>
  rw [hostAcceptClient, Program.safe_bind, Program.safe_read]
  refine ⟨hrefl, ?_⟩
  split
  case isTrue => exact hrefl
  case isFalse =>
  split
  case isTrue => exact hrefl
  case isFalse =>
  split
  case isTrue => exact hrefl
  case isFalse =>
  rw [h.world.formed.1.findEntryByPeer_eq hlisted]
  dsimp only
  rw [roomOf_of_lookup hlisted.found, hvalid, if_neg (by decide), if_pos ⟨hclaimed, hother⟩,
    sendJoinRejected, Program.safe_modify]
  split
  case isTrue => exact ⟨hrefl, hrefl⟩
  case isFalse =>
    have hanswered : OnlyRejects source msg.attemptId session (session.sendControl source
        { kind := .joinRejected
          attemptId := msg.attemptId
          rejectionReason := asciiBytes "Join conflict: saved room does not match host room" }) :=
      ⟨[_], rfl, fun answer hmem => by rw [List.mem_singleton.mp hmem]; exact ⟨rfl, rfl, rfl⟩⟩
    exact ⟨hanswered, hanswered⟩

/-- The client asks to join.  The host ends when the room is in storage and the client was not
told yet, starts again, and is asked twice more. -/
def clientAsksAgain : List ScriptedAction :=
  hostStarts ++
    [⟨100000, .crash (.control (sessionEnv 100000 true) clientUid
        (controlBytes ⟨.joinRequest, ⟨77⟩, .empty, []⟩)) 15 ⟨5⟩ ⟨6⟩, rfl, fun _ h => ⟨h, rfl⟩⟩,
      ⟨110000, .handle (.uid (sessionEnv 110000 true) hostUid), rfl, fun _ h => h⟩,
      ⟨120000, .handle (.ready (sessionEnv 120000 true)), rfl, fun _ h => h⟩,
      controlArrived 130000 clientUid ⟨.joinRequest, ⟨78⟩, .empty, []⟩ rfl,
      controlArrived 140000 clientUid ⟨.joinRequest, ⟨79⟩, .empty, []⟩ rfl]

end Runs

end AppTraverse
