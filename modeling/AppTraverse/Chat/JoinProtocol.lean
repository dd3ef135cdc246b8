import AppTraverse.Chat.JoinMoves
import AppTraverse.Reference.ChatSessions

/-!
# The client side of a join

Three parts of a session move its join: the user, the control messages of the host, and
the import of a room.  Whichever of them completes the join, its entry is bound to
the room that the expected host offered in the current attempt.
-/

namespace AppTraverse

open Foundations

/-- The phases in which a room was offered. -/
def ChatJoinPhase.hasOffer : ChatJoinPhase → Bool
  | .accepted | .joined => true
  | .idle | .joining | .failed => false

/-- The accepted room was offered by the expected host in the current attempt. -/
def RoomOffered (platform : ChatPlatform) (session : ChatSession) : Prop :=
  session.join.acceptedRoomId.isValid = true ∧ ∃ offer ∈ session.offers,
    canonicalSource platform offer.source = session.join.expectedHostUid ∧
      offer.attemptId = session.join.joinAttemptId ∧
      offer.roomId = session.join.acceptedRoomId

/-- The invariant of the join. -/
structure JoinSound (platform : ChatPlatform) (session : ChatSession) : Prop where
  nodes : SessionLocal session
  underway : session.join.joinPhase.hasEntry = true → ∃ entry, JoinEntry session entry
  offered : session.join.joinPhase.hasOffer = true → RoomOffered platform session
  joined : session.join.joinPhase = .joined →
    session.join.boundRoomId = session.join.acceptedRoomId ∧
      session.roomOf session.join.joinEntryId = session.join.acceptedRoomId

section Invariant

variable {platform : ChatPlatform} {session next : ChatSession}

/-- A move that keeps the join keeps its invariant. -/
theorem JoinSound.of_same (h : JoinSound platform session) (hcontinues : Continues session next)
    (hjoin : SameJoin session.join next.join)
    (hoffers : ∀ offer ∈ session.offers, offer ∈ next.offers) : JoinSound platform next where
  nodes := hcontinues.nodes
  underway := by
    rw [hjoin.phase]
    intro hphase
    obtain ⟨entry, hentry⟩ := h.underway hphase
    obtain ⟨kept, hkept, hpeer, -⟩ := hcontinues.entries.entries _ entry hentry.found
    refine ⟨kept, ?_⟩
    constructor
    · rw [hjoin.attempt]
      exact hentry.attempt
    · rw [hjoin.entry]
      exact hentry.valid
    · rw [hjoin.entry]
      exact hcontinues.entries.chats _ hentry.listed
    · rw [hjoin.entry]
      exact hkept
    · rw [hpeer, hjoin.host, hentry.peer]
  offered := by
    rw [hjoin.phase]
    intro hphase
    obtain ⟨hvalid, offer, hmem, hoffer⟩ := h.offered hphase
    rw [RoomOffered, hjoin.accepted, hjoin.host, hjoin.attempt]
    exact ⟨hvalid, offer, hoffers offer hmem, hoffer⟩
  joined := by
    rw [hjoin.phase, hjoin.bound, hjoin.accepted, hjoin.entry]
    intro hphase
    obtain ⟨hbound, hroom⟩ := h.joined hphase
    have hvalid := (h.offered (by rw [hphase]; rfl)).1
    refine ⟨hbound, ?_⟩
    rw [roomOf_of_entriesKept hcontinues.entries (by rw [hroom]; exact hvalid), hroom]

/-- A join that failed has nothing to answer for. -/
theorem joinSound_of_failed (h : SessionLocal next) (hphase : next.join.joinPhase = .failed) :
    JoinSound platform next := by
  refine ⟨h, ?_, ?_, ?_⟩
  all_goals
    intro hother
    rw [hphase] at hother
    cases hother

/-- A join goes on with its entry. -/
theorem JoinSound.entry_of_progress (h : JoinSound platform session)
    (hcontinues : Continues session next) {phase : ChatJoinPhase} {roomId : ObjId}
    (hprogress : JoinProgress session.join next.join phase roomId)
    (hunderway : session.join.joinPhase.hasEntry = true) : ∃ entry, JoinEntry next entry := by
  obtain ⟨entry, hentry⟩ := h.underway hunderway
  obtain ⟨kept, hkept, hpeer, -⟩ := hcontinues.entries.entries _ entry hentry.found
  refine ⟨kept, ?_⟩
  constructor
  · rw [hprogress.attempt]
    exact hentry.attempt
  · rw [hprogress.entry]
    exact hentry.valid
  · rw [hprogress.entry]
    exact hcontinues.entries.chats _ hentry.listed
  · rw [hprogress.entry]
    exact hkept
  · rw [hpeer, hprogress.host, hentry.peer]

/-- Every move keeps the invariant of the join. -/
theorem JoinSound.move (h : JoinSound platform session) (hcontinues : Continues session next)
    {source : Bytes} (hmove : JoinMove platform source session next) : JoinSound platform next := by
  cases hmove with
  | unmoved hjoin hoffers => exact h.of_same hcontinues hjoin hoffers
  | disconnected hjoin hoffers =>
      exact h.of_same hcontinues hjoin fun offer hmem => by rw [hoffers]; exact hmem
  | connected hjoin hoffers =>
      exact h.of_same hcontinues hjoin fun offer hmem => by rw [hoffers]; exact hmem
  | failed closed hphase => exact joinSound_of_failed hcontinues.nodes hphase
  | requested entry hphase hfound =>
      refine ⟨hcontinues.nodes, fun _ => ⟨entry, hfound⟩, ?_, ?_⟩
      all_goals
        intro hother
        rw [hphase] at hother
        cases hother
  | offered roomId hbefore hprogress hvalid hhost hoffer =>
      refine ⟨hcontinues.nodes,
        fun _ => h.entry_of_progress hcontinues hprogress (by rw [hbefore]; rfl), fun _ => ?_, ?_⟩
      · rw [RoomOffered, hprogress.accepted, hprogress.host, hprogress.attempt]
        exact ⟨hvalid, _, hoffer, hhost, rfl, rfl⟩
      · intro hjoined
        rw [hprogress.phase] at hjoined
        cases hjoined
  | offeredAgain hbefore hjoin hoffers => exact h.of_same hcontinues hjoin hoffers
  | completed roomId hbefore hprogress hvalid hhost hoffer hbound hroom =>
      refine ⟨hcontinues.nodes,
        fun _ => h.entry_of_progress hcontinues hprogress (by rw [hbefore]; rfl), fun _ => ?_,
        fun _ => ?_⟩
      · rw [RoomOffered, hprogress.accepted, hprogress.host, hprogress.attempt]
        exact ⟨hvalid, _, hoffer, hhost, rfl, rfl⟩
      · rw [hbound, hprogress.accepted, hprogress.entry]
        exact ⟨rfl, hroom⟩
  | imported endpoint expectation hbefore hprogress hoffers hbound hroom =>
      obtain ⟨hvalid, offer, hmem, hoffer⟩ := h.offered (by rw [hbefore]; rfl)
      refine ⟨hcontinues.nodes,
        fun _ => h.entry_of_progress hcontinues hprogress (by rw [hbefore]; rfl), fun _ => ?_,
        fun _ => ?_⟩
      · rw [RoomOffered, hprogress.accepted, hprogress.host, hprogress.attempt, hoffers]
        exact ⟨hvalid, offer, hmem, hoffer⟩
      · rw [hbound, hprogress.accepted, hprogress.entry]
        exact ⟨rfl, hroom⟩

theorem JoinSound.hasAttempt (h : JoinSound platform session) : HasAttempt session.join := by
  intro hphase
  obtain ⟨entry, hentry⟩ := h.underway hphase
  exact hentry.attempt

end Invariant

section Runs

variable {platform : ChatPlatform} {session next : ChatSession}

theorem sessionLocal_newSession {world : ChatWorld} {runtimeId runtimeBaseId : ObjId}
    (hlive : NodesLocal world.live) (hsaved : NodesLocal world.saved)
    (hbase : runtimeBaseId.isValid = true) :
    SessionLocal (newSession world runtimeId runtimeBaseId) :=
  ⟨hlive, hsaved, isLocal_initializeRuntimeNode hbase⟩

/-- A session that was just started has not joined. -/
theorem joinSound_of_idle (h : SessionLocal session) (hphase : session.join.joinPhase = .idle) :
    JoinSound platform session := by
  refine ⟨h, ?_, ?_, ?_⟩
  all_goals
    intro hother
    rw [hphase] at hother
    cases hother

theorem NodesLocal.reloaded {state : ChatState} (h : NodesLocal state) :
    NodesLocal state.reloaded where
  workspace := ⟨h.workspace.toStands.reloaded, h.workspace.sorted⟩
  entries := Everywhere.mapValues (h.entries.mono fun _ _ hentry =>
    ⟨hentry.toStands.reloaded, hentry.sorted⟩)

theorem sessionKept_blockEntryRooms (h : SessionLocal session) :
    SessionKept session (blockEntryRooms session) := by
  unfold blockEntryRooms
  generalize session.world.live.workspace.fields.chats = chats
  induction chats generalizing session with
  | nil => exact .refl h
  | cons entryId rest ih =>
      rw [List.foldl_cons]
      split
      · have hfirst := sessionKept_blockCompaction h (session.roomOf entryId)
        exact hfirst.trans (ih (hfirst.sessionLocal h))
      · exact ih h

/-- A new process starts without a join and without expectations. -/
theorem relaunched_eq (h : SessionLocal session) {runtimeId runtimeBaseId : ObjId}
    (hbase : runtimeBaseId.isValid = true) :
    SessionLocal (session.relaunched runtimeId runtimeBaseId) ∧
      (session.relaunched runtimeId runtimeBaseId).join = {} ∧
      (session.relaunched runtimeId runtimeBaseId).expectations = [] := by
  have hnew : SessionLocal (newSession session.world.restart runtimeId runtimeBaseId) :=
    sessionLocal_newSession h.saved.reloaded h.saved hbase
  have hblocked := sessionKept_blockEntryRooms hnew
  refine ⟨(hblocked.sessionLocal hnew).of_eq rfl rfl, ?_, hblocked.expectations⟩
  show (blockEntryRooms _).runtime.fields = {}
  rw [hblocked.runtime]
  rfl

/-- One action keeps the invariant of the join. -/
theorem JoinSound.sessionStep (huids : FormatsUids platform) (h : JoinSound platform session)
    {action : SessionAction} (hallowed : SessionActionAllowed session action)
    (hstep : sessionStep platform session action = some next) : JoinSound platform next := by
  cases action with
  | handle event =>
      obtain ⟨⟨result, final⟩, hrun, rfl⟩ := Option.map_eq_some_iff.mp hstep
      obtain ⟨hcontinues, hmove | ⟨-, hopen⟩⟩ :=
        (safe_sessionEvent huids h.nodes h.hasAttempt hallowed).run hrun
      · exact h.move hcontinues hmove
      · exact joinSound_of_failed hcontinues.nodes hopen.phase
  | crash event steps runtimeId runtimeBaseId =>
      obtain ⟨reached, hcut, rfl⟩ := Option.map_eq_some_iff.mp hstep
      have hreached := (safe_sessionEvent huids h.nodes h.hasAttempt hallowed.1).cutOff h.nodes
        hcut
      obtain ⟨hlocal, hjoin, -⟩ := relaunched_eq hreached hallowed.2
      exact joinSound_of_idle hlocal (by rw [hjoin])

theorem joinSound_firstSession {workspaceId baseId runtimeId runtimeBaseId : ObjId}
    (hbase : baseId.isValid = true) (hruntimeBase : runtimeBaseId.isValid = true) :
    JoinSound platform (firstSession workspaceId baseId runtimeId runtimeBaseId) := by
  have hstate : NodesLocal (newChatState workspaceId baseId) :=
    ⟨isLocal_initializeRuntimeNode hbase, Everywhere.empty⟩
  exact joinSound_of_idle (sessionLocal_newSession hstate hstate hruntimeBase) rfl

/-- A control message that does not concern the join. -/
theorem safe_foreignControl (h : SessionLocal session) {env : SessionEnv}
    (hfresh : SessionIdsFresh session env) {source bytes : Bytes} {msg : ChatBootstrapMessage}
    (hdecoded : decodeChatBootstrap platform bytes = some msg)
    (hforeign : ¬ ConcernsJoin platform session.join source msg) :
    (handleControl platform env source bytes).Safe SessionLocal
      (fun _ final => final.runtime = session.runtime ∧
        final.waitingEntryByEndpoint = session.waitingEntryByEndpoint ∧
        final.expectations = session.expectations) session := by
  rw [handleControl, Program.safe_bind, Program.safe_read]
  refine ⟨h, ?_⟩
  split
  · exact ⟨rfl, rfl, rfl⟩
  rw [hdecoded]
  show Program.Safe _ (if _ then _ else _) _ _
  split
  · exact (safe_hostAcceptClient h hfresh).mono fun _ _ hkept =>
      ⟨hkept.runtime, hkept.waiting, hkept.expectations⟩
  split
  · exact ⟨rfl, rfl, rfl⟩
  have hother : canonicalSource platform source ≠ session.join.expectedHostUid ∨
      msg.attemptId ≠ session.join.joinAttemptId := by
    by_contra hnot
    rw [not_or, not_not, not_not] at hnot
    exact hforeign hnot
  split
  · rw [handleJoinRejected, Program.safe_bind, Program.safe_read, if_pos hother]
    exact ⟨h, rfl, rfl, rfl⟩
  · rw [handleJoinAccepted, Program.safe_bind]
    apply safe_modify_of_eq h rfl rfl
    intro hnoted
    rw [Program.safe_bind, Program.safe_read]
    refine ⟨hnoted, ?_⟩
    extract_lets join
    split
    · exact ⟨rfl, rfl, rfl⟩
    case isFalse hnot => exact absurd (hother.imp id Or.inl) hnot
  · exact ⟨rfl, rfl, rfl⟩

/-- A join is reported as complete only when its entry is bound to the room that the
expected host offered in the current attempt, and a control message from elsewhere, or of
another attempt, changes nothing of it. -/
theorem join_isBound (huids : FormatsUids platform)
    {workspaceId baseId runtimeId runtimeBaseId : ObjId} (hbase : baseId.isValid = true)
    (hruntimeBase : runtimeBaseId.isValid = true) {actions : List SessionAction}
    (hallowed : EveryStep (sessionStep platform) SessionActionAllowed
      (firstSession workspaceId baseId runtimeId runtimeBaseId) actions)
    (hrun : runActions (sessionStep platform)
      (firstSession workspaceId baseId runtimeId runtimeBaseId) actions = some session) :
    (session.join.joinPhase = .joined →
      session.join.boundRoomId = session.join.acceptedRoomId ∧
        session.join.boundRoomId.isValid = true ∧
        (∃ entry, session.world.live.entries.lookup session.join.joinEntryId = some entry ∧
          session.join.joinEntryId ∈ session.world.live.workspace.fields.chats ∧
          entry.fields.peerUid = session.join.expectedHostUid ∧
          entry.fields.room = session.join.boundRoomId) ∧
        ∃ offer ∈ session.offers,
          canonicalSource platform offer.source = session.join.expectedHostUid ∧
            offer.attemptId = session.join.joinAttemptId ∧
            offer.roomId = session.join.boundRoomId) ∧
      ∀ env source bytes msg final, SessionIdsFresh session env →
        decodeChatBootstrap platform bytes = some msg →
        (canonicalSource platform source ≠ session.join.expectedHostUid ∨
          msg.attemptId ≠ session.join.joinAttemptId) →
        (handleControl platform env source bytes).run session = some ((), final) →
        final.join.joinPhase = session.join.joinPhase ∧
          final.join.joinAttemptId = session.join.joinAttemptId ∧
          final.waitingEntryByEndpoint = session.waitingEntryByEndpoint ∧
          final.expectations = session.expectations := by
  have hsound : JoinSound platform session :=
    runActions_invariant (JoinSound platform)
      (fun _ _ _ hstate haction hstep => hstate.sessionStep huids haction hstep)
      (joinSound_firstSession hbase hruntimeBase) hallowed hrun
  constructor
  · intro hphase
    obtain ⟨entry, hentry⟩ := hsound.underway (by rw [hphase]; rfl)
    obtain ⟨hvalid, hoffer⟩ := hsound.offered (by rw [hphase]; rfl)
    obtain ⟨hbound, hroom⟩ := hsound.joined hphase
    rw [roomOf_of_lookup hentry.found] at hroom
    rw [hbound]
    exact ⟨rfl, hvalid, ⟨entry, hentry.found, hentry.listed, hentry.peer, hroom⟩, hoffer⟩
  · intro env source bytes msg final hfresh hdecoded hforeign hfinal
    have hother : ¬ ConcernsJoin platform session.join source msg := by
      rintro ⟨hhost, hattempt⟩
      rcases hforeign with hne | hne
      · exact hne hhost
      · exact hne hattempt
    obtain ⟨hruntime, hwaiting, hexpectations⟩ :=
      (safe_foreignControl hsound.nodes hfresh hdecoded hother).run hfinal
    rw [ChatSession.join, hruntime]
    exact ⟨rfl, rfl, hwaiting, hexpectations⟩

/-- The client joins the host, which offers it the room 10. -/
def roomOffered : List ScriptedAction :=
  clientStarts ++
    [hostTyped 40000 hostUid rfl, joinAsked 50000 rfl,
      controlArrived 60000 hostUid ⟨.joinAccepted, ⟨50100⟩, ⟨10⟩, []⟩ rfl]

/-- The client imports the room that it was offered. -/
def clientJoins : List ScriptedAction :=
  roomOffered ++ [roomArrived 70000 hostUid (frameOf 900 10 15 invitedRoom) rfl]

theorem clientJoins_isBound : ∃ session,
    runActions (sessionStep chatPlatform) (firstSession ⟨1⟩ ⟨2⟩ ⟨3⟩ ⟨4⟩)
      (clientJoins.map ScriptedAction.action) = some session ∧
    session.join.joinPhase = .joined ∧
    session.join.boundRoomId = session.join.acceptedRoomId := by
  have hjoins : (runActions (sessionStep chatPlatform) (firstSession ⟨1⟩ ⟨2⟩ ⟨3⟩ ⟨4⟩)
      (clientJoins.map ScriptedAction.action)).any (fun session =>
        decide (session.join.joinPhase = .joined)) = true := by decide +kernel
  obtain ⟨session, hrun, hphase⟩ := (Option.any_eq_true _ _).mp hjoins
  have hphase := of_decide_eq_true hphase
  refine ⟨session, hrun, hphase, ?_⟩
  exact ((join_isBound chatPlatform_formatsUids (by decide) (by decide)
    (everyStep_of_followsScript (by decide +kernel)) hrun).1 hphase).1

end Runs

end AppTraverse
