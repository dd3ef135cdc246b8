import AppTraverse.Chat.JoinMoves

/-!
# Sending changes nothing else

No change that a handler makes both sends a control message and changes what is persisted.
What is in storage after a message was sent was there before.
-/

namespace AppTraverse

open Foundations

/-- The change sends nothing, or leaves what is persisted as it is. -/
def SendsAlone (session next : ChatSession) : Prop :=
  next.sent = session.sent ∨ next.world.saved = session.world.saved

section Programs

variable {platform : ChatPlatform} {env : SessionEnv} {clockUs : UInt64}

theorem SendsAlone.refl (session : ChatSession) : SendsAlone session session := Or.inl rfl

theorem sendsAlone_read {ρ : Type} {rest : ChatSession → Program ChatSession ρ}
    (hrest : ∀ session, (rest session).EachChange SendsAlone) :
    (Program.read >>= rest).EachChange SendsAlone :=
  .bind (.read SendsAlone.refl) hrest

/-- A change of one field that is not `sent`. -/
theorem sendsAlone_modify {f : ChatSession → ChatSession}
    (h : ∀ session, (f session).sent = session.sent) :
    (Program.modify f).EachChange SendsAlone :=
  .modify fun session => Or.inl (h session)

theorem sendsAlone_map {τ : Type} {read : ChatSession → Option τ}
    {f : ChatSession → τ → ChatSession}
    (h : ∀ session value, (f session value).sent = session.sent) :
    (Program.change fun session => (read session).map (f session)).EachChange SendsAlone := by
  refine .change fun session changed hchanged => ?_
  obtain ⟨value, -, rfl⟩ := Option.map_eq_some_iff.mp hchanged
  exact Or.inl (h session value)

theorem sendsAlone_runChatStages {stages : List ChatStage} :
    (runChatStages platform clockUs stages).EachChange SendsAlone := by
  induction stages with
  | nil => exact .pure
  | cons stage rest ih =>
      rw [runChatStages]
      exact .bind (sendsAlone_map fun _ _ => rfl) fun _ => ih

theorem sendsAlone_runPlanned {ρ : Type} {planned : ChatState → Planned ρ} :
    (runPlanned platform clockUs planned).EachChange SendsAlone := by
  rw [runPlanned]
  exact sendsAlone_read fun _ => .bind sendsAlone_runChatStages fun _ => .pure

theorem sendsAlone_commitJoin {eventId : ObjId} {event : ChatDemoRuntimeEvent} :
    (commitJoin clockUs eventId event).EachChange SendsAlone := by
  rw [commitJoin]
  exact sendsAlone_map fun _ _ => rfl

theorem sendsAlone_commitJoinIfPossible {eventId : ObjId} {event : ChatDemoRuntimeEvent} :
    (commitJoinIfPossible clockUs eventId event).EachChange SendsAlone := by
  rw [commitJoinIfPossible]
  refine sendsAlone_read fun session => ?_
  split
  · exact sendsAlone_commitJoin
  · exact .pure

theorem sendsAlone_persistWorkspace : persistWorkspace.EachChange SendsAlone :=
  sendsAlone_modify fun _ => rfl

/-- A control message that is sent, or withheld. -/
theorem sendsAlone_send {f : ChatSession → ChatSession}
    (h : ∀ session, (f session).world = session.world) :
    (Program.modify f).EachChange SendsAlone :=
  .modify fun session => Or.inr (by rw [h session])

end Programs

section Client

variable {platform : ChatPlatform} {env : SessionEnv} {source : Bytes} {msg : ChatBootstrapMessage}

theorem sent_armJoinScheduler (now : Nat) (session : ChatSession) :
    (armJoinScheduler platform now session).sent = session.sent := by
  obtain ⟨scheduler, heq⟩ := armJoinScheduler_eq platform now session
  rw [heq]

theorem sendsAlone_driveJoinSend : (driveJoinSend env).EachChange SendsAlone := by
  rw [driveJoinSend]
  refine sendsAlone_read fun session => ?_
  split
  · exact .pure
  split
  · exact sendsAlone_modify fun _ => rfl
  split
  · exact .pure
  split
  · exact .pure
  split
  · exact .pure
  split
  · exact .bind sendsAlone_commitJoinIfPossible fun _ =>
      .bind (sendsAlone_modify fun _ => rfl) fun _ =>
      .bind (sendsAlone_modify fun _ => rfl) fun _ => sendsAlone_modify fun _ => rfl
  split
  · exact .pure
  · exact sendsAlone_send fun _ => rfl

theorem sendsAlone_handleJoinRejected :
    (handleJoinRejected platform env source msg).EachChange SendsAlone := by
  rw [handleJoinRejected]
  refine sendsAlone_read fun session => ?_
  split
  · exact .pure
  extract_lets event
  split
  · exact .pure
  · exact .bind sendsAlone_commitJoin fun _ =>
      .bind (sendsAlone_modify fun _ => rfl) fun _ =>
      .bind (sendsAlone_modify fun _ => rfl) fun _ => sendsAlone_modify fun _ => rfl

theorem sendsAlone_handleJoinAccepted :
    (handleJoinAccepted platform env source msg).EachChange SendsAlone := by
  rw [handleJoinAccepted]
  refine .bind (sendsAlone_modify fun _ => rfl) fun _ => sendsAlone_read fun session => ?_
  extract_lets join conflicting event done
  split
  · exact .pure
  split
  · exact .pure
  split
  · exact .bind (sendsAlone_modify fun _ => rfl) fun _ => sendsAlone_modify fun _ => rfl
  split
  · split
    · exact .bind sendsAlone_commitJoin fun _ => sendsAlone_modify fun _ => rfl
    · exact .pure
  split
  · exact .pure
  split
  · exact .pure
  refine .bind sendsAlone_commitJoin fun _ => sendsAlone_read fun reached => ?_
  extract_lets entryId
  split
  · split
    · exact .bind sendsAlone_commitJoin fun _ => sendsAlone_modify fun _ => rfl
    · exact .pure
  · exact .bind (sendsAlone_modify fun _ => rfl) fun _ => sendsAlone_modify fun _ => rfl

theorem sendsAlone_failBeginJoin : (failBeginJoin env).EachChange SendsAlone := by
  rw [failBeginJoin]
  exact sendsAlone_read fun _ => .bind sendsAlone_commitJoinIfPossible fun _ =>
    sendsAlone_modify fun _ => rfl

theorem sendsAlone_beginJoin : (beginJoin platform env).EachChange SendsAlone := by
  rw [beginJoin]
  refine sendsAlone_read fun session => ?_
  split
  · exact .pure
  refine .bind sendsAlone_runPlanned fun _ => sendsAlone_read fun typed => ?_
  split
  · exact sendsAlone_failBeginJoin
  split
  · exact sendsAlone_failBeginJoin
  rw [beginJoinWith]
  refine .bind sendsAlone_runPlanned fun entryId => ?_
  split
  · exact .pure
  refine sendsAlone_read fun opened => ?_
  extract_lets join
  split
  · exact sendsAlone_modify fun session => sent_armJoinScheduler env.now session
  refine .bind (sendsAlone_modify fun session => ?_) fun _ => ?_
  · unfold switchHost
    split
    · rfl
    · rfl
  split
  · exact .pure
  · exact .bind sendsAlone_commitJoin fun _ => .bind (sendsAlone_modify fun _ => rfl) fun _ =>
      sendsAlone_modify fun session => sent_armJoinScheduler env.now session

end Client

section Calls

variable {platform : ChatPlatform} {env : SessionEnv}

theorem sent_blockCompaction (roomId : ObjId) (session : ChatSession) :
    (session.blockCompaction roomId).sent = session.sent := by
  unfold ChatSession.blockCompaction
  split
  · rfl
  · rfl

theorem sendsAlone_finishImport {sourceEndpoint : Bytes} {roomId : ObjId} :
    (finishImport env sourceEndpoint roomId).EachChange SendsAlone := by
  rw [finishImport]
  exact .bind (sendsAlone_modify fun _ => rfl) fun _ => sendsAlone_read fun _ =>
    .bind sendsAlone_commitJoinIfPossible fun _ => sendsAlone_modify fun _ => rfl

theorem sendsAlone_importedCallback {sourceEndpoint : Bytes} {node : ChatRoom} :
    (importedCallback platform env sourceEndpoint node).EachChange SendsAlone := by
  rw [importedCallback]
  refine sendsAlone_read fun session => ?_
  split
  · exact .pure
  refine .bind (sendsAlone_modify fun session => sent_blockCompaction _ session) fun _ =>
    sendsAlone_read fun blocked => ?_
  split
  · exact .pure
  extract_lets entryId roomId
  split
  · exact .pure
  split
  · exact .pure
  split
  · exact .bind sendsAlone_finishImport fun _ => .pure
  refine .bind sendsAlone_runPlanned fun bound => ?_
  split
  · exact .pure
  · exact .bind sendsAlone_persistWorkspace fun _ =>
      .bind sendsAlone_finishImport fun _ => .pure

theorem sendsAlone_performEffects {effects : List (Effect Messages MessageAddedEvent)} :
    (performEffects platform env effects).EachChange SendsAlone := by
  induction effects with
  | nil => exact .pure
  | cons effect rest ih =>
      rw [performEffects]
      refine .bind ?_ fun _ => ih
      cases effect with
      | bindNode sourceEndpoint node bound =>
          rw [performEffect]
          refine .bind sendsAlone_importedCallback fun answer => .change ?_
          intro session changed hchanged
          split at hchanged
          · cases hchanged
            exact .refl session
          · cases hchanged
      | commitObjectGraph graph => exact sendsAlone_modify fun _ => rfl
      | storeObject id layers => exact sendsAlone_modify fun _ => rfl
      | saveNode node => exact sendsAlone_modify fun _ => rfl
      | saveLinkSyncState nodeId state => exact sendsAlone_modify fun _ => rfl
      | send destination bytes => exact sendsAlone_modify fun _ => rfl

theorem sendsAlone_callSync {call : Replica Messages MessageAddedEvent →
      RuntimeM Messages MessageAddedEvent (SharedSyncRuntime Messages MessageAddedEvent)} :
    (callSync platform env call).EachChange SendsAlone := by
  rw [callSync]
  refine sendsAlone_read fun session => ?_
  split
  · exact .pure
  extract_lets outcome
  split
  · exact .change fun _ _ hnone => by cases hnone
  · exact .bind (sendsAlone_modify fun _ => rfl) fun _ => sendsAlone_performEffects

end Calls

section Host

variable {platform : ChatPlatform} {env : SessionEnv} {clientUid : Bytes} {roomId : ObjId}

theorem sent_registerRoom (session : ChatSession) (roomId : ObjId) :
    (registerRoom session roomId).sent = session.sent := by
  unfold registerRoom
  split
  · rfl
  · rfl

theorem sendsAlone_syncRoom : (syncRoom platform env roomId clientUid).EachChange SendsAlone := by
  rw [syncRoom]
  refine sendsAlone_read fun session => ?_
  split
  · exact .pure
  split
  · exact .pure
  · exact sendsAlone_callSync

theorem sendsAlone_sendJoinAccepted {attemptId : ObjId} :
    (sendJoinAccepted platform clientUid attemptId roomId).EachChange SendsAlone := by
  rw [sendJoinAccepted]
  refine .bind (sendsAlone_send fun session => ?_) fun _ =>
    sendsAlone_modify fun session => sent_registerRoom session roomId
  split
  · rfl
  · rfl

theorem sendsAlone_addRoomShare {clockUs : UInt64} {eventId : ObjId} {link : Ref Link} :
    (addRoomShare platform clockUs roomId eventId link).EachChange SendsAlone := by
  rw [addRoomShare]
  refine .change fun session changed hchanged => ?_
  obtain ⟨room, -, hadded⟩ := Option.bind_eq_some_iff.mp hchanged
  obtain ⟨after, -, rfl⟩ := Option.map_eq_some_iff.mp hadded
  exact Or.inl rfl

theorem sendsAlone_hostAcceptClient {req : ChatBootstrapMessage} :
    (hostAcceptClient platform env clientUid req).EachChange SendsAlone := by
  rw [hostAcceptClient]
  refine sendsAlone_read fun session => ?_
  split
  · exact .pure
  split
  · exact .pure
  split
  · exact .pure
  extract_lets roomId
  split
  · rw [acceptNewClient]
    refine .bind sendsAlone_runPlanned fun entryId => ?_
    split
    · exact .pure
    extract_lets fresh newId remoteLink
    refine .bind (sendsAlone_modify fun _ => rfl) fun _ =>
      .bind (sendsAlone_modify fun session => sent_blockCompaction _ session) fun _ =>
      sendsAlone_read fun reached => ?_
    extract_lets localLink
    refine .bind sendsAlone_addRoomShare fun _ => .bind sendsAlone_addRoomShare fun _ =>
      .bind sendsAlone_runPlanned fun bound => ?_
    split
    · exact .pure
    · exact .bind sendsAlone_persistWorkspace fun _ =>
        .bind sendsAlone_sendJoinAccepted fun _ => sendsAlone_syncRoom
  split
  · refine sendsAlone_send fun session => ?_
    split
    · rfl
    · rfl
  refine .bind sendsAlone_persistWorkspace fun _ => .bind sendsAlone_sendJoinAccepted fun _ =>
    sendsAlone_read fun reached => ?_
  split
  · exact .change fun _ _ hnone => by cases hnone
  · exact .pure
  · exact sendsAlone_syncRoom

theorem sendsAlone_handleControl {source bytes : Bytes} :
    (handleControl platform env source bytes).EachChange SendsAlone := by
  rw [handleControl]
  refine sendsAlone_read fun session => ?_
  split
  · exact .pure
  split
  · exact .pure
  split
  · exact sendsAlone_hostAcceptClient
  split
  · exact .pure
  split
  · exact sendsAlone_handleJoinRejected
  · exact sendsAlone_handleJoinAccepted
  · exact .pure

theorem sendsAlone_onUid {uid : Bytes} : (onUid platform env uid).EachChange SendsAlone := by
  rw [onUid]
  refine .bind (sendsAlone_modify fun _ => rfl) fun _ => sendsAlone_read fun session => ?_
  extract_lets persisted
  split
  · exact sendsAlone_modify fun _ => rfl
  refine .bind sendsAlone_runPlanned fun bound => ?_
  split
  · exact sendsAlone_modify fun _ => rfl
  · exact .pure

theorem sent_registerEntryRooms (session : ChatSession) :
    (registerEntryRooms session).sent = session.sent := by
  unfold registerEntryRooms
  generalize session.world.live.workspace.fields.chats = chats
  induction chats generalizing session with
  | nil => rfl
  | cons entryId rest ih =>
      rw [List.foldl_cons, ih]
      split
      · exact sent_registerRoom session _
      · rfl

theorem sendsAlone_onReady : (onReady platform env).EachChange SendsAlone := by
  rw [onReady]
  refine sendsAlone_read fun session => ?_
  split
  · exact .pure
  refine .bind (sendsAlone_modify fun _ => rfl) fun _ =>
    .bind (sendsAlone_modify sent_registerEntryRooms) fun _ =>
    .bind (sendsAlone_modify fun session => ?_) fun _ => sendsAlone_send fun session => ?_
  · unfold expectAgain
    split
    · rfl
    · rfl
  · obtain ⟨scheduler, sent, hresent⟩ := resendJoin_eq platform env.now session
    rw [hresent]

/-- No event of a session sends a message and persists in one change. -/
theorem sendsAlone_sessionEvent {event : SessionEvent} :
    (event.program platform).EachChange SendsAlone := by
  cases event with
  | command env chosen => exact sendsAlone_read fun _ => sendsAlone_runChatStages
  | copyHostUid env =>
      rw [SessionEvent.program, copyHostUid]
      refine sendsAlone_read fun session => ?_
      extract_lets uid
      split
      · exact .pure
      · exact sendsAlone_commitJoin
  | joinHost env => exact sendsAlone_beginJoin
  | control env source bytes => exact sendsAlone_handleControl
  | frame env source bytes =>
      rw [SessionEvent.program]
      exact sendsAlone_callSync
  | syncInitialState env roomId shareId =>
      rw [SessionEvent.program]
      exact sendsAlone_callSync
  | syncNextEvent env roomId shareId =>
      rw [SessionEvent.program]
      exact sendsAlone_callSync
  | tick env => exact sendsAlone_driveJoinSend
  | uid env endpointUid => exact sendsAlone_onUid
  | ready env => exact sendsAlone_onReady
  | retryConnection =>
      refine sendsAlone_modify fun session => ?_
      split
      · rfl
      · rfl
  | persist => exact sendsAlone_persistWorkspace

end Host

end AppTraverse
