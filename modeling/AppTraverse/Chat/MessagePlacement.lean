import AppTraverse.Chat.ChatCommands

/-!
# A message that is placed in a room

A message changes neither the Shares nor the conditions under which other Events apply, so
it can be inserted anywhere in a journal: the replay ends with the same Shares, and with
one more message.
-/

namespace AppTraverse

open Foundations

section Replay

variable {roomIds : Nat → ObjId} {hids : ∀ n, (roomIds n).isValid = true}

/-- What a record adds to the messages of a room. -/
def messagesOf (record : EventRecord (SharedNodeEvent MessageAddedEvent)) : Messages :=
  match record.event.obj with
  | some (.app event) => [event.message]
  | _ => []

theorem step_messages {state next : SharedState Messages}
    {record : EventRecord (SharedNodeEvent MessageAddedEvent)}
    (h : (chatRoom.serializedFields roomIds hids).step state record = some next) :
    next.app = state.app ++ messagesOf record := by
  unfold SerializedFields.step at h
  cases hobj : record.event.obj with
  | none =>
      rw [hobj] at h
      cases h
  | some event =>
      simp only [hobj, Option.ite_none_right_eq_some] at h
      obtain ⟨-, rfl⟩ := sharedStep_eq_some_iff.mp h.2
      rw [messagesOf, hobj]
      cases event <;> simp [SharedState.after, chatRoom]

/-- A record does to the Shares what it does, whatever messages there are. -/
theorem step_of_same_shares {state state' next : SharedState Messages}
    {record : EventRecord (SharedNodeEvent MessageAddedEvent)}
    (hshares : state.shares = state'.shares)
    (h : (chatRoom.serializedFields roomIds hids).step state record = some next) :
    ∃ next', (chatRoom.serializedFields roomIds hids).step state' record = some next' ∧
      next.shares = next'.shares := by
  obtain ⟨shares, messages⟩ := state
  obtain ⟨shares', messages'⟩ := state'
  cases hshares
  unfold SerializedFields.step at h ⊢
  cases hobj : record.event.obj with
  | none =>
      rw [hobj] at h
      cases h
  | some event =>
      simp only [hobj, Option.ite_none_right_eq_some] at h ⊢
      obtain ⟨hcan, happly⟩ := h
      obtain ⟨hadmits, rfl⟩ := sharedStep_eq_some_iff.mp happly
      refine ⟨_, ⟨?_, sharedStep_eq_some_iff.mpr ⟨?_, rfl⟩⟩, rfl⟩
      · cases event <;> exact hcan
      · cases event <;> exact hadmits

/-- A complete replay, started with other messages. -/
theorem replay_of_same_shares {state state' final : SharedState Messages}
    {journal : List (EventRecord (SharedNodeEvent MessageAddedEvent))}
    (hshares : state.shares = state'.shares)
    (h : (chatRoom.serializedFields roomIds hids).replay state journal = (final, true)) :
    ∃ final', (chatRoom.serializedFields roomIds hids).replay state' journal =
        (final', true) ∧
      final.app = state.app ++ journal.flatMap messagesOf ∧
      final'.app = state'.app ++ journal.flatMap messagesOf := by
  induction journal generalizing state state' with
  | nil =>
      cases h
      exact ⟨state', rfl, by simp, by simp⟩
  | cons record rest ih =>
      rw [SerializedFields.replay_cons] at h
      cases hstep : (chatRoom.serializedFields roomIds hids).step state record with
      | none =>
          rw [hstep] at h
          cases h
      | some next =>
          rw [hstep] at h
          obtain ⟨next', hstep', hnext⟩ := step_of_same_shares hshares hstep
          obtain ⟨final', hfinal', happ, happ'⟩ := ih hnext h
          refine ⟨final', ?_, ?_, ?_⟩
          · rw [SerializedFields.replay_cons, hstep']
            exact hfinal'
          · rw [happ, step_messages hstep, List.flatMap_cons, List.append_assoc]
          · rw [happ', step_messages hstep', List.flatMap_cons, List.append_assoc]

/-- A message can be inserted anywhere. -/
theorem replay_insert_message {state final : SharedState Messages}
    {before after : List (EventRecord (SharedNodeEvent MessageAddedEvent))}
    {record : EventRecord (SharedNodeEvent MessageAddedEvent)} {event : MessageAddedEvent}
    (hvalid : record.event.isValid = true) (hevent : record.event.obj = some (.app event))
    (hcan : canApplyMessage event = true)
    (h : (chatRoom.serializedFields roomIds hids).replay state (before ++ after) =
      (final, true)) :
    ∃ final', (chatRoom.serializedFields roomIds hids).replay state
        (before ++ record :: after) = (final', true) ∧
      final'.app.Perm (event.message :: final.app) := by
  obtain ⟨middle, hbefore, hafter⟩ :=
    (chatRoom.serializedFields roomIds hids).exists_replay_of_append h
  let placed : SharedState Messages := ⟨middle.shares, middle.app ++ [event.message]⟩
  have hstep : (chatRoom.serializedFields roomIds hids).step middle record = some placed := by
    unfold SerializedFields.step
    simp only [hevent]
    have hboth : (record.event.isValid && (chatRoom.serializedFields roomIds hids).canApply
        middle (.app event)) = true := by
      rw [hvalid]
      exact hcan
    rw [if_pos hboth]
    exact sharedStep_eq_some_iff.mpr ⟨hcan, rfl⟩
  obtain ⟨final', hfinal', happ, happ'⟩ := replay_of_same_shares
    (show middle.shares = placed.shares from rfl) hafter
  refine ⟨final', ?_, ?_⟩
  · rw [SerializedFields.replay_append _ hbefore, SerializedFields.replay_cons, hstep]
    exact hfinal'
  · rw [happ, happ']
    show ((middle.app ++ [event.message]) ++ after.flatMap messagesOf).Perm _
    rw [List.append_assoc]
    exact List.perm_middle

end Replay

section Placement

variable {roomIds : Nat → ObjId} {hids : ∀ n, (roomIds n).isValid = true}
  {room after : ChatRoom} {eventId : ObjId} {message : MessageValue} {clockUs : UInt64}

/-- The record of a message that its replica commits. -/
def authoredRecord (eventId : ObjId) (message : MessageValue) (clockUs : UInt64) :
    EventRecord (SharedNodeEvent MessageAddedEvent) :=
  sharedRecord ⟨eventId, some (.app ⟨message⟩)⟩ message.id ⟨message.timestampUs⟩ clockUs

/-- What a room is after a message was placed in it. -/
structure MessagePlaced (room after : ChatRoom) (eventId : ObjId) (message : MessageValue)
    (clockUs : UInt64) : Prop where
  unknown : hasRecordWithIdentity room.journal message.id = false
  journal : after.journal.Perm (authoredRecord eventId message clockUs :: room.journal)
  messages : after.fields.app.Perm (message :: room.fields.app)

theorem tryInsertEvent_of_commitMessage (hcommit : commitMessage roomIds clockUs room eventId
    message = .ok after) :
    message.id.originUid ≠ [] ∧ RecordInserted (chatRoom.nodeClass roomIds) room
      (authoredRecord eventId message clockUs) clockUs after := by
  obtain ⟨horigin, -, hinserted⟩ := recordInserted_of_commitShared hcommit
  exact ⟨horigin, hinserted⟩

theorem replay_of_stands (h : room.Stands (chatRoom.serializedFields roomIds hids))
    (hvalid : eventId.isValid = true) (hcan : canApplyMessage ⟨message⟩ = true) :
    ∃ snapshot final, room.base.obj = some snapshot ∧
      (chatRoom.serializedFields roomIds hids).replay snapshot.toSharedState
        (insertedJournal room (authoredRecord eventId message clockUs) clockUs) =
          (final, true) ∧
      final.app.Perm (message :: room.fields.app) := by
  obtain ⟨snapshot, hbase, hreplay⟩ := h.replay
  obtain ⟨front, back, hjournal, hinserted⟩ := exists_lowerBoundInsert_split
    eventRecordOrderLess ((authoredRecord eventId message clockUs).stamped clockUs) room.journal
  rw [hjournal] at hreplay
  have hstamped : (authoredRecord eventId message clockUs).stamped clockUs =
      authoredRecord eventId message clockUs := stamped_sharedRecord
  obtain ⟨final, hfinal, hperm⟩ := @replay_insert_message roomIds hids _ _ front back
    (authoredRecord eventId message clockUs) ⟨message⟩ hvalid rfl hcan hreplay
  refine ⟨snapshot, final, hbase, ?_, hperm⟩
  rw [insertedJournal, hinserted, hstamped]
  exact hfinal

/-- A room takes a message exactly when the timestamp is one and the identity is new. -/
theorem commitMessage_returns_iff (h : room.Stands (chatRoom.serializedFields roomIds hids))
    (hvalid : eventId.isValid = true) (horigin : message.id.originUid ≠ [])
    (hsequence : message.id.originSequence ≠ 0) (htext : message.text ≠ []) :
    (∃ after, commitMessage roomIds clockUs room eventId message = .ok after) ↔
      message.timestampUs ≠ 0 ∧ hasRecordWithIdentity room.journal message.id = false := by
  have hshared : (authoredRecord eventId message clockUs).hasSharedIdentity = true := by
    simpa [EventRecord.hasSharedIdentity, authoredRecord, sharedRecord] using horigin
  constructor
  · rintro ⟨after, hcommit⟩
    obtain ⟨-, hinserted⟩ := tryInsertEvent_of_commitMessage hcommit
    exact ⟨hinserted.timestamp, hinserted.unknown hshared⟩
  · rintro ⟨htimestamp, hunknown⟩
    have hcan : canApplyMessage ⟨message⟩ = true := by
      simp [canApplyMessage, horigin, hsequence, htimestamp, htext]
    obtain ⟨snapshot, final, hbase, hreplay, -⟩ :=
      @replay_of_stands _ _ _ _ _ clockUs h hvalid hcan
    have haccepted : RecordAccepted room.journal (authoredRecord eventId message clockUs) :=
      ⟨hvalid, rfl, htimestamp, fun _ => hunknown⟩
    obtain ⟨after, hafter⟩ := h.tryInsertEvent_returns haccepted hbase hreplay
    refine ⟨after, ?_⟩
    have hready : (!eventId.isValid || message.id.originUid.isEmpty) = false := by
      simp [hvalid, horigin]
    have hmatches : (chatRoom.nodeClass roomIds).matchesSharedMetadata (.app ⟨message⟩)
        message.id ⟨message.timestampUs⟩ = true := by
      simp [AppClass.nodeClass, chatRoom]
    have htry : tryCommitShared (chatRoom.nodeClass roomIds) room
        ⟨eventId, some (.app ⟨message⟩)⟩ message.id ⟨message.timestampUs⟩ clockUs =
          .ok (after, true) := by
      unfold tryCommitShared
      rw [show (!(⟨eventId, some (.app ⟨message⟩)⟩ :
          Ref (SharedNodeEvent MessageAddedEvent)).isValid ||
        message.id.originUid.isEmpty) = false from hready]
      simp only [Bool.false_eq_true, if_false, hmatches, if_true]
      exact hafter
    unfold commitMessage commitShared
    rw [htry]
    rfl

/-- What a commit of a message does. -/
theorem messagePlaced_of_commitMessage
    (h : room.Stands (chatRoom.serializedFields roomIds hids))
    (hvalid : eventId.isValid = true) (hsequence : message.id.originSequence ≠ 0)
    (htext : message.text ≠ [])
    (hcommit : commitMessage roomIds clockUs room eventId message = .ok after) :
    MessagePlaced room after eventId message clockUs := by
  obtain ⟨horigin, hinserted⟩ := tryInsertEvent_of_commitMessage hcommit
  have hshared : (authoredRecord eventId message clockUs).hasSharedIdentity = true := by
    simpa [EventRecord.hasSharedIdentity, authoredRecord, sharedRecord] using horigin
  have htimestamp : message.timestampUs ≠ 0 := hinserted.timestamp
  have hcan : canApplyMessage ⟨message⟩ = true := by
    simp [canApplyMessage, horigin, hsequence, htimestamp, htext]
  refine ⟨hinserted.unknown hshared, ?_, ?_⟩
  · rw [hinserted.journal, insertedJournal,
      show (authoredRecord eventId message clockUs).stamped clockUs =
        authoredRecord eventId message clockUs from stamped_sharedRecord]
    exact lowerBoundInsert_perm _ _ _
  · obtain ⟨snapshot, final, hbase, hreplay, hperm⟩ :=
      @replay_of_stands _ _ _ _ _ clockUs h hvalid hcan
    obtain ⟨applied, size, generation, hcomplete, hrun, rfl⟩ := hinserted.replay
    have hleads := h.replay_insertedJournal hrun hbase
    have hsame := hleads.symm.trans hreplay
    rw [← (Prod.mk.inj hsame).1] at hperm
    exact hperm

end Placement

end AppTraverse
