import AppTraverse.Chat.ChatRuns
import AppTraverse.Chat.MessagePlacement

/-!
# When a submitted draft becomes a message

`SubmitDraft` reserves a sequence number, commits the message and clears the draft, and
checks none of the three.  They all succeed when the next identity is free in the room and
no clock has reached its end, and a peer can see to it that they do not: it may send a
message under the next identity of this replica, or one with the last timestamp.
-/

namespace AppTraverse

open Foundations

/-- The last value of a timestamp. -/
def maxTimestampUs : UInt64 := 0xffffffffffffffff

/-- There is a timestamp after the last one. -/
def TimestampLeft (last : Option UInt64) (nowUs : UInt64) : Prop :=
  match last with
  | none => nowUs ≠ 0
  | some last => last < nowUs ∨ last ≠ maxTimestampUs

/-- The last timestamp of a journal. -/
def lastTimestamp {ε : Type} (journal : List (EventRecord ε)) : Option UInt64 :=
  journal.getLast?.map fun record => record.order.timestampUs

/-- Neither the journal nor the timeline of a room has the identity. -/
def IdentityIsFree (room : ChatRoom) (identity : SharedEventId) : Prop :=
  (∀ record ∈ room.journal, record.identity ≠ identity) ∧
    ∀ message ∈ room.fields.app, message.id ≠ identity

section Submission

variable (roomIds : Nat → ObjId) (env : CommandEnv) (world : ChatWorld) (entryId : ObjId)
  (nowUs : UInt64)

/-- `SubmitDraft` with what it returns. -/
def ChatWorld.submitDraft : Except Fault (SharedEventId × ChatWorld) := do
  let planned := AppTraverse.submitDraft env world.live entryId nowUs
  let next ← world.runStages roomIds env.clockUs planned.stages
  pure (planned.result, next)

/-- The draft became the one message with its identity, and it is gone. -/
structure DraftSubmitted (before after : ChatState) (entryId : ObjId)
    (identity : SharedEventId) : Prop where
  submitted : ∃ entry entry' room room' record message,
    before.entries.lookup entryId = some entry ∧ after.entries.lookup entryId = some entry' ∧
      before.rooms.lookup entry.fields.room = some room ∧
      after.rooms.lookup entry.fields.room = some room' ∧
      room'.journal.filter (fun other => decide (other.identity = identity)) = [record] ∧
      record.event.obj = some (.app ⟨message⟩) ∧
      room'.fields.app.filter (fun other => decide (other.id = identity)) = [message] ∧
      message.id = identity ∧ message.text = entry.fields.draft ∧
      (∀ last, lastLocalTimestamp room.fields.app before.workspace.fields.localEndpointUid =
        some last → last < message.timestampUs) ∧
      entry'.fields.draft = []

/-- All or nothing: no assertion fails, a returned identity is that of the submitted draft,
and without one nothing happened. -/
def SubmitsAllOrNothing : Prop :=
  ∃ identity next, world.submitDraft roomIds env entryId nowUs = .ok (identity, next) ∧
    (identity.originUid ≠ [] → DraftSubmitted world.live next.live entryId identity) ∧
    (identity.originUid = [] → next = world)

/-- Unless it is refused, the next identity is free in the room, and the timestamps of the
room, the workspace and the entry have not come to their end. -/
def SubmitIsSafe : Prop :=
  ∀ entry room, world.live.entries.lookup entryId = some entry →
    world.live.rooms.lookup entry.fields.room = some room →
    submitIsRefused world.live.workspace.fields entry.fields nowUs = false →
    IdentityIsFree room (nextMessageId world.live.workspace.fields) ∧
      TimestampLeft (lastLocalTimestamp room.fields.app
        world.live.workspace.fields.localEndpointUid) nowUs ∧
      TimestampLeft (lastTimestamp world.live.workspace.journal) env.clockUs ∧
      TimestampLeft (lastTimestamp entry.journal) env.clockUs

end Submission

section Timestamps

theorem uint64_succ_ne_zero_iff {a : UInt64} : a + 1 ≠ 0 ↔ a ≠ maxTimestampUs := by
  have hbound := a.toNat_lt
  have hone : (1 : UInt64).toNat = 1 := rfl
  have hmax : maxTimestampUs.toNat = 2 ^ 64 - 1 := rfl
  rw [ne_eq, ne_eq, not_iff_not, ← UInt64.toNat_inj, ← UInt64.toNat_inj, UInt64.toNat_add, hone,
    hmax]
  show _ = 0 ↔ _
  omega

/-- A message gets a timestamp when there is one left. -/
theorem effectiveTimeUs_ne_zero_iff {last : Option UInt64} {nowUs : UInt64} :
    effectiveTimeUs last nowUs ≠ 0 ↔ TimestampLeft last nowUs := by
  cases last with
  | none => exact Iff.rfl
  | some last =>
      rw [TimestampLeft, effectiveTimeUs]
      split
      case isTrue hbehind =>
        rw [uint64_succ_ne_zero_iff]
        constructor
        · exact Or.inr
        · rintro (hahead | hleft)
          · exact absurd hbehind (UInt64.not_le.mpr hahead)
          · exact hleft
      case isFalse hahead =>
        rw [UInt64.not_le] at hahead
        refine ⟨fun _ => Or.inl hahead, fun _ hzero => ?_⟩
        rw [hzero, UInt64.lt_iff_toNat_lt] at hahead
        exact Nat.not_lt_zero _ hahead

/-- A commit stamps its record as a message is stamped. -/
theorem commitTimestamp_eq {ε : Type} (journal : List (EventRecord ε)) (clockUs : UInt64) :
    commitTimestamp journal clockUs = effectiveTimeUs (lastTimestamp journal) clockUs := by
  unfold commitTimestamp lastTimestamp effectiveTimeUs
  cases journal.getLast? with
  | none => rfl
  | some last => rfl

/-- A message that gets a timestamp gets a later one. -/
theorem lt_effectiveTimeUs {last nowUs : UInt64} (h : TimestampLeft (some last) nowUs) :
    last < effectiveTimeUs (some last) nowUs := by
  rw [effectiveTimeUs]
  split
  case isTrue hbehind =>
    rcases h with hahead | hleft
    · exact absurd hbehind (UInt64.not_le.mpr hahead)
    · have hbound := last.toNat_lt
      have hmax : maxTimestampUs.toNat = 2 ^ 64 - 1 := rfl
      have hne : last.toNat ≠ maxTimestampUs.toNat := fun hsame =>
        hleft (UInt64.toNat_inj.mp hsame)
      rw [UInt64.lt_iff_toNat_lt, UInt64.toNat_add]
      have hone : (1 : UInt64).toNat = 1 := rfl
      omega
  case isFalse hahead => exact UInt64.not_le.mp hahead

end Timestamps

section Outcome

variable {roomIds : Nat → ObjId} {hids : ∀ n, (roomIds n).isValid = true} {env : CommandEnv}
  {world : ChatWorld} {entryId : ObjId} {nowUs : UInt64} {entry : ChatEntry} {room : ChatRoom}

/-- The state after the three commits of `SubmitDraft`. -/
def submittedState (state : ChatState) (entryId roomId : ObjId) (workspace : ChatWorkspace)
    (room : ChatRoom) (entry : ChatEntry) : ChatState where
  workspace := workspace
  entries := state.entries.insert entryId entry
  rooms := state.rooms.insert roomId room

/-- The stages of `SubmitDraft` succeed when its three commits do. -/
theorem runStages_submitStages {roomId : ObjId} {message : MessageValue}
    (hentry : world.live.entries.lookup entryId = some entry)
    (hroom : world.live.rooms.lookup roomId = some room) {next : ChatWorld} :
    world.runStages roomIds env.clockUs (submitStages env entryId roomId message) = .ok next →
    ∃ workspace room' entry',
      commit chatWorkspace.nodeClass world.live.workspace ⟨env.ids 0,
        some (.messageSequenceReserved message.id.originSequence)⟩ env.clockUs = .ok workspace ∧
      commitMessage roomIds env.clockUs room (env.ids 1) message = .ok room' ∧
      commit chatEntry.nodeClass entry ⟨env.ids 2, some (.draftChanged [])⟩ env.clockUs =
        .ok entry' ∧
      next.live = submittedState world.live entryId roomId workspace room' entry' := by
  intro hrun
  simp only [ChatWorld.runStages, submitStages, List.foldlM_cons, List.foldlM_nil,
    except_bind_eq_ok_iff] at hrun
  obtain ⟨reserved, hreserve, persisted, hpersisted, placed, hplace, persisted', hpersisted',
    cleared, hclear, persisted'', hpersisted'', hnext⟩ := hrun
  cases hpersisted
  cases hpersisted'
  cases hpersisted''
  cases hnext
  cases stageRun_of_runStage hreserve with
  | commitWorkspace _ _ workspace hworkspace hreserved =>
  subst hreserved
  cases stageRun_of_runStage hplace with
  | commitMessage _ _ _ found room' hfound hroom' hplaced =>
  subst hplaced
  cases stageRun_of_runStage hclear with
  | commitEntry _ _ _ found' entry' hfound' hentry' hcleared =>
  subst hcleared
  cases hfound.symm.trans hroom
  cases hfound'.symm.trans hentry
  exact ⟨workspace, room', entry', hworkspace, hroom', hentry', rfl⟩

theorem exists_runStages_submitStages {roomId : ObjId} {message : MessageValue}
    {workspace : ChatWorkspace} {room' : ChatRoom} {entry' : ChatEntry}
    (hentry : world.live.entries.lookup entryId = some entry)
    (hroom : world.live.rooms.lookup roomId = some room)
    (hworkspace : commit chatWorkspace.nodeClass world.live.workspace ⟨env.ids 0,
      some (.messageSequenceReserved message.id.originSequence)⟩ env.clockUs = .ok workspace)
    (hroom' : commitMessage roomIds env.clockUs room (env.ids 1) message = .ok room')
    (hentry' : commit chatEntry.nodeClass entry ⟨env.ids 2, some (.draftChanged [])⟩
      env.clockUs = .ok entry') :
    ∃ next, world.runStages roomIds env.clockUs
        (submitStages env entryId roomId message) = .ok next ∧
      next.live = submittedState world.live entryId roomId workspace room' entry' := by
  simp [ChatWorld.runStages, submitStages, ChatWorld.runStage, ChatWorld.commitWorkspace,
    ChatWorld.commitMessage, ChatWorld.commitEntry, ChatWorld.persist, hworkspace, hroom,
    hroom', hentry, hentry', bind, Except.bind, pure, Except.pure, submittedState]

/-- The commit of a plain Node with a valid Event. -/
theorem Node.IsLocal.commit_returns_iff {σ ε : Type} {plain : PlainClass σ ε}
    {node : Node σ σ ε} {value : ε} {clockUs : UInt64} (h : node.IsLocal plain) (event : Ref ε)
    (hvalid : event.isValid = true) (hvalue : event.obj = some value) :
    (∃ next, commit plain.nodeClass node event clockUs = .ok next) ↔
      plain.canApply node.fields value = true ∧
        TimestampLeft (lastTimestamp node.journal) clockUs := by
  rw [← effectiveTimeUs_ne_zero_iff, ← commitTimestamp_eq]
  constructor
  · rintro ⟨next, hcommit⟩
    obtain ⟨hcan, htimestamp, -⟩ := h.committed hvalue hcommit
    exact ⟨hcan, htimestamp⟩
  · rintro ⟨hcan, htimestamp⟩
    exact h.commit_returns hvalid hvalue hcan htimestamp

/-- The sequence that `SubmitDraft` reserves can be reserved. -/
theorem canReserve_of_not_refused {workspace : ChatWorkspaceFields} {entry : ChatEntryFields}
    (h : submitIsRefused workspace entry nowUs = false) :
    chatWorkspace.canApply workspace
      (.messageSequenceReserved workspace.nextMessageSequence) = true := by
  simp only [submitIsRefused, Bool.or_eq_false_iff, decide_eq_false_iff_not] at h
  simp [chatWorkspace, h.1.2, h.2]

/-- A room whose timeline and journal have no message of an identity gets exactly one. -/
theorem MessagePlaced.only {room after : ChatRoom} {eventId : ObjId} {message : MessageValue}
    {clockUs : UInt64} (h : MessagePlaced room after eventId message clockUs) :
    (IdentityIsFree room message.id →
      after.journal.filter (fun other => decide (other.identity = message.id)) =
          [authoredRecord eventId message clockUs] ∧
        after.fields.app.filter (fun other => decide (other.id = message.id)) = [message]) ∧
    (¬ IdentityIsFree room message.id → ∀ record found,
      after.journal.filter (fun other => decide (other.identity = message.id)) = [record] →
      after.fields.app.filter (fun other => decide (other.id = message.id)) ≠ [found]) := by
  have hjournal := h.journal.filter fun other => decide (other.identity = message.id)
  have hmessages := h.messages.filter fun other => decide (other.id = message.id)
  rw [List.filter_cons_of_pos (by exact decide_eq_true rfl)] at hjournal
  rw [List.filter_cons_of_pos (by exact decide_eq_true rfl)] at hmessages
  constructor
  · rintro ⟨hrecords, htimeline⟩
    have hnone : room.journal.filter (fun other => decide (other.identity = message.id)) =
        [] := List.filter_eq_nil_iff.mpr fun record hrecord => by simpa using hrecords record hrecord
    have hnone' : room.fields.app.filter (fun other => decide (other.id = message.id)) = [] :=
      List.filter_eq_nil_iff.mpr fun other hother => by simpa using htimeline other hother
    rw [hnone] at hjournal
    rw [hnone'] at hmessages
    exact ⟨List.perm_singleton.mp hjournal, List.perm_singleton.mp hmessages⟩
  · intro htaken record found hone hone'
    rw [hone] at hjournal
    rw [hone'] at hmessages
    have hlength := hjournal.length_eq
    have hlength' := hmessages.length_eq
    refine htaken ⟨?_, ?_⟩
    · intro other hother hsame
      have hmem : other ∈ room.journal.filter
          (fun other => decide (other.identity = message.id)) :=
        List.mem_filter.mpr ⟨hother, decide_eq_true hsame⟩
      have hpos := List.length_pos_of_mem hmem
      simp only [List.length_cons, List.length_nil] at hlength
      omega
    · intro other hother hsame
      have hmem : other ∈ room.fields.app.filter
          (fun other => decide (other.id = message.id)) :=
        List.mem_filter.mpr ⟨hother, decide_eq_true hsame⟩
      have hpos := List.length_pos_of_mem hmem
      simp only [List.length_cons, List.length_nil] at hlength'
      omega

/-- A draft that is not refused is a message with an identity of this replica. -/
structure Submittable (workspace : ChatWorkspaceFields) (entry : ChatEntryFields)
    (messages : Messages) (nowUs : UInt64) : Prop where
  room : entry.room.isValid = true
  origin : (messageOfDraft workspace entry messages nowUs).id.originUid ≠ []
  sequence : (messageOfDraft workspace entry messages nowUs).id.originSequence ≠ 0
  text : (messageOfDraft workspace entry messages nowUs).text ≠ []
  canReserve : chatWorkspace.canApply workspace
    (.messageSequenceReserved workspace.nextMessageSequence) = true

theorem submittable_of_not_refused {workspace : ChatWorkspaceFields}
    {entry : ChatEntryFields} (h : submitIsRefused workspace entry nowUs = false)
    (messages : Messages) : Submittable workspace entry messages nowUs := by
  have hcan := canReserve_of_not_refused h
  simp only [submitIsRefused, Bool.or_eq_false_iff, decide_eq_false_iff_not,
    Bool.not_eq_false', List.isEmpty_eq_false_iff] at h
  obtain ⟨⟨⟨⟨⟨horigin, hroom⟩, hdraft⟩, -⟩, hsequence⟩, -⟩ := h
  exact ⟨hroom, horigin, hsequence, hdraft, hcan⟩

/-- `SubmitDraft` of a draft that is not refused. -/
theorem submitDraft_of_not_refused (hentry : world.live.entries.lookup entryId = some entry)
    (hroom : world.live.rooms.lookup entry.fields.room = some room)
    (hrefused : submitIsRefused world.live.workspace.fields entry.fields nowUs = false) :
    submitDraft env world.live entryId nowUs =
      ⟨nextMessageId world.live.workspace.fields, submitStages env entryId entry.fields.room
        (messageOfDraft world.live.workspace.fields entry.fields room.fields.app nowUs)⟩ := by
  simp [submitDraft, hentry, hroom, hrefused, messageOfDraft]

theorem submitDraft_eq_ok_iff {identity : SharedEventId} {next : ChatWorld} :
    world.submitDraft roomIds env entryId nowUs = .ok (identity, next) ↔
      identity = (submitDraft env world.live entryId nowUs).result ∧
        world.runStages roomIds env.clockUs
          (submitDraft env world.live entryId nowUs).stages = .ok next := by
  unfold ChatWorld.submitDraft
  rw [except_bind_eq_ok_iff]
  constructor
  · rintro ⟨reached, hrun, h⟩
    cases h
    exact ⟨rfl, hrun⟩
  · rintro ⟨rfl, hrun⟩
    exact ⟨next, hrun, rfl⟩

/-- The three commits and the uniqueness of the identity, out of a safe state. -/
theorem submitsAllOrNothing_of_safe (hsound : world.live.Sound hids)
    (henv : ∀ n, (env.ids n).isValid = true)
    (hentry : world.live.entries.lookup entryId = some entry)
    (hroom : world.live.rooms.lookup entry.fields.room = some room)
    (hrefused : submitIsRefused world.live.workspace.fields entry.fields nowUs = false)
    (hsafe : SubmitIsSafe env world entryId nowUs) :
    SubmitsAllOrNothing roomIds env world entryId nowUs := by
  obtain ⟨hfree, hleft, hworkspaceLeft, hentryLeft⟩ := hsafe entry room hentry hroom hrefused
  have hdraft := submittable_of_not_refused hrefused room.fields.app
  have hstands := hsound.rooms _ room hroom
  obtain ⟨workspace, hworkspace⟩ := (hsound.workspace.commit_returns_iff
    ⟨env.ids 0, some _⟩ (henv 0) rfl).mpr ⟨hdraft.canReserve, hworkspaceLeft⟩
  obtain ⟨entry', hentry'⟩ := ((hsound.entries entryId entry hentry).1.commit_returns_iff
    ⟨env.ids 2, some (.draftChanged [])⟩ (henv 2) rfl).mpr ⟨rfl, hentryLeft⟩
  have hunknown : hasRecordWithIdentity room.journal
      (nextMessageId world.live.workspace.fields) = false := by
    rw [hasRecordWithIdentity, List.any_eq_false]
    intro record hrecord
    simp [hfree.1 record hrecord]
  obtain ⟨room', hroom'⟩ := (@commitMessage_returns_iff _ _ _ (env.ids 1)
    (messageOfDraft world.live.workspace.fields entry.fields room.fields.app nowUs) env.clockUs
    hstands (henv 1) hdraft.origin hdraft.sequence hdraft.text).mpr
      ⟨effectiveTimeUs_ne_zero_iff.mpr hleft, hunknown⟩
  obtain ⟨next, hrun, hnext⟩ :=
    exists_runStages_submitStages hentry hroom hworkspace hroom' hentry'
  have hplaced := messagePlaced_of_commitMessage hstands (henv 1) hdraft.sequence hdraft.text
    hroom'
  obtain ⟨hjournal, hmessages⟩ := hplaced.only.1 hfree
  have hcleared := ((hsound.entries entryId entry hentry).1.committed rfl hentry').2.2
  refine ⟨nextMessageId world.live.workspace.fields, next, ?_, ?_, ?_⟩
  · rw [submitDraft_eq_ok_iff, submitDraft_of_not_refused hentry hroom hrefused]
    exact ⟨rfl, hrun⟩
  · intro _
    refine ⟨entry, entry', room, room', _, _, hentry, ?_, hroom, ?_, hjournal, rfl, hmessages,
      rfl, rfl, ?_, ?_⟩
    · rw [hnext]
      exact AList.lookup_insert _
    · rw [hnext]
      exact AList.lookup_insert _
    · intro last hlast
      rw [hlast] at hleft
      show last < effectiveTimeUs _ nowUs
      rw [hlast]
      exact lt_effectiveTimeUs hleft
    · rw [hcleared.fields]
      rfl
  · intro hempty
    exact absurd hempty hdraft.origin

/-- What a submission that was all or nothing shows of the state before it. -/
theorem safe_of_submitsAllOrNothing (hsound : world.live.Sound hids)
    (henv : ∀ n, (env.ids n).isValid = true)
    (hentry : world.live.entries.lookup entryId = some entry)
    (hroom : world.live.rooms.lookup entry.fields.room = some room)
    (hrefused : submitIsRefused world.live.workspace.fields entry.fields nowUs = false)
    (hsubmits : SubmitsAllOrNothing roomIds env world entryId nowUs) :
    SubmitIsSafe env world entryId nowUs := by
  intro entry' room' hentry' hroom' _
  cases hentry.symm.trans hentry'
  cases hroom.symm.trans hroom'
  have hdraft := submittable_of_not_refused hrefused room.fields.app
  have hstands := hsound.rooms _ room hroom
  obtain ⟨identity, next, hrun, hsubmitted, -⟩ := hsubmits
  rw [submitDraft_eq_ok_iff, submitDraft_of_not_refused hentry hroom hrefused] at hrun
  obtain ⟨rfl, hrun⟩ := hrun
  obtain ⟨workspace, after, cleared, hworkspace, hafter, hcleared, hnext⟩ :=
    runStages_submitStages hentry hroom hrun
  have hworkspaceLeft := ((hsound.workspace.commit_returns_iff
    ⟨env.ids 0, some _⟩ (henv 0) rfl).mp ⟨_, hworkspace⟩).2
  have hentryLeft := (((hsound.entries entryId entry hentry).1.commit_returns_iff
    ⟨env.ids 2, some (.draftChanged [])⟩ (henv 2) rfl).mp ⟨_, hcleared⟩).2
  have htimestamp := ((@commitMessage_returns_iff _ _ _ (env.ids 1)
    (messageOfDraft world.live.workspace.fields entry.fields room.fields.app nowUs) env.clockUs
    hstands (henv 1) hdraft.origin hdraft.sequence hdraft.text).mp ⟨_, hafter⟩).1
  have hplaced := messagePlaced_of_commitMessage hstands (henv 1) hdraft.sequence hdraft.text
    hafter
  refine ⟨?_, effectiveTimeUs_ne_zero_iff.mp htimestamp, hworkspaceLeft, hentryLeft⟩
  by_contra htaken
  obtain ⟨entry₁, -, -, room₁, record, message, hentry₁, -, -, hroom₁, hjournal, -, hmessages,
    -⟩ := (hsubmitted hdraft.origin).submitted
  cases hentry.symm.trans hentry₁
  rw [hnext] at hroom₁
  cases (AList.lookup_insert _).symm.trans hroom₁
  exact hplaced.only.2 htaken record message hjournal hmessages

/-- A submission that is refused does nothing. -/
theorem submitsAllOrNothing_of_refused
    (h : submitDraft env world.live entryId nowUs = ⟨{}, []⟩) :
    SubmitsAllOrNothing roomIds env world entryId nowUs := by
  refine ⟨{}, world, ?_, ?_, fun _ => rfl⟩
  · rw [submitDraft_eq_ok_iff, h]
    exact ⟨rfl, rfl⟩
  · intro horigin
    exact absurd rfl horigin

theorem submitsAllOrNothing_iff (hsound : world.live.Sound hids)
    (henv : ∀ n, (env.ids n).isValid = true) :
    SubmitsAllOrNothing roomIds env world entryId nowUs ↔
      SubmitIsSafe env world entryId nowUs := by
  cases hentry : world.live.entries.lookup entryId with
  | none =>
      have hnothing : submitDraft env world.live entryId nowUs = ⟨{}, []⟩ := by
        simp [submitDraft, hentry]
      refine iff_of_true (submitsAllOrNothing_of_refused hnothing) ?_
      intro entry room hfound
      rw [hentry] at hfound
      cases hfound
  | some entry =>
      cases hrefused : submitIsRefused world.live.workspace.fields entry.fields nowUs with
      | true =>
          have hnothing : submitDraft env world.live entryId nowUs = ⟨{}, []⟩ := by
            simp [submitDraft, hentry, hrefused]
          refine iff_of_true (submitsAllOrNothing_of_refused hnothing) ?_
          intro entry' room hfound _ hnot
          cases hentry.symm.trans hfound
          rw [hrefused] at hnot
          cases hnot
      | false =>
          have hvalid := (submittable_of_not_refused hrefused []).room
          obtain ⟨room, hroom⟩ :=
            Option.isSome_iff_exists.mp ((hsound.entries entryId entry hentry).2 hvalid)
          exact ⟨safe_of_submitsAllOrNothing hsound henv hentry hroom hrefused,
            submitsAllOrNothing_of_safe hsound henv hentry hroom hrefused⟩

end Outcome

section Claim

/-- The surroundings of a command whose objects get ids from the given one on. -/
def commandEnv (first : Nat) (clockUs : UInt64) : CommandEnv := ⟨clockUs, idsFrom first⟩

/-- A replica binds its endpoint, opens a chat, binds it to a new room, and a draft is
typed. -/
def draftTyped : List ChatAction :=
  [.run (commandEnv 100 10) (.bindLocalEndpoint [9]),
    .run (commandEnv 200 11) (.openOrSelectChat [7]),
    .createRoom ⟨50⟩ ⟨51⟩,
    .run (commandEnv 300 12) (.bindChat ⟨200⟩ ⟨⟨60⟩, some ⟨1, [7], 0⟩⟩ ⟨50⟩),
    .run (commandEnv 400 13) (.setDraft ⟨200⟩ [104, 105])]

/-- A message of the peer under the next identity of this replica. -/
def forgedMessage : ChatAction :=
  .callRoom ⟨50⟩ (.journal (.insertShared ⟨⟨70⟩, some (.app ⟨⟨⟨[9], 1⟩, 20, [33]⟩⟩)⟩
    ⟨[9], 1⟩ ⟨20⟩ 14))

theorem commandEnv_valid {first : Nat} {clockUs : UInt64}
    (h : ∀ k < 64, (⟨UInt32.ofNat (first + k)⟩ : ObjId).isValid = true) (n : Nat) :
    ((commandEnv first clockUs).ids n).isValid = true :=
  forall_idsFrom (fun id => id.isValid = true) first h n

end Claim

end AppTraverse
