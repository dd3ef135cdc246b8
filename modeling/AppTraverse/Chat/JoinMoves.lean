import AppTraverse.Chat.SessionSync

/-!
# The moves of a join

Every handler of a session makes one of a few moves of its join.  A move says what became of
the join state, of the waiting entries and of the open expectations; everything else is
either an entry that is kept or does not concern the join.
-/

namespace AppTraverse

open Foundations

/-- The documented behaviour of the text of a uid: it has the form that the checks before
it ask for, and it is read as itself. -/
structure FormatsUids (platform : ChatPlatform) : Prop where
  shape : ∀ text formatted, platform.formatUid text = some formatted →
    isUidText formatted = true
  stable : ∀ text formatted, platform.formatUid text = some formatted →
    platform.formatUid formatted = some formatted

section UidTexts

variable {platform : ChatPlatform}

theorem isSpace_of_isAsciiHex {c : UInt8} (h : isAsciiHex c = true) : isSpace c = false := by
  simp only [isAsciiHex, isSpace, Bool.or_eq_true, Bool.and_eq_true, decide_eq_true_eq,
    UInt8.le_iff_toNat_le, ← UInt8.toNat_inj, UInt8.reduceToNat, Bool.or_eq_false_iff,
    Bool.and_eq_false_iff, decide_eq_false_iff_not] at h ⊢
  omega

/-- The characters of a uid text are hexadecimal digits away from the dashes. -/
theorem isAsciiHex_of_uidCharactersFrom {text : Bytes} {start i : Nat} {c : UInt8}
    (h : uidCharactersFrom start text = true) (hc : text[i]? = some c)
    (hdash : isDashPosition (start + i) = false) : isAsciiHex c = true := by
  induction text generalizing start i with
  | nil => cases hc
  | cons first rest ih =>
      rw [uidCharactersFrom, Bool.and_eq_true] at h
      cases i with
      | zero =>
          cases hc
          rw [Nat.add_zero] at hdash
          rw [hdash] at h
          exact h.1
      | succ i =>
          apply ih h.2 hc
          rw [show start + 1 + i = start + (i + 1) by omega]
          exact hdash

/-- A text without white space at its ends is trimmed to itself. -/
theorem trimAsciiWhitespace_eq {text : Bytes} (hhead : ∀ c ∈ text.head?, isSpace c = false)
    (hlast : ∀ c ∈ text.getLast?, isSpace c = false) : trimAsciiWhitespace text = text := by
  have hkept : ∀ chars : Bytes, (∀ c ∈ chars.head?, isSpace c = false) →
      chars.dropWhile isSpace = chars := by
    intro chars hchars
    cases chars with
    | nil => rfl
    | cons first rest =>
        rw [List.dropWhile_cons, hchars first rfl]
        rfl
  rw [trimAsciiWhitespace, hkept text hhead, hkept text.reverse, List.reverse_reverse]
  intro c hc
  rw [List.head?_reverse] at hc
  exact hlast c hc

theorem trimAsciiWhitespace_of_isUidText {text : Bytes} (h : isUidText text = true) :
    trimAsciiWhitespace text = text := by
  simp only [isUidText, Bool.and_eq_true, decide_eq_true_eq] at h
  obtain ⟨⟨hlength, hcharacters⟩, -⟩ := h
  apply trimAsciiWhitespace_eq
  · intro c hc
    rw [Option.mem_def, List.head?_eq_getElem?] at hc
    exact isSpace_of_isAsciiHex (isAsciiHex_of_uidCharactersFrom hcharacters hc (by decide))
  · intro c hc
    rw [Option.mem_def, List.getLast?_eq_getElem?, hlength] at hc
    exact isSpace_of_isAsciiHex (isAsciiHex_of_uidCharactersFrom hcharacters hc (by decide))

/-- The canonical form of a uid is its own canonical form, and is not trimmed. -/
theorem canonical_of_tryCanonicalize (huids : FormatsUids platform) {raw canonical : Bytes}
    (h : tryCanonicalizeAetherUid platform raw = some canonical) :
    canonical ≠ [] ∧ trimAsciiWhitespace canonical = canonical ∧
      tryCanonicalizeAetherUid platform canonical = some canonical := by
  simp only [tryCanonicalizeAetherUid] at h
  split at h
  case isTrue => cases h
  case isFalse htext =>
    obtain ⟨hformat, hnonempty⟩ := Option.filter_eq_some_iff.mp h
    have hshape := huids.shape _ _ hformat
    have htrim := trimAsciiWhitespace_of_isUidText hshape
    refine ⟨by simpa using hnonempty, htrim, ?_⟩
    rw [tryCanonicalizeAetherUid, htrim, hshape, huids.stable _ _ hformat]
    simpa using hnonempty

end UidTexts

section Moves

/-- The same join, whatever else the join state holds. -/
structure SameJoin (before after : ChatDemoRuntimeFields) : Prop where
  phase : after.joinPhase = before.joinPhase
  attempt : after.joinAttemptId = before.joinAttemptId
  host : after.expectedHostUid = before.expectedHostUid
  accepted : after.acceptedRoomId = before.acceptedRoomId
  bound : after.boundRoomId = before.boundRoomId
  entry : after.joinEntryId = before.joinEntryId

theorem SameJoin.refl (join : ChatDemoRuntimeFields) : SameJoin join join :=
  ⟨rfl, rfl, rfl, rfl, rfl, rfl⟩

/-- The workspace has an entry for the expected host. -/
structure JoinEntry (session : ChatSession) (entry : ChatEntry) : Prop where
  attempt : session.join.joinAttemptId.isValid = true
  valid : session.join.joinEntryId.isValid = true
  listed : session.join.joinEntryId ∈ session.world.live.workspace.fields.chats
  found : session.world.live.entries.lookup session.join.joinEntryId = some entry
  peer : entry.fields.peerUid = session.join.expectedHostUid

/-- A control message comes from the expected host and names the current attempt. -/
def ConcernsJoin (platform : ChatPlatform) (join : ChatDemoRuntimeFields) (source : Bytes)
    (msg : ChatBootstrapMessage) : Prop :=
  canonicalSource platform source = join.expectedHostUid ∧ msg.attemptId = join.joinAttemptId

/-- What became of a join whose attempt, host and entry are the same. -/
structure JoinProgress (before after : ChatDemoRuntimeFields) (phase : ChatJoinPhase)
    (roomId : ObjId) : Prop where
  phase : after.joinPhase = phase
  attempt : after.joinAttemptId = before.joinAttemptId
  host : after.expectedHostUid = before.expectedHostUid
  entry : after.joinEntryId = before.joinEntryId
  accepted : after.acceptedRoomId = roomId

theorem JoinProgress.of_accepted {before after : ChatDemoRuntimeFields} {attemptId roomId : ObjId}
    {sourceUid : Bytes}
    (h : after = chatDemoRuntime.apply before (.joinHostAccepted attemptId sourceUid roomId)) :
    JoinProgress before after .accepted roomId := by
  subst h
  exact ⟨rfl, rfl, rfl, rfl, rfl⟩

theorem JoinProgress.of_completed {before after : ChatDemoRuntimeFields}
    {attemptId roomId : ObjId}
    (h : after = chatDemoRuntime.apply before (.joinHostCompleted attemptId roomId)) :
    JoinProgress before after .joined roomId := by
  subst h
  exact ⟨rfl, rfl, rfl, rfl, rfl⟩

theorem JoinProgress.trans {before middle after : ChatDemoRuntimeFields}
    {first second : ChatJoinPhase} {roomId other : ObjId}
    (h : JoinProgress before middle first roomId) (h' : JoinProgress middle after second other) :
    JoinProgress before after second other :=
  ⟨h'.phase, h'.attempt.trans h.attempt, h'.host.trans h.host, h'.entry.trans h.entry,
    h'.accepted⟩

/-- The moves of a join, when `source` is where the control message comes from that is
handled, if one is. -/
inductive JoinMove (platform : ChatPlatform) (source : Bytes) (session final : ChatSession) :
    Prop where
  | unmoved (join : SameJoin session.join final.join)
      (offers : ∀ offer ∈ session.offers, offer ∈ final.offers)
      (waiting : final.waitingEntryByEndpoint = session.waitingEntryByEndpoint)
      (expectations : final.expectations = session.expectations)
  | disconnected (join : SameJoin session.join final.join)
      (offers : final.offers = session.offers) (expectations : final.expectations = [])
  | connected (join : SameJoin session.join final.join)
      (offers : final.offers = session.offers)
      (expectations : ∀ expectation ∈ final.expectations,
        session.join.joinPhase = .accepted ∧ expectation =
          ⟨session.join.expectedHostUid, chatRoomClassId, session.join.acceptedRoomId⟩ ∧
        final.waitingEntryByEndpoint.lookup session.join.expectedHostUid =
          some session.join.joinEntryId ∧ session.join.expectedHostUid ≠ [])
      (single : final.expectations.length ≤ 1)
  | failed (closed : Bytes) (phase : final.join.joinPhase = .failed)
      (host : closed = session.join.expectedHostUid ∨ (closed = source ∧
        canonicalSource platform source = session.join.expectedHostUid))
      (expectations : final.expectations = (session.forgetEndpoint closed).expectations)
  | requested (entry : ChatEntry) (phase : final.join.joinPhase = .joining)
      (found : JoinEntry final entry)
      (expectations : final.expectations =
        if session.join.joinPhase = .joining ∨ session.join.joinPhase = .accepted then
          (session.forgetEndpoint session.join.expectedHostUid).expectations
        else session.expectations)
  | offered (roomId : ObjId) (before : session.join.joinPhase = .joining)
      (progress : JoinProgress session.join final.join .accepted roomId) (valid : roomId.isValid = true)
      (host : canonicalSource platform source = session.join.expectedHostUid)
      (offer : ⟨source, session.join.joinAttemptId, roomId⟩ ∈ final.offers)
      (waiting : final.waitingEntryByEndpoint.lookup source = some session.join.joinEntryId)
      (expectations : final.expectations = (session.expectRoom source roomId).expectations)
  | offeredAgain (before : session.join.joinPhase = .accepted)
      (join : SameJoin session.join final.join)
      (offers : ∀ offer ∈ session.offers, offer ∈ final.offers)
      (host : canonicalSource platform source = session.join.expectedHostUid)
      (waiting : final.waitingEntryByEndpoint.lookup source = some session.join.joinEntryId)
      (others : ∀ other ≠ source, final.waitingEntryByEndpoint.lookup other =
        session.waitingEntryByEndpoint.lookup other)
      (expectations : final.expectations =
        (session.expectRoom source session.join.acceptedRoomId).expectations)
  | completed (roomId : ObjId) (before : session.join.joinPhase = .joining)
      (progress : JoinProgress session.join final.join .joined roomId) (valid : roomId.isValid = true)
      (host : canonicalSource platform source = session.join.expectedHostUid)
      (offer : ⟨source, session.join.joinAttemptId, roomId⟩ ∈ final.offers)
      (bound : final.join.boundRoomId = roomId)
      (room : final.roomOf session.join.joinEntryId = roomId)
      (expectations : final.expectations = session.expectations)
  | imported (endpoint : Bytes) (expectation : EndpointExpectation)
      (before : session.join.joinPhase = .accepted)
      (progress : JoinProgress session.join final.join .joined session.join.acceptedRoomId)
      (offers : final.offers = session.offers)
      (bound : final.join.boundRoomId = session.join.acceptedRoomId)
      (room : final.roomOf session.join.joinEntryId = session.join.acceptedRoomId)
      (opened : expectationOf session.expectations endpoint = some expectation)
      (expectations : final.expectations = session.expectations.erase expectation)

/-- A join failed and no expectation was closed. -/
structure FailedOpen (session final : ChatSession) : Prop where
  phase : final.join.joinPhase = .failed
  expectations : final.expectations = session.expectations

/-- What every handler leaves as it is. -/
structure Continues (session final : ChatSession) : Prop where
  nodes : SessionLocal final
  entries : EntriesKept session.world.live final.world.live

variable {platform : ChatPlatform} {source : Bytes} {session final : ChatSession}
  {env : SessionEnv}

theorem roomOf_of_lookup {entryId : ObjId} {entry : ChatEntry}
    (h : session.world.live.entries.lookup entryId = some entry) :
    session.roomOf entryId = entry.fields.room := by
  rw [ChatSession.roomOf, h]

/-- An entry that is kept keeps its room. -/
theorem roomOf_of_entriesKept (h : EntriesKept session.world.live final.world.live)
    {entryId : ObjId} (hvalid : (session.roomOf entryId).isValid = true) :
    final.roomOf entryId = session.roomOf entryId := by
  unfold ChatSession.roomOf at hvalid ⊢
  cases hentry : session.world.live.entries.lookup entryId with
  | none =>
      rw [hentry] at hvalid
      cases hvalid
  | some entry =>
      rw [hentry] at hvalid
      obtain ⟨kept, hkept, -, hroom⟩ := h.entries entryId entry hentry
      rw [hkept]
      exact hroom hvalid

theorem SessionLocal.continues (h : SessionLocal session) : Continues session session :=
  ⟨h, .refl _⟩

/-- A change of the volatile part of a session that leaves the world alone. -/
theorem Continues.of_world (h : SessionLocal final)
    (hworld : final.world.live = session.world.live) : Continues session final :=
  ⟨h, by rw [hworld]; exact .refl _⟩

theorem JoinMove.of_kept (h : SessionKept session final) : JoinMove platform source session final := by
  have hjoin : final.join = session.join := by
    rw [ChatSession.join, ChatSession.join, h.runtime]
  refine .unmoved ?_ ?_ h.waiting h.expectations
  · rw [hjoin]
    exact .refl _
  · intro offer hmem
    rw [h.offers]
    exact hmem

theorem JoinMove.refl (h : SessionLocal session) : JoinMove platform source session session :=
  .of_kept (.refl h)

theorem SessionLocal.setRuntime (h : SessionLocal session) {runtime : ChatDemoRuntimeState}
    (hruntime : runtime.IsLocal chatDemoRuntime) :
    SessionLocal { session with runtime := runtime } :=
  ⟨h.live, h.saved, hruntime⟩

theorem SessionLocal.of_eq (h : SessionLocal session) (hworld : final.world = session.world)
    (hruntime : final.runtime = session.runtime) : SessionLocal final :=
  ⟨by rw [hworld]; exact h.live, by rw [hworld]; exact h.saved,
    by rw [hruntime]; exact h.runtime⟩

/-- A change that concerns neither the join, nor its doors, nor the world. -/
theorem JoinMove.of_eq (hruntime : final.runtime = session.runtime)
    (hoffers : final.offers = session.offers)
    (hwaiting : final.waitingEntryByEndpoint = session.waitingEntryByEndpoint)
    (hsync : final.syncRuntime = session.syncRuntime) : JoinMove platform source session final := by
  have hjoin : final.join = session.join := by
    rw [ChatSession.join, ChatSession.join, hruntime]
  refine .unmoved ?_ ?_ hwaiting ?_
  · rw [hjoin]
    exact .refl _
  · intro offer hmem
    rw [hoffers]
    exact hmem
  · rw [ChatSession.expectations, ChatSession.expectations, hsync]

/-- The rule for a change of the volatile part of a session. -/
theorem safe_modify_of_eq (h : SessionLocal session) {f : ChatSession → ChatSession}
    {post : Unit → ChatSession → Prop} (hworld : (f session).world = session.world)
    (hruntime : (f session).runtime = session.runtime)
    (hpost : SessionLocal (f session) → post () (f session)) :
    (Program.modify f).Safe SessionLocal post session := by
  have hlocal : SessionLocal (f session) := h.of_eq hworld hruntime
  exact Program.safe_modify.mpr ⟨hlocal, hpost hlocal⟩

/-- `drive_join_send` moves a join only when its time is over. -/
theorem safe_driveJoinSend (h : SessionLocal session) :
    (driveJoinSend env).Safe SessionLocal
      (fun _ final => Continues session final ∧ JoinMove platform source session final) session := by
  rw [driveJoinSend, Program.safe_bind, Program.safe_read]
  refine ⟨h, ?_⟩
  split
  · exact ⟨h.continues, .refl h⟩
  split
  · apply safe_modify_of_eq h rfl rfl
    intro hlocal
    exact ⟨.of_world hlocal rfl, .of_eq rfl rfl rfl rfl⟩
  case isFalse hphase =>
  split
  · exact ⟨h.continues, .refl h⟩
  split
  · exact ⟨h.continues, .refl h⟩
  case isFalse hscheduled =>
  split
  · exact ⟨h.continues, .refl h⟩
  split
  · have hattempt : session.join.joinAttemptId.isValid = true := by
      simp only [Bool.or_eq_true, Bool.not_eq_true', decide_eq_true_eq, not_or,
        Bool.not_eq_false, not_not] at hscheduled
      rw [← hscheduled.2]
      exact hscheduled.1
    have hunderway : session.join.joinPhase = .joining ∨ session.join.joinPhase = .accepted := by
      by_contra hother
      exact hphase ⟨fun hjoining => hother (.inl hjoining), fun haccepted =>
        hother (.inr haccepted)⟩
    rw [Program.safe_bind]
    apply safe_commitJoinIfPossible h h
    · intro runtime hruntime _ hfields
      have hfailed := h.setRuntime hruntime
      refine ⟨hfailed, ?_⟩
      rw [Program.safe_bind]
      apply safe_modify_of_eq hfailed rfl rfl
      intro hforgot
      rw [Program.safe_bind]
      apply safe_modify_of_eq hforgot rfl rfl
      intro herased
      apply safe_modify_of_eq herased rfl rfl
      intro hlast
      refine ⟨.of_world hlast rfl, .failed session.join.expectedHostUid ?_ (.inl rfl) ?_⟩
      · show runtime.fields.joinPhase = .failed
        rw [hfields]
        rfl
      · show (session.forgetEndpoint runtime.fields.expectedHostUid).expectations = _
        rw [hfields]
        rfl
    · -- A join that is under way can fail.
      intro hcannot
      have hreason : (if session.join.joinPhase = .accepted then
          asciiBytes "Room sync timed out" else asciiBytes "Host response timed out") ≠ [] := by
        split <;> decide
      have hcan := canFail_of_underway hreason hunderway hattempt
      exact absurd (hcan.symm.trans hcannot) (by decide)
  split
  · exact ⟨h.continues, .refl h⟩
  · apply safe_modify_of_eq h rfl rfl
    intro hlocal
    exact ⟨.of_world hlocal rfl, .of_eq rfl rfl rfl rfl⟩

/-- A rejected join closes the door of the source. -/
theorem safe_handleJoinRejected (h : SessionLocal session)
    {msg : ChatBootstrapMessage} :
    (handleJoinRejected platform env source msg).Safe SessionLocal
      (fun _ final => Continues session final ∧ JoinMove platform source session final) session := by
  rw [handleJoinRejected, Program.safe_bind, Program.safe_read]
  refine ⟨h, ?_⟩
  split
  · exact ⟨h.continues, .refl h⟩
  case isFalse hconcerns =>
  extract_lets event
  split
  · exact ⟨h.continues, .refl h⟩
  rw [Program.safe_bind]
  apply safe_commitJoin h
  intro runtime hruntime _ hfields
  have hfailed := h.setRuntime hruntime
  refine ⟨hfailed, ?_⟩
  rw [Program.safe_bind]
  apply safe_modify_of_eq hfailed rfl rfl
  intro hforgot
  rw [Program.safe_bind]
  apply safe_modify_of_eq hforgot rfl rfl
  intro herased
  apply safe_modify_of_eq herased rfl rfl
  intro hlast
  refine ⟨.of_world hlast rfl, .failed source ?_ (.inr ⟨rfl, ?_⟩) rfl⟩
  · show runtime.fields.joinPhase = .failed
    rw [hfields]
    rfl
  · by_contra hother
    exact hconcerns (.inl hother)

/-- The host uid that was typed in is refused, and the doors stay as they are. -/
theorem safe_failBeginJoin (platform : ChatPlatform) (source : Bytes)
    (h : SessionLocal session) :
    (failBeginJoin env).Safe SessionLocal
      (fun _ final => Continues session final ∧
        (JoinMove platform source session final ∨ FailedOpen session final)) session := by
  rw [failBeginJoin, Program.safe_bind, Program.safe_read]
  refine ⟨h, ?_⟩
  rw [Program.safe_bind]
  apply safe_commitJoinIfPossible h h
  · intro runtime hruntime _ hfields
    have hfailed := h.setRuntime hruntime
    refine ⟨hfailed, ?_⟩
    apply safe_modify_of_eq hfailed rfl rfl
    intro hlast
    refine ⟨.of_world hlast rfl, .inr ⟨?_, rfl⟩⟩
    show runtime.fields.joinPhase = .failed
    rw [hfields]
    rfl
  · intro _
    apply safe_modify_of_eq h rfl rfl
    intro hlast
    exact ⟨.of_world hlast rfl, .inl (.of_eq rfl rfl rfl rfl)⟩

/-- While a room is accepted, the host offers another one. -/
def ConflictingOffer (platform : ChatPlatform) (join : ChatDemoRuntimeFields) (source : Bytes)
    (msg : ChatBootstrapMessage) : Prop :=
  ConcernsJoin platform join source msg ∧ join.joinPhase = .accepted ∧
    msg.roomId.isValid = true ∧ join.acceptedRoomId ≠ msg.roomId

/-- The phases in which an attempt has an entry. -/
def ChatJoinPhase.hasEntry : ChatJoinPhase → Bool
  | .joining | .accepted | .joined => true
  | .idle | .failed => false

/-- A join that is under way has the id of its attempt. -/
def HasAttempt (join : ChatDemoRuntimeFields) : Prop :=
  join.joinPhase.hasEntry = true → join.joinAttemptId.isValid = true

/-- An offer of the host moves the join on, or conflicts with the accepted room. -/
theorem safe_handleJoinAccepted (h : SessionLocal session) (hattempt : HasAttempt session.join)
    {msg : ChatBootstrapMessage} :
    (handleJoinAccepted platform env source msg).Safe SessionLocal
      (fun _ final => Continues session final ∧ (JoinMove platform source session final ∨
        (ConflictingOffer platform session.join source msg ∧ FailedOpen session final)))
      session := by
  rw [handleJoinAccepted, Program.safe_bind]
  apply safe_modify_of_eq h rfl rfl
  intro hnoted
  rw [Program.safe_bind, Program.safe_read]
  refine ⟨hnoted, ?_⟩
  have hkept : ∀ offer ∈ session.offers,
      offer ∈ (session.noteOffer ⟨source, msg.attemptId, msg.roomId⟩).offers :=
    fun offer hmem => List.mem_append_left _ hmem
  have hunmoved : JoinMove platform source session
      (session.noteOffer ⟨source, msg.attemptId, msg.roomId⟩) :=
    .unmoved (.refl _) hkept rfl rfl
  extract_lets join conflict event done
  split
  · exact ⟨.of_world hnoted rfl, .inl hunmoved⟩
  case isFalse hconcerns =>
  have hhost : canonicalSource platform source = session.join.expectedHostUid := by
    by_contra hother
    exact hconcerns (.inl hother)
  have hsame : msg.attemptId = session.join.joinAttemptId := by
    by_contra hother
    exact hconcerns (.inr (.inl hother))
  have hvalid : msg.roomId.isValid = true := by
    by_contra hother
    exact hconcerns (.inr (.inr (by simpa using hother)))
  split
  · exact ⟨.of_world hnoted rfl, .inl hunmoved⟩
  split
  case isTrue hagain =>
    rw [Program.safe_bind]
    apply safe_modify_of_eq hnoted rfl rfl
    intro hexpected
    apply safe_modify_of_eq hexpected rfl rfl
    intro hlast
    refine ⟨.of_world hlast rfl, .inl (.offeredAgain hagain.1 (.refl _) hkept hhost ?_ ?_
      ?_)⟩
    · exact AList.lookup_insert _
    · exact fun other hother => AList.lookup_insert_ne hother
    · rw [show session.join.acceptedRoomId = msg.roomId from hagain.2.1]
      rfl
  split
  case isTrue hconflict =>
    split
    · rw [Program.safe_bind]
      apply safe_commitJoin hnoted
      intro runtime hruntime _ hfields
      have hfailed := hnoted.setRuntime hruntime
      refine ⟨hfailed, ?_⟩
      apply safe_modify_of_eq hfailed rfl rfl
      intro hlast
      refine ⟨.of_world hlast rfl, .inr ⟨⟨⟨hhost, hsame⟩, hconflict.1, hvalid, hconflict.2.2⟩,
        ⟨?_, rfl⟩⟩⟩
      show runtime.fields.joinPhase = .failed
      rw [hfields]
      rfl
    · exact ⟨.of_world hnoted rfl, .inl hunmoved⟩
  split
  · exact ⟨.of_world hnoted rfl, .inl hunmoved⟩
  case isFalse hother =>
  have hjoining : session.join.joinPhase = .joining := not_not.mp hother
  split
  · exact ⟨.of_world hnoted rfl, .inl hunmoved⟩
  rw [Program.safe_bind]
  apply safe_commitJoin hnoted
  intro runtime hruntime _ hfields
  have haccepted := hnoted.setRuntime hruntime
  refine ⟨haccepted, ?_⟩
  rw [Program.safe_bind, Program.safe_read]
  refine ⟨haccepted, ?_⟩
  have hoffer : (⟨source, session.join.joinAttemptId, msg.roomId⟩ : RoomOffer) ∈
      (session.noteOffer ⟨source, msg.attemptId, msg.roomId⟩).offers := by
    rw [hsame]
    exact List.mem_append_right _ List.mem_cons_self
  extract_lets entryId
  have hentryId : entryId = session.join.joinEntryId := by
    show runtime.fields.joinEntryId = _
    rw [hfields]
    rfl
  split
  case isTrue hroom =>
    have hcan : chatDemoRuntime.canApply
        ({ session.noteOffer ⟨source, msg.attemptId, msg.roomId⟩ with runtime := runtime } :
          ChatSession).join done = true := by
      apply canComplete_iff.mpr
      show _ ∧ _ ∧ runtime.fields.joinAttemptId = _ ∧ runtime.fields.acceptedRoomId = _ ∧
        (runtime.fields.joinPhase = _ ∨ runtime.fields.joinPhase = _)
      rw [hfields]
      refine ⟨?_, hvalid, hsame.symm, rfl, .inr rfl⟩
      rw [hsame]
      exact hattempt (by rw [hjoining]; rfl)
    rw [if_pos hcan, Program.safe_bind]
    apply safe_commitJoin haccepted
    intro last hlocal _ hdone
    have hjoined := haccepted.setRuntime hlocal
    refine ⟨hjoined, ?_⟩
    apply safe_modify_of_eq hjoined rfl rfl
    intro hlast
    have hprogress : JoinProgress session.join last.fields .joined msg.roomId :=
      (JoinProgress.of_accepted hfields).trans (.of_completed hdone)
    refine ⟨.of_world hlast rfl, .inl (.completed msg.roomId hjoining hprogress hvalid hhost
      hoffer ?_ ?_ rfl)⟩
    · show last.fields.boundRoomId = _
      rw [hdone]
      rfl
    · rw [← hentryId]
      exact hroom.2.2
  case isFalse =>
    rw [Program.safe_bind]
    apply safe_modify_of_eq haccepted rfl rfl
    intro hwaiting
    apply safe_modify_of_eq hwaiting rfl rfl
    intro hlast
    have hprogress : JoinProgress session.join runtime.fields .accepted msg.roomId :=
      .of_accepted hfields
    refine ⟨.of_world hlast rfl, .inl (.offered msg.roomId hjoining hprogress hvalid hhost
      hoffer ?_ rfl)⟩
    show (session.waitingEntryByEndpoint.insert source runtime.fields.joinEntryId).lookup source =
      some session.join.joinEntryId
    rw [hprogress.entry]
    exact AList.lookup_insert _

/-- Another world in the same session. -/
theorem continues_setWorld (h : SessionLocal session) {world : ChatWorld}
    (hworld : WorldKept session.world world) :
    Continues session { session with world := world } :=
  ⟨h.setWorld hworld, hworld.entries⟩

theorem Continues.trans {middle : ChatSession} (h : Continues session middle)
    (h' : Continues middle final) : Continues session final :=
  ⟨h'.nodes, h.entries.trans h'.entries⟩

/-- Arming the scheduler concerns nothing else. -/
theorem armJoinScheduler_eq (platform : ChatPlatform) (now : Nat) (session : ChatSession) :
    ∃ scheduler, armJoinScheduler platform now session =
      { session with joinScheduler := scheduler } := by
  unfold armJoinScheduler ChatSession.clearJoinScheduler
  split
  · exact ⟨_, rfl⟩
  split
  · exact ⟨_, rfl⟩
  split
  · exact ⟨_, rfl⟩
  split
  · exact ⟨session.joinScheduler, rfl⟩
  extract_lets req
  split
  · exact ⟨_, rfl⟩
  · exact ⟨_, rfl⟩

theorem expectations_forgetEndpoint_nil :
    (session.forgetEndpoint []).expectations = session.expectations := by
  unfold ChatSession.expectations ChatSession.forgetEndpoint ChatSession.mapSync
  cases session.syncRuntime with
  | none => rfl
  | some runtime => rfl

/-- What `switchHost` does. -/
theorem switchHost_eq (canonical : Bytes) (session : ChatSession)
    (hother : ¬ ((session.join.joinPhase = .joining ∨ session.join.joinPhase = .accepted) ∧
      session.join.expectedHostUid = canonical)) :
    (switchHost canonical session).world = session.world ∧
      (switchHost canonical session).runtime = session.runtime ∧
      (switchHost canonical session).expectations =
        if session.join.joinPhase = .joining ∨ session.join.joinPhase = .accepted then
          (session.forgetEndpoint session.join.expectedHostUid).expectations
        else session.expectations := by
  unfold switchHost
  by_cases hunderway : session.join.joinPhase = .joining ∨ session.join.joinPhase = .accepted
  · have hne : session.join.expectedHostUid ≠ canonical := fun hsame =>
      hother ⟨hunderway, hsame⟩
    by_cases hempty : session.join.expectedHostUid = []
    · rw [if_neg fun h => h.2.1 hempty, if_pos hunderway, hempty,
        expectations_forgetEndpoint_nil]
      exact ⟨rfl, rfl, rfl⟩
    · rw [if_pos ⟨hunderway, hempty, hne⟩, if_pos hunderway]
      exact ⟨rfl, rfl, rfl⟩
  · rw [if_neg fun h => hunderway h.1, if_neg hunderway]
    exact ⟨rfl, rfl, rfl⟩

/-- The rule for arming the scheduler. -/
theorem safe_modify_of_arm (h : SessionLocal session) {now : Nat}
    {post : Unit → ChatSession → Prop}
    (hpost : ∀ scheduler, SessionLocal { session with joinScheduler := scheduler } →
      post () { session with joinScheduler := scheduler }) :
    (Program.modify (armJoinScheduler platform now)).Safe SessionLocal post session := by
  obtain ⟨scheduler, hscheduler⟩ := armJoinScheduler_eq platform now session
  have hlocal : SessionLocal { session with joinScheduler := scheduler } := h.of_eq rfl rfl
  rw [Program.safe_modify, hscheduler]
  exact ⟨hlocal, hpost scheduler hlocal⟩

/-- The host uid that was typed in is no uid, or the one of this replica. -/
def RefusesHost (platform : ChatPlatform) (session : ChatSession) : Prop :=
  session.demoRole = .client ∧
    (tryCanonicalizeAetherUid platform
        session.world.live.workspace.fields.hostUidInput = none ∨
      (session.myUid ≠ [] ∧ tryCanonicalizeAetherUid platform
        session.world.live.workspace.fields.hostUidInput = some session.myUid))

/-- A join with a valid host starts an attempt, or goes on with it. -/
theorem safe_beginJoinWith (h : SessionLocal session) (hfresh : SessionIdsFresh session env)
    {canonical : Bytes} (hnonempty : canonical ≠ [])
    (htrim : trimAsciiWhitespace canonical = canonical) :
    (beginJoinWith platform env canonical).Safe SessionLocal
      (fun _ final => Continues session final ∧ JoinMove platform source session final) session := by
  have hids : ∀ n, ((env.command.drop 1).ids n).isValid = true := fun n => hfresh.valid (n + 1)
  have hnew : session.world.live.entries.lookup ((env.command.drop 1).ids 0) = none :=
    hfresh.entries 1
  rw [beginJoinWith, Program.safe_bind]
  refine (safe_runPlanned h (openOrSelectChat_stagesKeep hids hnew)).mono ?_
  rintro entryId reached ⟨hentryId, world, rfl, hworld, hrun⟩
  have hlocal := h.setWorld hworld
  have hcontinues := continues_setWorld h hworld
  split
  · exact ⟨hcontinues, .of_eq rfl rfl rfl rfl⟩
  case isFalse hinvalid =>
  have hvalid : entryId.isValid = true := by simpa using hinvalid
  rw [Program.safe_bind, Program.safe_read]
  refine ⟨hlocal, ?_⟩
  extract_lets join event
  split
  · apply safe_modify_of_arm hlocal
    intro scheduler hlast
    exact ⟨hcontinues.trans (.of_world hlast rfl), .of_eq rfl rfl rfl rfl⟩
  case isFalse hother =>
  obtain ⟨hswitchWorld, hswitchRuntime, hswitch⟩ :=
    switchHost_eq canonical { session with world := world } hother
  rw [Program.safe_bind]
  apply safe_modify_of_eq hlocal hswitchWorld hswitchRuntime
  intro hswitched
  split
  case isTrue hcannot =>
    -- The request always applies.
    have hcan : chatDemoRuntime.canApply join event = true := by
      show (entryId.isValid && !canonical.isEmpty) = true
      rw [hvalid]
      simpa using hnonempty
    rw [hcan] at hcannot
    cases hcannot
  case isFalse =>
  rw [Program.safe_bind]
  apply safe_commitJoin hswitched
  intro runtime hruntime _ hfields
  have hrequested := hswitched.setRuntime hruntime
  refine ⟨hrequested, ?_⟩
  rw [Program.safe_bind]
  apply safe_modify_of_eq hrequested rfl rfl
  intro hcleared
  apply safe_modify_of_arm hcleared
  intro scheduler hlast
  refine ⟨⟨hlast, ?_⟩, ?_⟩
  · show EntriesKept session.world.live (switchHost canonical _).world.live
    rw [hswitchWorld]
    exact hworld.entries
  obtain ⟨entry, hentry⟩ := listedEntry_of_openOrSelectChat h.live h.saved hids hnew
    (by rw [← hentryId]; exact hvalid) hrun
  rw [← hentryId, htrim] at hentry
  refine .requested entry ?_ ?_ ?_
  · show runtime.fields.joinPhase = .joining
    rw [hfields]
    rfl
  · constructor
    · show runtime.fields.joinAttemptId.isValid = true
      rw [hfields]
      exact hfresh.eventIds 0
    · show runtime.fields.joinEntryId.isValid = true
      rw [hfields]
      exact hvalid
    · show runtime.fields.joinEntryId ∈ (switchHost canonical _).world.live.workspace.fields.chats
      rw [hfields, hswitchWorld]
      exact hentry.listed
    · show (switchHost canonical _).world.live.entries.lookup runtime.fields.joinEntryId = _
      rw [hfields, hswitchWorld]
      exact hentry.found
    · show entry.fields.peerUid = runtime.fields.expectedHostUid
      rw [hfields]
      exact hentry.peer
  · exact hswitch

/-- `begin_join` starts an attempt, goes on with one, or refuses the host uid. -/
theorem safe_beginJoin (huids : FormatsUids platform) (h : SessionLocal session)
    (hfresh : SessionIdsFresh session env) :
    (beginJoin platform env).Safe SessionLocal
      (fun _ final => Continues session final ∧ (JoinMove platform source session final ∨
        (RefusesHost platform session ∧ FailedOpen session final))) session := by
  rw [beginJoin, Program.safe_bind, Program.safe_read]
  refine ⟨h, ?_⟩
  split
  · exact ⟨h.continues, .inl (.refl h)⟩
  case isFalse hclient =>
  rw [Program.safe_bind]
  -- The input is set to what it is, so there is nothing to commit.
  have hnone : (setHostUidInput env.command session.world.live
      session.world.live.workspace.fields.hostUidInput).stages = [] := by
    unfold setHostUidInput
    split
    · rfl
    · rw [if_pos rfl]
  refine (safe_runPlanned h (by rw [hnone]; trivial)).mono ?_
  rintro - reached ⟨-, world, rfl, -, hrun⟩
  rw [hnone] at hrun
  cases hrun
  show Program.Safe _ (Program.read >>= _) _ session
  rw [Program.safe_bind, Program.safe_read]
  refine ⟨h, ?_⟩
  split
  case h_1 hrefused =>
    refine (safe_failBeginJoin platform source h).mono ?_
    rintro - final ⟨hcontinues, hmove | hopen⟩
    · exact ⟨hcontinues, .inl hmove⟩
    · exact ⟨hcontinues, .inr ⟨⟨not_not.mp hclient, .inl hrefused⟩, hopen⟩⟩
  case h_2 canonical hcanonical =>
    split
    case isTrue hown =>
      refine (safe_failBeginJoin platform source h).mono ?_
      rintro - final ⟨hcontinues, hmove | hopen⟩
      · exact ⟨hcontinues, .inl hmove⟩
      · refine ⟨hcontinues, .inr ⟨⟨not_not.mp hclient, .inr ⟨?_, ?_⟩⟩, hopen⟩⟩
        · simpa using hown.1
        · rw [hcanonical, hown.2]
    case isFalse =>
      obtain ⟨hnonempty, htrim, -⟩ := canonical_of_tryCanonicalize huids hcanonical
      exact (safe_beginJoinWith h hfresh hnonempty htrim).mono
        fun _ _ hfinal => ⟨hfinal.1, .inl hfinal.2⟩

/-- What the import callback did. -/
structure CallbackAnswered (session final : ChatSession) (answer : Bool) : Prop where
  continues : Continues session final
  expectations : final.expectations = session.expectations
  offers : final.offers = session.offers
  refused : answer = false → SameJoin session.join final.join ∧
    final.waitingEntryByEndpoint = session.waitingEntryByEndpoint
  taken : answer = true → session.join.joinPhase = .accepted ∧
    session.join.acceptedRoomId.isValid = true ∧
    JoinProgress session.join final.join .joined session.join.acceptedRoomId ∧
    final.join.boundRoomId = session.join.acceptedRoomId ∧
    final.roomOf session.join.joinEntryId = session.join.acceptedRoomId

theorem CallbackAnswered.of_refused (hcontinues : Continues session final)
    (hruntime : final.runtime = session.runtime) (hsync : final.syncRuntime = session.syncRuntime)
    (hoffers : final.offers = session.offers)
    (hwaiting : final.waitingEntryByEndpoint = session.waitingEntryByEndpoint) :
    CallbackAnswered session final false := by
  refine ⟨hcontinues, ?_, hoffers, ?_, by simp⟩
  · rw [ChatSession.expectations, ChatSession.expectations, hsync]
  · intro _
    rw [ChatSession.join, ChatSession.join, hruntime]
    exact ⟨.refl _, hwaiting⟩

/-- The callback had changed nothing but the world when it took the Node. -/
theorem CallbackAnswered.of_setWorld {world : ChatWorld}
    (hcontinues : Continues session { session with world := world })
    (h : CallbackAnswered { session with world := world } final true) :
    CallbackAnswered session final true :=
  ⟨hcontinues.trans h.continues, h.expectations, h.offers, by simp, h.taken⟩

/-- The last part of the callback completes a join whose entry has the accepted room. -/
theorem safe_finishImport (h : SessionLocal session) {sourceEndpoint : Bytes} {roomId : ObjId}
    (hphase : session.join.joinPhase = .accepted)
    (hattempt : session.join.joinAttemptId.isValid = true) (hvalid : roomId.isValid = true)
    (haccepted : session.join.acceptedRoomId = roomId)
    (hroom : session.roomOf session.join.joinEntryId = roomId) :
    (finishImport env sourceEndpoint roomId).Safe SessionLocal
      (fun _ final => CallbackAnswered session final true) session := by
  rw [finishImport, Program.safe_bind]
  apply safe_modify_of_eq h rfl rfl
  intro herased
  rw [Program.safe_bind, Program.safe_read]
  refine ⟨herased, ?_⟩
  rw [Program.safe_bind]
  apply safe_commitJoinIfPossible herased herased
  · intro runtime hruntime _ hfields
    have hjoined := herased.setRuntime hruntime
    refine ⟨hjoined, ?_⟩
    apply safe_modify_of_eq hjoined rfl rfl
    intro hlast
    refine ⟨.of_world hlast rfl, rfl, rfl, by simp,
      fun _ => ⟨hphase, by rw [haccepted]; exact hvalid, ?_, ?_, ?_⟩⟩
    · rw [haccepted]
      exact .of_completed hfields
    · show runtime.fields.boundRoomId = _
      rw [hfields, haccepted]
      rfl
    · rw [haccepted]
      exact hroom
  · intro hcannot
    have hcan : chatDemoRuntime.canApply session.join
        (.joinHostCompleted session.join.joinAttemptId roomId) = true :=
      canComplete_iff.mpr ⟨hattempt, hvalid, rfl, haccepted, .inr hphase⟩
    exact absurd (hcan.symm.trans hcannot) (by decide)

theorem blockCompaction_eq (roomId : ObjId) (session : ChatSession) :
    ∃ rooms, session.blockCompaction roomId =
      { session with world := { session.world with
          live := { session.world.live with rooms := rooms } } } := by
  unfold ChatSession.blockCompaction
  split
  · exact ⟨session.world.live.rooms, rfl⟩
  · exact ⟨_, rfl⟩

/-- The import callback takes a Node only as the accepted room of the join. -/
theorem safe_importedCallback (h : SessionLocal session) (hattempt : HasAttempt session.join)
    {sourceEndpoint : Bytes} {node : ChatRoom} :
    (importedCallback platform env sourceEndpoint node).Safe SessionLocal
      (fun answer final => CallbackAnswered session final answer) session := by
  rw [importedCallback, Program.safe_bind, Program.safe_read]
  refine ⟨h, ?_⟩
  split
  · exact .of_refused h.continues rfl rfl rfl rfl
  case isFalse hwanted =>
  simp only [importWanted, Bool.not_eq_true', Bool.not_eq_false, Bool.and_eq_true,
    decide_eq_true_eq] at hwanted
  obtain ⟨⟨⟨⟨hphase, -⟩, -⟩, hvalid⟩, haccepted⟩ := hwanted
  obtain ⟨rooms, hblocked⟩ := blockCompaction_eq node.objId session
  rw [Program.safe_bind, Program.safe_modify, hblocked]
  have hlocal : SessionLocal { session with world := { session.world with
      live := { session.world.live with rooms := rooms } } } :=
    ⟨h.live.setRooms rooms, h.saved, h.runtime⟩
  have hcontinues : Continues session { session with world := { session.world with
      live := { session.world.live with rooms := rooms } } } :=
    ⟨hlocal, ⟨fun _ entry hentry => ⟨entry, hentry, rfl, fun _ => rfl⟩, fun _ hmem => hmem⟩⟩
  refine ⟨hlocal, ?_⟩
  rw [Program.safe_bind, Program.safe_read]
  refine ⟨hlocal, ?_⟩
  split
  · exact .of_refused hcontinues rfl rfl rfl rfl
  extract_lets
  split
  · exact .of_refused hcontinues rfl rfl rfl rfl
  split
  · exact .of_refused hcontinues rfl rfl rfl rfl
  case h_2 remoteLink hlink =>
  have hnode : node.objId.isValid = true := by
    rw [haccepted]
    exact hvalid
  have hunderway : session.join.joinAttemptId.isValid = true :=
    hattempt (by rw [hphase]; rfl)
  split
  case isTrue hsame =>
    rw [Program.safe_bind]
    exact (safe_finishImport hlocal hphase hunderway hnode haccepted.symm hsame.2).mono
      fun _ _ hfinal => hfinal.of_setWorld hcontinues
  case isFalse =>
    rw [Program.safe_bind]
    refine (safe_runPlanned hlocal bindChat_stagesKeep).mono ?_
    rintro bound reached ⟨hbound, world, rfl, hworld, hrun⟩
    have hreached := hlocal.setWorld hworld
    have hbefore := hcontinues.trans (continues_setWorld hlocal hworld)
    split
    case isTrue hnot =>
      exact .of_refused hbefore rfl rfl rfl rfl
    case isFalse hnot =>
      rw [hbound] at hnot
      obtain ⟨entry, hentry, hroom⟩ := room_of_bindChat hlocal.live (by simpa using hnot) hrun
      rw [Program.safe_bind, persistWorkspace, Program.safe_modify]
      have hpersisted : SessionLocal { session with world := world.persist } :=
        ⟨hreached.live, hreached.live, hreached.runtime⟩
      refine ⟨hpersisted, ?_⟩
      rw [Program.safe_bind]
      have hroomOf : ({ session with world := world.persist } : ChatSession).roomOf
          session.join.joinEntryId = node.objId := by
        rw [← hroom]
        exact roomOf_of_lookup hentry
      refine (safe_finishImport hpersisted hphase hunderway hnode haccepted.symm hroomOf).mono ?_
      intro _ final hfinal
      exact hfinal.of_setWorld ⟨hpersisted, hbefore.entries⟩

/-- Every call of the synchronization runtime moves the join by an import, at most. -/
theorem safe_callSync_joinMove (h : SessionLocal session) (hattempt : HasAttempt session.join)
    {call : Replica Messages MessageAddedEvent → RuntimeM Messages MessageAddedEvent
      (SharedSyncRuntime Messages MessageAddedEvent)}
    (hdoor : ∀ replica after, (call replica).result = .ok after →
      DoorOutcome replica.runtime after (call replica).effects) :
    (callSync platform env call).Safe SessionLocal
      (fun _ final => Continues session final ∧ JoinMove platform source session final) session := by
  apply safe_callSync h fun replica after hresult => ⟨hdoor replica after hresult, .inl trivial⟩
  · intro final hkept
    exact ⟨⟨hkept.sessionLocal h, hkept.world.entries⟩, .of_kept hkept⟩
  intro _ reached after source node bound expectation hreached hopened hexpectations
  have hjoin : reached.join = session.join := by
    rw [ChatSession.join, ChatSession.join, hreached.runtime]
  have hlocal : SessionLocal reached :=
    ⟨hreached.world.live, hreached.world.saved, by rw [hreached.runtime]; exact h.runtime⟩
  refine (safe_importedCallback hlocal (by rw [hjoin]; exact hattempt)).mono ?_
  intro answer final hanswered
  refine ⟨hanswered.continues.nodes, ?_⟩
  rintro rfl last hlast
  have hlastJoin : last.join = final.join := by
    rw [ChatSession.join, ChatSession.join, hlast.runtime]
  have hcontinues : Continues session last :=
    ⟨hlast.sessionLocal hanswered.continues.nodes,
      (hreached.world.entries.trans hanswered.continues.entries).trans hlast.world.entries⟩
  have hlastExpectations : last.expectations = after.expectedEndpointNodes := by
    rw [hlast.expectations, hanswered.expectations, hreached.expectations]
  have hlastOffers : last.offers = session.offers := by
    rw [hlast.offers, hanswered.offers, hreached.offers]
  refine ⟨hcontinues, ?_⟩
  cases answer with
  | false =>
      obtain ⟨hsame, hwaiting⟩ := hanswered.refused rfl
      rw [hjoin, ← hlastJoin] at hsame
      refine .unmoved hsame ?_ ?_ ?_
      · intro offer hmem
        rw [hlastOffers]
        exact hmem
      · rw [hlast.waiting, hwaiting, hreached.waiting]
      · rw [hlastExpectations, hexpectations]
        rfl
  | true =>
      obtain ⟨hphase, hvalid, hprogress, hbound, hroom⟩ := hanswered.taken rfl
      rw [hjoin] at hphase hvalid hprogress hbound hroom
      rw [← hlastJoin] at hprogress hbound
      refine .imported source expectation hphase hprogress hlastOffers hbound ?_ hopened ?_
      · rw [roomOf_of_entriesKept hlast.world.entries (by rw [hroom]; exact hvalid), hroom]
      · rw [hlastExpectations, hexpectations]
        rfl

/-- A host that accepts a client does not move its own join. -/
theorem safe_hostAccept_joinMove (h : SessionLocal session)
    (hfresh : SessionIdsFresh session env) {clientUid : Bytes} {req : ChatBootstrapMessage} :
    (hostAcceptClient platform env clientUid req).Safe SessionLocal
      (fun _ final => Continues session final ∧ JoinMove platform source session final) session :=
  (safe_hostAcceptClient h hfresh).mono fun _ _ hkept =>
    ⟨⟨hkept.sessionLocal h, hkept.world.entries⟩, .of_kept hkept⟩

/-- The control messages that conflict with the accepted room. -/
def ConflictingControl (platform : ChatPlatform) (session : ChatSession) (source bytes : Bytes) :
    Prop :=
  ∃ msg, decodeChatBootstrap platform bytes = some msg ∧ msg.kind = .joinAccepted ∧
    ConflictingOffer platform session.join source msg

theorem safe_handleControl (h : SessionLocal session) (hattempt : HasAttempt session.join)
    (hfresh : SessionIdsFresh session env) {bytes : Bytes} :
    (handleControl platform env source bytes).Safe SessionLocal
      (fun _ final => Continues session final ∧ (JoinMove platform source session final ∨
        (ConflictingControl platform session source bytes ∧ FailedOpen session final)))
      session := by
  rw [handleControl, Program.safe_bind, Program.safe_read]
  refine ⟨h, ?_⟩
  split
  · exact ⟨h.continues, .inl (.refl h)⟩
  split
  · exact ⟨h.continues, .inl (.refl h)⟩
  case h_2 msg hdecoded =>
  split
  · exact (safe_hostAccept_joinMove h hfresh).mono fun _ _ hfinal => ⟨hfinal.1, .inl hfinal.2⟩
  split
  · exact ⟨h.continues, .inl (.refl h)⟩
  split
  · exact (safe_handleJoinRejected h).mono fun _ _ hfinal => ⟨hfinal.1, .inl hfinal.2⟩
  case h_2 hkind =>
    refine (safe_handleJoinAccepted h hattempt).mono ?_
    rintro - final ⟨hcontinues, hmove | ⟨hconflict, hopen⟩⟩
    · exact ⟨hcontinues, .inl hmove⟩
    · exact ⟨hcontinues, .inr ⟨⟨msg, hdecoded, hkind, hconflict⟩, hopen⟩⟩
  · exact ⟨h.continues, .inl (.refl h)⟩

/-- The commands of the user make no entry and bind none. -/
theorem command_stagesKeep {env : CommandEnv} {state : ChatState} {command : ChatCommand}
    (hids : ∀ n, (env.ids n).isValid = true) (hfresh : state.entries.lookup (env.ids 0) = none)
    (hcommand : ∀ entryId link roomId, command ≠ .bindChat entryId link roomId) :
    StagesKeep state (command.stages env state) := by
  cases command with
  | bindChat entryId link roomId => exact absurd rfl (hcommand entryId link roomId)
  | openOrSelectChat peerUid => exact openOrSelectChat_stagesKeep hids hfresh
  | submitDraft entryId nowUs =>
      simp only [ChatCommand.stages, submitDraft]
      repeat' split
      all_goals simp [submitStages, StagesKeep, StageKeeps]
  | _ =>
      simp only [ChatCommand.stages, configureDemoRole, setHostUidInput, bindLocalEndpoint,
        setDraft, setScroll, setEntryField, setDesktopBounds, selectChat]
      repeat' split
      all_goals simp [StagesKeep, StageKeeps]

theorem safe_copyHostUid (h : SessionLocal session) :
    (copyHostUid env).Safe SessionLocal
      (fun _ final => Continues session final ∧ JoinMove platform source session final) session := by
  rw [copyHostUid, Program.safe_bind, Program.safe_read]
  refine ⟨h, ?_⟩
  extract_lets uid
  split
  · exact ⟨h.continues, .refl h⟩
  apply safe_commitJoin h
  intro runtime hruntime _ hfields
  have hlocal := h.setRuntime hruntime
  refine ⟨hlocal, .of_world hlocal rfl, .unmoved ?_ (fun _ hmem => hmem) rfl rfl⟩
  show SameJoin session.join runtime.fields
  rw [hfields]
  exact ⟨rfl, rfl, rfl, rfl, rfl, rfl⟩

theorem bindLocalEndpoint_stagesKeep {env : CommandEnv} {state : ChatState} {uid : Bytes} :
    StagesKeep state (bindLocalEndpoint env state uid).stages := by
  unfold bindLocalEndpoint
  split
  · trivial
  split
  · trivial
  split
  · trivial
  · exact ⟨trivial, by simp [StageKeeps]⟩

theorem keepsSession_onUid {uid : Bytes} : KeepsSession (onUid platform env uid) := by
  apply KeepsSession.bind
  · exact KeepsSession.modify fun _ h => ⟨rfl, rfl, rfl, rfl, h.worldKept⟩
  intro _
  apply KeepsSession.read
  intro session
  extract_lets persisted
  split
  · exact KeepsSession.modify fun _ h => ⟨rfl, rfl, rfl, rfl, h.worldKept⟩
  apply KeepsSession.bind (KeepsSession.runPlanned fun _ => bindLocalEndpoint_stagesKeep)
  intro bound
  split
  · exact KeepsSession.modify fun _ h => ⟨rfl, rfl, rfl, rfl, h.worldKept⟩
  · exact .pure

section Expectations

variable {roomId : ObjId} {expectation : EndpointExpectation}

/-- Expecting a room adds its expectation, at most. -/
theorem mem_expectRoom (h : expectation ∈ (session.expectRoom source roomId).expectations) :
    expectation ∈ session.expectations ∨
      (expectation = ⟨source, chatRoomClassId, roomId⟩ ∧ source ≠ []) := by
  unfold ChatSession.expectations ChatSession.expectRoom ChatSession.mapSync at h
  unfold ChatSession.expectations
  cases hruntime : session.syncRuntime with
  | none =>
      rw [hruntime] at h
      exact absurd h List.not_mem_nil
  | some runtime =>
      rw [hruntime] at h
      simp only [Option.map_some, expectInitialNodeFromEndpoint] at h ⊢
      split at h
      · exact .inl h
      case isFalse hrefused =>
      have hnonempty : source ≠ [] := by
        rintro rfl
        exact hrefused rfl
      split at h
      · rcases List.mem_or_eq_of_mem_set h with hold | hnew
        · exact .inl hold
        · exact .inr ⟨hnew, hnonempty⟩
      · rcases List.mem_append.mp h with hold | hnew
        · exact .inl hold
        · exact .inr ⟨List.mem_singleton.mp hnew, hnonempty⟩

/-- There is one expectation of an endpoint. -/
theorem length_expectRoom (hsame : ∀ other ∈ session.expectations,
      other.sourceEndpoint = source) (hsingle : session.expectations.length ≤ 1) :
    (session.expectRoom source roomId).expectations.length ≤ 1 := by
  unfold ChatSession.expectations at hsame hsingle
  unfold ChatSession.expectations ChatSession.expectRoom ChatSession.mapSync
  cases hruntime : session.syncRuntime with
  | none => exact Nat.zero_le 1
  | some runtime =>
      rw [hruntime] at hsame hsingle
      simp only [Option.map_some, expectInitialNodeFromEndpoint] at hsame hsingle ⊢
      split
      · exact hsingle
      split
      · rw [List.length_set]
        exact hsingle
      case isFalse habsent =>
        cases hold : runtime.expectedEndpointNodes with
        | nil => exact Nat.le_refl 1
        | cons first rest =>
            rw [hold] at habsent hsame
            have hfirst := hsame first List.mem_cons_self
            refine absurd (List.findIdx_lt_length_of_exists ?_) habsent
            exact ⟨first, List.mem_cons_self, decide_eq_true hfirst⟩

/-- After an endpoint is forgotten nothing is expected from it. -/
theorem mem_forgetEndpoint
    (h : expectation ∈ (session.forgetEndpoint source).expectations) :
    expectation ∈ session.expectations ∧ (source ≠ [] → expectation.sourceEndpoint ≠ source) := by
  unfold ChatSession.expectations ChatSession.forgetEndpoint ChatSession.mapSync at h
  unfold ChatSession.expectations
  cases hruntime : session.syncRuntime with
  | none =>
      rw [hruntime] at h
      exact absurd h List.not_mem_nil
  | some runtime =>
      rw [hruntime] at h
      simp only [Option.map_some, forgetInitialNodeFromEndpoint] at h ⊢
      split at h
      case isTrue hempty => exact ⟨h, fun hne => absurd (List.isEmpty_iff.mp hempty) hne⟩
      case isFalse =>
        rw [List.mem_filter, decide_eq_true_eq] at h
        exact ⟨h.1, fun _ => h.2⟩

end Expectations

theorem sessionKept_registerEntryRooms (h : SessionLocal session) :
    SessionKept session (registerEntryRooms session) := by
  unfold registerEntryRooms
  generalize session.world.live.workspace.fields.chats = chats
  induction chats generalizing session with
  | nil => exact .refl h
  | cons entryId rest ih =>
      rw [List.foldl_cons]
      split
      · have hfirst := sessionKept_registerRoom h (session.roomOf entryId)
        exact hfirst.trans (ih (hfirst.sessionLocal h))
      · exact ih h

theorem resendJoin_eq (platform : ChatPlatform) (now : Nat) (session : ChatSession) :
    ∃ scheduler sent, resendJoin platform now session =
      { session with joinScheduler := scheduler, sent := sent } := by
  unfold resendJoin ChatSession.sendControl
  split
  · exact ⟨session.joinScheduler, session.sent, rfl⟩
  extract_lets req scheduler
  split
  · exact ⟨_, session.sent, rfl⟩
  · exact ⟨_, _, rfl⟩

/-- A new synchronization runtime expects the accepted room, and nothing else. -/
theorem safe_onReady (h : SessionLocal session) :
    (onReady platform env).Safe SessionLocal
      (fun _ final => Continues session final ∧ JoinMove platform source session final) session := by
  rw [onReady, Program.safe_bind, Program.safe_read]
  refine ⟨h, ?_⟩
  split
  · exact ⟨h.continues, .refl h⟩
  rw [Program.safe_bind]
  apply safe_modify_of_eq h rfl rfl
  intro hnew
  have hnone : (newSyncRuntime platform session.myUid).expectedEndpointNodes = [] := by
    unfold newSyncRuntime allowStandaloneEventClass
    split
    · rfl
    · rfl
  have hregistered := sessionKept_registerEntryRooms hnew
  have hlocal := hregistered.sessionLocal hnew
  rw [Program.safe_bind, Program.safe_modify]
  refine ⟨hlocal, ?_⟩
  have hempty : (registerEntryRooms { session with
      aetherReady := true
      syncRuntime := some (newSyncRuntime platform session.myUid) }).expectations = [] := by
    rw [hregistered.expectations]
    exact hnone
  have hjoin : (registerEntryRooms { session with
      aetherReady := true
      syncRuntime := some (newSyncRuntime platform session.myUid) }).join = session.join := by
    rw [ChatSession.join, hregistered.runtime]
    rfl
  have hoffers := hregistered.offers
  have hentries : EntriesKept session.world.live _ := hregistered.world.entries
  generalize registerEntryRooms { session with
      aetherReady := true
      syncRuntime := some (newSyncRuntime platform session.myUid) } = registered at *
  have hagain : (expectAgain registered).world = registered.world ∧
      (expectAgain registered).runtime = registered.runtime ∧
      (expectAgain registered).offers = registered.offers := by
    unfold expectAgain
    split
    · exact ⟨rfl, rfl, rfl⟩
    · exact ⟨rfl, rfl, rfl⟩
  rw [Program.safe_bind]
  apply safe_modify_of_eq hlocal hagain.1 hagain.2.1
  intro hexpected
  obtain ⟨scheduler, sent, hresent⟩ := resendJoin_eq platform env.now (expectAgain registered)
  rw [Program.safe_modify, hresent]
  have hlast : SessionLocal { expectAgain registered with
      joinScheduler := scheduler, sent := sent } := hexpected.of_eq rfl rfl
  refine ⟨hlast, ⟨hlast, ?_⟩, .connected ?_ ?_ ?_ ?_⟩
  · show EntriesKept _ (expectAgain registered).world.live
    rw [hagain.1]
    exact hentries
  · show SameJoin session.join (expectAgain registered).runtime.fields
    rw [hagain.2.1, ← hjoin]
    exact .refl _
  · show (expectAgain registered).offers = _
    rw [hagain.2.2, hoffers]
  · show ∀ expectation ∈ (expectAgain registered).expectations, _ ∧ _ ∧
      (expectAgain registered).waitingEntryByEndpoint.lookup _ = _ ∧ _
    unfold expectAgain
    split
    case isTrue hopen =>
      intro expectation hmem
      rw [hjoin] at hopen hmem ⊢
      rcases mem_expectRoom hmem with hold | ⟨hsame, hnonempty⟩
      · rw [show (registered.setWaiting session.join.expectedHostUid
          session.join.joinEntryId).expectations = registered.expectations from rfl, hempty] at hold
        cases hold
      · exact ⟨hopen.1, hsame, AList.lookup_insert _, hnonempty⟩
    case isFalse =>
      intro expectation hmem
      rw [hempty] at hmem
      cases hmem
  · show (expectAgain registered).expectations.length ≤ 1
    unfold expectAgain
    split
    · apply length_expectRoom
      · intro other hmem
        rw [show (registered.setWaiting _ _).expectations = registered.expectations from rfl,
          hempty] at hmem
        cases hmem
      · show registered.expectations.length ≤ 1
        rw [hempty]
        exact Nat.zero_le 1
    · rw [hempty]
      exact Nat.zero_le 1

/-- The events that fail a join without closing its door. -/
def LeavesDoorOpen (platform : ChatPlatform) (session : ChatSession) : SessionEvent → Prop
  | .joinHost _ => RefusesHost platform session
  | .control _ source bytes => ConflictingControl platform session source bytes
  | _ => False

/-- Where a control message comes from. -/
def SessionEvent.controlSource : SessionEvent → Bytes
  | .control _ source _ => source
  | _ => []

/-- Every event of a session makes a move of its join, or fails it and leaves its door
open. -/
theorem safe_sessionEvent (huids : FormatsUids platform) (h : SessionLocal session)
    (hattempt : HasAttempt session.join) {event : SessionEvent}
    (hallowed : SessionEventAllowed session event) :
    (event.program platform).Safe SessionLocal
      (fun _ final => Continues session final ∧ (JoinMove platform event.controlSource session final ∨
        (LeavesDoorOpen platform session event ∧ FailedOpen session final))) session := by
  have hmoves : ∀ program : Program ChatSession Unit, program.Safe SessionLocal
      (fun _ final => Continues session final ∧ JoinMove platform event.controlSource session final) session →
      program.Safe SessionLocal (fun _ final => Continues session final ∧
        (JoinMove platform event.controlSource session final ∨
          (LeavesDoorOpen platform session event ∧ FailedOpen session final))) session :=
    fun program hprogram => hprogram.mono fun _ _ hfinal => ⟨hfinal.1, .inl hfinal.2⟩
  have hkeeps : ∀ program : Program ChatSession Unit, KeepsSession program →
      program.Safe SessionLocal
        (fun _ final => Continues session final ∧ JoinMove platform event.controlSource session final) session :=
    fun program hprogram => (hprogram session h).mono fun _ _ hkept =>
      ⟨⟨hkept.sessionLocal h, hkept.world.entries⟩, .of_kept hkept⟩
  cases event with
  | command env chosen =>
      apply hmoves
      rw [SessionEvent.program, Program.safe_bind, Program.safe_read]
      refine ⟨h, ?_⟩
      refine (safe_runChatStages h (command_stagesKeep hallowed.1.valid
        (hallowed.1.entries 0) hallowed.2)).mono ?_
      rintro - final ⟨world, rfl, hworld, -⟩
      exact ⟨continues_setWorld h hworld, .of_eq rfl rfl rfl rfl⟩
  | copyHostUid env => exact hmoves _ (safe_copyHostUid h)
  | joinHost env => exact safe_beginJoin huids h hallowed
  | control env source bytes => exact safe_handleControl h hattempt hallowed
  | frame env source bytes =>
      exact hmoves _ (safe_callSync_joinMove h hattempt fun _ _ hresult =>
        doorOutcome_onBytes hresult)
  | syncInitialState env roomId shareId =>
      exact hmoves _ (safe_callSync_joinMove h hattempt fun _ _ hresult =>
        (doorOutcome_syncInitialState hresult).1)
  | syncNextEvent env roomId shareId =>
      exact hmoves _ (safe_callSync_joinMove h hattempt fun _ _ hresult =>
        doorOutcome_syncNextEvent hresult)
  | tick env => exact hmoves _ (safe_driveJoinSend h)
  | uid env endpointUid => exact hmoves _ (hkeeps _ keepsSession_onUid)
  | ready env => exact hmoves _ (safe_onReady h)
  | retryConnection =>
      apply hmoves
      rw [SessionEvent.program, AppTraverse.retryConnection, Program.safe_modify]
      split
      · exact ⟨h, h.continues, .refl h⟩
      · have hlocal : SessionLocal { session with syncRuntime := none, aetherReady := false } :=
          h.of_eq rfl rfl
        exact ⟨hlocal, .of_world hlocal rfl, .disconnected (.refl _) rfl rfl⟩
  | persist => exact hmoves _ (hkeeps _ keepsSession_persistWorkspace)

end Moves

end AppTraverse
