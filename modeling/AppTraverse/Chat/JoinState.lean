import AppTraverse.Chat.ChatModel

/-!
# The join state of a chat session

`ChatDemoRuntimeState` lives as long as the process, in a Domain of its own.  A join is an
attempt: the id of an attempt is the id of the Event that requested it.
-/

namespace AppTraverse

/-- `ChatJoinPhase`. -/
inductive ChatJoinPhase where
  | idle
  | joining
  | accepted
  | joined
  | failed
  deriving DecidableEq, Repr

/-- The fields of `ChatDemoRuntimeState`. -/
structure ChatDemoRuntimeFields where
  joinPhase : ChatJoinPhase := .idle
  joinAttemptId : ObjId := ObjId.empty
  expectedHostUid : Bytes := []
  acceptedRoomId : ObjId := ObjId.empty
  boundRoomId : ObjId := ObjId.empty
  joinEntryId : ObjId := ObjId.empty
  lastError : Bytes := []
  copyRequestId : ObjId := ObjId.empty
  copyUid : Bytes := []
  copyPending : Bool := false
  deriving DecidableEq, Repr

/-- The Events of `ChatDemoRuntimeState`.  The two that start something carry the id of
their own object. -/
inductive ChatDemoRuntimeEvent where
  | joinHostRequested (objId entryId : ObjId) (hostUid : Bytes)
  | joinHostAccepted (attemptId : ObjId) (sourceUid : Bytes) (roomId : ObjId)
  | joinHostCompleted (attemptId roomId : ObjId)
  | joinHostFailed (attemptId : ObjId) (reason : Bytes)
  | copyHostUidRequested (objId : ObjId) (uid : Bytes)
  | copyHostUidCompleted (requestId : ObjId)
  deriving DecidableEq, Repr

namespace ChatDemoRuntimeFields

variable (fields : ChatDemoRuntimeFields)

/-- `CanApply(JoinHostCompletedEvent)`.  Completing again what is Joined is allowed, and
otherwise the room has to be the accepted one of the current attempt. -/
def canComplete (attemptId roomId : ObjId) : Bool :=
  if !attemptId.isValid || !roomId.isValid then
    false
  else if fields.joinPhase = .joined ∧ fields.acceptedRoomId = roomId ∧
      fields.joinAttemptId = attemptId then
    true
  else if fields.joinPhase ≠ .accepted then
    false
  else if attemptId ≠ fields.joinAttemptId then
    false
  else if !fields.acceptedRoomId.isValid || decide (roomId ≠ fields.acceptedRoomId) then
    false
  else
    true

/-- `CanApply(JoinHostFailedEvent)`. -/
def canFail (attemptId : ObjId) (reason : Bytes) : Bool :=
  if reason.isEmpty then
    false
  else if fields.joinPhase = .joining ∨ fields.joinPhase = .accepted then
    if !attemptId.isValid then
      false
    else if fields.joinAttemptId.isValid ∧ attemptId ≠ fields.joinAttemptId then
      false
    else
      true
  else if fields.joinPhase = .idle ∨ fields.joinPhase = .failed then
    true
  else
    false

end ChatDemoRuntimeFields

/-- `ChatDemoRuntimeState::CanApply` and `ChatDemoRuntimeState::Apply`. -/
def chatDemoRuntime : PlainClass ChatDemoRuntimeFields ChatDemoRuntimeEvent where
  canApply fields
    | .joinHostRequested _ entryId hostUid => entryId.isValid && !hostUid.isEmpty
    | .joinHostAccepted attemptId sourceUid roomId =>
        decide (fields.joinPhase = .joining) && decide (attemptId = fields.joinAttemptId) &&
          roomId.isValid && decide (sourceUid = fields.expectedHostUid)
    | .joinHostCompleted attemptId roomId => fields.canComplete attemptId roomId
    | .joinHostFailed attemptId reason => fields.canFail attemptId reason
    | _ => true
  apply fields
    | .joinHostRequested objId entryId hostUid =>
        { fields with
          joinPhase := .joining
          joinAttemptId := objId
          expectedHostUid := hostUid
          joinEntryId := entryId
          acceptedRoomId := ObjId.empty
          boundRoomId := ObjId.empty
          lastError := [] }
    | .joinHostAccepted _ _ roomId =>
        { fields with joinPhase := .accepted, acceptedRoomId := roomId, lastError := [] }
    | .joinHostCompleted _ roomId =>
        { fields with
          joinPhase := .joined
          boundRoomId := roomId
          acceptedRoomId := roomId
          lastError := [] }
    | .joinHostFailed attemptId reason =>
        { fields with
          joinPhase := .failed
          joinAttemptId := if attemptId.isValid then attemptId else fields.joinAttemptId
          lastError := reason }
    | .copyHostUidRequested objId uid =>
        { fields with copyRequestId := objId, copyUid := uid, copyPending := true }
    | .copyHostUidCompleted requestId =>
        if requestId = fields.copyRequestId then
          { fields with copyPending := false }
        else
          fields

/-- `ChatDemoRuntimeState::kClassId`. -/
def chatDemoRuntimeClassId : ClassId := 0xbb49a34e

/-- A `ChatDemoRuntimeState` in memory. -/
abbrev ChatDemoRuntimeState :=
  Node ChatDemoRuntimeFields ChatDemoRuntimeFields ChatDemoRuntimeEvent

section CanApply

variable {fields : ChatDemoRuntimeFields}

/-- A join that is under way fails for its own attempt only. -/
theorem canFail_of_underway {reason : Bytes} (hreason : reason ≠ [])
    (hphase : fields.joinPhase = .joining ∨ fields.joinPhase = .accepted)
    (hattempt : fields.joinAttemptId.isValid = true) :
    fields.canFail fields.joinAttemptId reason = true := by
  cases reason with
  | nil => exact absurd rfl hreason
  | cons first rest => simp [ChatDemoRuntimeFields.canFail, hphase, hattempt]

/-- A join that was completed does not fail any more. -/
theorem phase_of_canFail {attemptId : ObjId} {reason : Bytes}
    (h : fields.canFail attemptId reason = true) : fields.joinPhase ≠ .joined := by
  intro hphase
  unfold ChatDemoRuntimeFields.canFail at h
  split at h
  · cases h
  · simp [hphase] at h

/-- A failure names the attempt that is under way. -/
theorem attempt_of_canFail {attemptId : ObjId} {reason : Bytes}
    (h : fields.canFail attemptId reason = true)
    (hphase : fields.joinPhase = .joining ∨ fields.joinPhase = .accepted)
    (hattempt : fields.joinAttemptId.isValid = true) : attemptId = fields.joinAttemptId := by
  unfold ChatDemoRuntimeFields.canFail at h
  split at h
  · cases h
  · split at h
    · cases h
    · split at h
      · cases h
      case isFalse hother => simpa [hattempt] using hother

/-- A room is completed in the phase in which its offer was accepted, or again. -/
theorem canComplete_iff {attemptId roomId : ObjId} :
    fields.canComplete attemptId roomId = true ↔
      attemptId.isValid = true ∧ roomId.isValid = true ∧
        fields.joinAttemptId = attemptId ∧ fields.acceptedRoomId = roomId ∧
        (fields.joinPhase = .joined ∨ fields.joinPhase = .accepted) := by
  unfold ChatDemoRuntimeFields.canComplete
  constructor
  · intro h
    split at h
    · cases h
    case isFalse hvalid =>
      simp only [Bool.or_eq_true, Bool.not_eq_true', not_or, Bool.not_eq_false] at hvalid
      split at h
      case isTrue hagain => exact ⟨hvalid.1, hvalid.2, hagain.2.2, hagain.2.1, .inl hagain.1⟩
      case isFalse =>
        split at h
        · cases h
        case isFalse hphase =>
          split at h
          · cases h
          case isFalse hattempt =>
            split at h
            · cases h
            case isFalse hroom =>
              simp only [Bool.or_eq_true, decide_eq_true_eq, not_or, not_not] at hroom
              exact ⟨hvalid.1, hvalid.2, (not_not.mp hattempt).symm, hroom.2.symm,
                .inr (not_not.mp hphase)⟩
  · rintro ⟨hattempt, hroom, rfl, rfl, hphase | hphase⟩
    · simp [hattempt, hroom, hphase]
    · simp [hattempt, hroom, hphase]

end CanApply

end AppTraverse
