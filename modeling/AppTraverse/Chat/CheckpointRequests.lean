import AppTraverse.Foundations.TransitionSystem
import Mathlib.Data.List.Nodup
import Mathlib.Data.List.Count

/-!
# Checkpoint requests of a chat session

`ChatSession::Checkpoint` asks in one critical section of `queue_mu_` whether commands are
accepted, and enqueues its work in another.  A step of the system is one such section of any
thread, or what the worker does between two of them.  Of a work item only matters whether it
is the one of a `Checkpoint`; whatever a work item does, it returns.

The calls have tickets, so that two with the same request id are told apart.  `enqueued`,
`accepted`, `rejected`, `dropped`, `executed` and `reports` are not part of the program: they
record what happened.
-/

namespace AppTraverse

open Foundations

/-- A call of `Checkpoint`. -/
structure CheckpointCall where
  ticket : Nat
  requestId : UInt64
  deriving DecidableEq, Repr

/-- A `ModelWork` of the session. -/
inductive SessionWork where
  | checkpoint (call : CheckpointCall)
  | other
  deriving DecidableEq, Repr

/-- The `Checkpoint` calls whose work is in a list. -/
def checkpointCalls (work : List SessionWork) : List CheckpointCall :=
  work.filterMap fun item => match item with
    | .checkpoint call => some call
    | .other => none

/-- Which drain of `ThreadMain` runs the work: its loop, the one of
`ShutdownEndpointAndDrain`, or the one after internal delivery is closed. -/
inductive DrainStage where
  | loop
  | shutdown
  | closed
  deriving DecidableEq, Repr

/-- Where the worker is in `ThreadMain`. -/
inductive WorkerPhase where
  | waiting
  | executing (local_work : List SessionWork) (stage : DrainStage)
  | betweenPasses
  | stoppingEndpoint
  | draining (stage : DrainStage)
  | closingInternal
  | persisting
  | finished
  deriving DecidableEq, Repr

/-- The members of `ChatSession` that the queue is guarded by, the calls of `Checkpoint` that
are between their two sections, and what happened. -/
structure CheckpointSession where
  stopRequested : Bool := false
  acceptingUserCommands : Bool := true
  acceptingInternalDelivery : Bool := true
  workQueue : List SessionWork := []
  phase : WorkerPhase := .waiting
  completedCheckpointId : UInt64 := 0
  checking : List CheckpointCall := []
  nextTicket : Nat := 0
  enqueued : List SessionWork := []
  accepted : List CheckpointCall := []
  rejected : List CheckpointCall := []
  dropped : List CheckpointCall := []
  executed : List SessionWork := []
  reports : List (CheckpointCall × Bool) := []
  deriving DecidableEq, Repr

/-- The steps of the system.  `saved` says whether the `Save` of a checkpoint succeeds. -/
inductive CheckpointAction where
  | checkpoint (requestId : UInt64)
  | enqueueCheckpoint (call : CheckpointCall)
  | enqueueUserModelWork
  | enqueueInternalModelWork
  | requestStop
  | worker (timeout saved : Bool)
  deriving DecidableEq, Repr

namespace CheckpointSession

variable (session : CheckpointSession)

/-- The first section of `Checkpoint`. -/
def checkpoint (requestId : UInt64) : CheckpointSession :=
  let call : CheckpointCall := ⟨session.nextTicket, requestId⟩
  if requestId = 0 ∨ session.acceptingUserCommands = false then
    { session with
      nextTicket := session.nextTicket + 1
      rejected := session.rejected ++ [call] }
  else
    { session with
      nextTicket := session.nextTicket + 1
      checking := session.checking ++ [call] }

/-- The section of `EnqueueUserModelWork`. -/
def enqueueUserModelWork (work : SessionWork) : CheckpointSession :=
  if session.acceptingUserCommands then
    { session with
      workQueue := session.workQueue ++ [work]
      enqueued := session.enqueued ++ [work] }
  else
    session

/-- The second section of `Checkpoint`, after which it returns true. -/
def enqueueCheckpoint (call : CheckpointCall) : Option CheckpointSession :=
  if call ∈ session.checking then
    some { session.enqueueUserModelWork (.checkpoint call) with
      checking := session.checking.erase call
      accepted := session.accepted ++ [call]
      dropped :=
        if session.acceptingUserCommands then session.dropped else session.dropped ++ [call] }
  else
    none

/-- The section of `EnqueueInternalModelWork`. -/
def enqueueInternalModelWork : CheckpointSession :=
  if session.acceptingInternalDelivery then
    { session with
      workQueue := session.workQueue ++ [.other]
      enqueued := session.enqueued ++ [.other] }
  else
    session

/-- The section of `RequestStop`, of a session that was started. -/
def requestStop : CheckpointSession :=
  if session.stopRequested then session
  else { session with stopRequested := true, acceptingUserCommands := false }

/-- The worker swaps the queue. -/
def swapQueue (stage : DrainStage) : CheckpointSession :=
  { session with workQueue := [], phase := .executing session.workQueue stage }

/-- `work()`, and `on_checkpoint_` where the work is the one of a `Checkpoint`. -/
def execute (work : SessionWork) (saved : Bool) : CheckpointSession :=
  match work with
  | .other => { session with executed := session.executed ++ [work] }
  | .checkpoint call =>
      { session with
        completedCheckpointId :=
          if saved then call.requestId else session.completedCheckpointId
        executed := session.executed ++ [work]
        reports := session.reports ++ [(call, saved)] }

/-- The next step of the worker. -/
def worker (timeout saved : Bool) : Option CheckpointSession :=
  match session.phase with
  | .waiting =>
      if !(timeout || session.stopRequested || !session.workQueue.isEmpty) then
        none
      else if session.stopRequested && session.workQueue.isEmpty then
        some { session with phase := .stoppingEndpoint }
      else
        some (session.swapQueue .loop)
  | .executing (work :: rest) stage =>
      some { session.execute work saved with phase := .executing rest stage }
  | .executing [] .loop => some { session with phase := .betweenPasses }
  | .executing [] stage => some { session with phase := .draining stage }
  | .betweenPasses => some { session with phase := .waiting }
  | .stoppingEndpoint => some { session with phase := .draining .shutdown }
  | .draining stage =>
      if !session.workQueue.isEmpty then
        some (session.swapQueue stage)
      else if stage = .closed then
        some { session with phase := .persisting }
      else
        some { session with phase := .closingInternal }
  | .closingInternal =>
      some { session with acceptingInternalDelivery := false, phase := .draining .closed }
  | .persisting => some { session with phase := .finished }
  | .finished => none

/-- One step of the system. -/
def step : CheckpointAction → Option CheckpointSession
  | .checkpoint requestId => some (session.checkpoint requestId)
  | .enqueueCheckpoint call => session.enqueueCheckpoint call
  | .enqueueUserModelWork => some (session.enqueueUserModelWork .other)
  | .enqueueInternalModelWork => some session.enqueueInternalModelWork
  | .requestStop => some session.requestStop
  | .worker timeout saved => session.worker timeout saved

end CheckpointSession

/-- After `Start`. -/
def startedSession : CheckpointSession := {}

/-- The work that the worker holds. -/
def WorkerPhase.localWork : WorkerPhase → List SessionWork
  | .executing local_work _ => local_work
  | _ => []

/-- The worker has left the loop of `ThreadMain`. -/
def WorkerPhase.leftLoop : WorkerPhase → Bool
  | .waiting => false
  | .executing _ stage => decide (stage ≠ .loop)
  | .betweenPasses => false
  | _ => true

/-- Internal delivery is closed. -/
def WorkerPhase.closed : WorkerPhase → Bool
  | .executing _ stage => decide (stage = .closed)
  | .draining stage => decide (stage = .closed)
  | .persisting => true
  | .finished => true
  | _ => false

/-- The last drain is over. -/
def WorkerPhase.drained : WorkerPhase → Bool
  | .persisting => true
  | .finished => true
  | _ => false

/-- What holds between the steps. -/
structure CheckpointSession.IsSound (session : CheckpointSession) : Prop where
  order : session.executed ++ session.phase.localWork ++ session.workQueue = session.enqueued
  calls : (checkpointCalls session.enqueued ++ session.dropped ++ session.checking ++
    session.rejected).Nodup
  tickets : ∀ call ∈ checkpointCalls session.enqueued ++ session.dropped ++ session.checking ++
    session.rejected, call.ticket < session.nextTicket
  accepted : ∀ call, call ∈ session.accepted ↔
    call ∈ checkpointCalls session.enqueued ∨ call ∈ session.dropped
  stop : session.stopRequested = !session.acceptingUserCommands
  leftLoop : session.phase.leftLoop = true → session.stopRequested = true
  closed : session.phase.closed = true → session.acceptingInternalDelivery = false
  drained : session.phase.drained = true → session.workQueue = []
  reports : session.reports.map Prod.fst = checkpointCalls session.executed

section CheckpointLists

theorem checkpointCalls_append (before after : List SessionWork) :
    checkpointCalls (before ++ after) = checkpointCalls before ++ checkpointCalls after :=
  List.filterMap_append

theorem mem_checkpointCalls {work : List SessionWork} {call : CheckpointCall} :
    call ∈ checkpointCalls work ↔ SessionWork.checkpoint call ∈ work := by
  unfold checkpointCalls
  rw [List.mem_filterMap]
  constructor
  · rintro ⟨item, hmem, hitem⟩
    cases item with
    | other => cases hitem
    | checkpoint held =>
        cases hitem
        exact hmem
  · intro hmem
    exact ⟨_, hmem, rfl⟩

/-- The work of a call stands in a list as often as the call among the calls. -/
theorem count_checkpoint (work : List SessionWork) (call : CheckpointCall) :
    work.count (.checkpoint call) = (checkpointCalls work).count call := by
  induction work with
  | nil => rfl
  | cons item rest ih =>
      cases item with
      | other =>
          rw [List.count_cons_of_ne (by simp), ih]
          rfl
      | checkpoint held =>
          show _ = (held :: checkpointCalls rest).count call
          by_cases hsame : held = call
          · rw [hsame, List.count_cons_self, List.count_cons_self, ih]
          · rw [List.count_cons_of_ne (by simpa using hsame), List.count_cons_of_ne hsame, ih]

end CheckpointLists

namespace CheckpointSession.IsSound

variable {session next : CheckpointSession}

theorem checkpoint (h : session.IsSound) (requestId : UInt64) :
    (session.checkpoint requestId).IsSound := by
  have hnew : ∀ call ∈ checkpointCalls session.enqueued ++ session.dropped ++
      session.checking ++ session.rejected,
      call ≠ CheckpointCall.mk session.nextTicket requestId := by
    rintro call hcall rfl
    exact absurd (h.tickets _ hcall) (Nat.lt_irrefl _)
  have hlater : ∀ call ∈ checkpointCalls session.enqueued ++ session.dropped ++
      session.checking ++ session.rejected, call.ticket < session.nextTicket + 1 :=
    fun call hcall => Nat.lt_succ_of_lt (h.tickets call hcall)
  unfold CheckpointSession.checkpoint
  dsimp only
  split
  case isTrue =>
    refine ⟨h.order, ?_, ?_, h.accepted, h.stop, h.leftLoop, h.closed, h.drained, h.reports⟩
    · show (_ ++ (session.rejected ++ [_])).Nodup
      rw [← List.append_assoc, ← List.concat_eq_append]
      exact List.Nodup.concat (fun hmem => hnew _ hmem rfl) h.calls
    · intro call hcall
      have hcall : call ∈ (checkpointCalls session.enqueued ++ session.dropped ++
          session.checking) ++ (session.rejected ++ [⟨session.nextTicket, requestId⟩]) := hcall
      rw [← List.append_assoc, List.mem_append, List.mem_singleton] at hcall
      rcases hcall with hold | rfl
      · exact hlater call hold
      · exact Nat.lt_succ_self _
  case isFalse =>
    have hperm : (checkpointCalls session.enqueued ++ session.dropped ++
        (session.checking ++ [CheckpointCall.mk session.nextTicket requestId]) ++
        session.rejected).Perm
          (CheckpointCall.mk session.nextTicket requestId ::
            (checkpointCalls session.enqueued ++ session.dropped ++ session.checking ++
              session.rejected)) := by
      rw [← List.append_assoc, List.append_assoc _ [_]]
      exact List.perm_middle
    refine ⟨h.order, ?_, ?_, h.accepted, h.stop, h.leftLoop, h.closed, h.drained, h.reports⟩
    · apply hperm.nodup_iff.mpr
      exact List.nodup_cons.mpr ⟨fun hmem => hnew _ hmem rfl, h.calls⟩
    · intro call hcall
      rcases List.mem_cons.mp (hperm.mem_iff.mp hcall) with rfl | hold
      · exact Nat.lt_succ_self _
      · exact hlater call hold

/-- Work that is not a checkpoint is enqueued. -/
theorem enqueueOther (h : session.IsSound)
    (hdrained : session.phase.drained = true → False) :
    IsSound { session with
      workQueue := session.workQueue ++ [.other]
      enqueued := session.enqueued ++ [.other] } where
  order := by
    show session.executed ++ session.phase.localWork ++ (session.workQueue ++ [.other]) = _
    rw [← List.append_assoc, h.order]
  calls := by
    show (checkpointCalls (session.enqueued ++ [.other]) ++ _ ++ _ ++ _).Nodup
    rw [checkpointCalls_append, show checkpointCalls [SessionWork.other] = [] from rfl,
      List.append_nil]
    exact h.calls
  tickets := by
    show ∀ call ∈ checkpointCalls (session.enqueued ++ [.other]) ++ _ ++ _ ++ _, _
    rw [checkpointCalls_append, show checkpointCalls [SessionWork.other] = [] from rfl,
      List.append_nil]
    exact h.tickets
  accepted := by
    show ∀ call, _ ↔ call ∈ checkpointCalls (session.enqueued ++ [.other]) ∨ _
    rw [checkpointCalls_append, show checkpointCalls [SessionWork.other] = [] from rfl,
      List.append_nil]
    exact h.accepted
  stop := h.stop
  leftLoop := h.leftLoop
  closed := h.closed
  drained hphase := (hdrained hphase).elim
  reports := h.reports

/-- After the last drain nothing is accepted. -/
theorem notDrained_of_internal (h : session.IsSound)
    (haccepting : session.acceptingInternalDelivery = true)
    (hdrained : session.phase.drained = true) : False := by
  have hclosed : session.phase.closed = true := by
    cases hphase : session.phase <;> rw [hphase] at hdrained <;> first | rfl | cases hdrained
  have := h.closed hclosed
  rw [haccepting] at this
  cases this

theorem notDrained_of_user (h : session.IsSound)
    (haccepting : session.acceptingUserCommands = true)
    (hdrained : session.phase.drained = true) : False := by
  have hleft : session.phase.leftLoop = true := by
    cases hphase : session.phase <;> rw [hphase] at hdrained <;> first | rfl | cases hdrained
  have hstop := h.leftLoop hleft
  rw [h.stop, haccepting] at hstop
  cases hstop

theorem enqueueUserModelWork (h : session.IsSound) :
    (session.enqueueUserModelWork .other).IsSound := by
  unfold CheckpointSession.enqueueUserModelWork
  split
  case isTrue haccepting => exact h.enqueueOther (h.notDrained_of_user haccepting)
  case isFalse => exact h

theorem enqueueInternalModelWork (h : session.IsSound) :
    session.enqueueInternalModelWork.IsSound := by
  unfold CheckpointSession.enqueueInternalModelWork
  split
  case isTrue haccepting => exact h.enqueueOther (h.notDrained_of_internal haccepting)
  case isFalse => exact h

theorem requestStop (h : session.IsSound) : session.requestStop.IsSound := by
  unfold CheckpointSession.requestStop
  split
  case isTrue => exact h
  case isFalse =>
    exact ⟨h.order, h.calls, h.tickets, h.accepted, rfl, fun _ => rfl, h.closed, h.drained,
      h.reports⟩

/-- A call leaves its place between the two sections for one of the other lists. -/
theorem perm_of_checking {calls dropped checking rejected calls' dropped' : List CheckpointCall}
    {call : CheckpointCall} (hmem : call ∈ checking)
    (hmoved : (calls' ++ dropped').Perm (call :: (calls ++ dropped))) :
    (calls' ++ dropped' ++ checking.erase call ++ rejected).Perm
      (calls ++ dropped ++ checking ++ rejected) := by
  apply List.Perm.append_right
  calc (calls' ++ dropped' ++ checking.erase call).Perm
        (call :: (calls ++ dropped) ++ checking.erase call) := hmoved.append_right _
    List.Perm _ (calls ++ dropped ++ call :: checking.erase call) := List.perm_middle.symm
    List.Perm _ (calls ++ dropped ++ checking) :=
      (List.perm_cons_erase hmem).symm.append_left _

/-- The second section of `Checkpoint` enqueues the work or drops it. -/
theorem enqueueCheckpoint (h : session.IsSound) {call : CheckpointCall}
    (hstep : session.enqueueCheckpoint call = some next) : next.IsSound := by
  unfold CheckpointSession.enqueueCheckpoint at hstep
  split at hstep
  case isFalse => cases hstep
  case isTrue hmem =>
  cases hstep
  unfold CheckpointSession.enqueueUserModelWork
  cases haccepting : session.acceptingUserCommands with
  | true =>
      have hcalls : checkpointCalls (session.enqueued ++ [.checkpoint call]) =
          checkpointCalls session.enqueued ++ [call] := by
        rw [checkpointCalls_append]
        rfl
      have hperm := @perm_of_checking (checkpointCalls session.enqueued) session.dropped _
        session.rejected (checkpointCalls (session.enqueued ++ [.checkpoint call]))
        session.dropped call hmem (by
          rw [hcalls, List.append_assoc]
          exact List.perm_middle)
      have hstop : session.stopRequested = !true := by
        rw [← haccepting]
        exact h.stop
      refine ⟨?_, hperm.nodup_iff.mpr h.calls, ?_, ?_, hstop, h.leftLoop, h.closed, ?_,
        h.reports⟩
      · show session.executed ++ session.phase.localWork ++
          (session.workQueue ++ [.checkpoint call]) = session.enqueued ++ [.checkpoint call]
        rw [← List.append_assoc, h.order]
      · intro other hother
        exact h.tickets other (hperm.mem_iff.mp hother)
      · intro other
        show other ∈ session.accepted ++ [call] ↔
          other ∈ checkpointCalls (session.enqueued ++ [.checkpoint call]) ∨ _
        rw [hcalls, List.mem_append, List.mem_append, h.accepted]
        exact or_right_comm
      · intro hdrained
        exact (h.notDrained_of_user haccepting hdrained).elim
  | false =>
      have hperm := @perm_of_checking (checkpointCalls session.enqueued) session.dropped _
        session.rejected (checkpointCalls session.enqueued) (session.dropped ++ [call]) call
        hmem (by
          rw [← List.append_assoc]
          exact List.perm_append_singleton _ _)
      refine ⟨h.order, hperm.nodup_iff.mpr h.calls, ?_, ?_, ?_, h.leftLoop, h.closed,
        h.drained, h.reports⟩
      · intro other hother
        exact h.tickets other (hperm.mem_iff.mp hother)
      · intro other
        show other ∈ session.accepted ++ [call] ↔
          _ ∨ other ∈ session.dropped ++ [call]
        rw [List.mem_append, List.mem_append, h.accepted]
        exact or_assoc
      · exact h.stop

/-- The worker takes the queue, or leaves it alone and goes on. -/
theorem moved (h : session.IsSound) {phase : WorkerPhase} {workQueue : List SessionWork}
    {accepting : Bool} (hwork : session.phase.localWork ++ session.workQueue =
      phase.localWork ++ workQueue)
    (hleft : phase.leftLoop = true → session.stopRequested = true)
    (hclosed : phase.closed = true → accepting = false)
    (hdrained : phase.drained = true → workQueue = []) :
    IsSound { session with
      workQueue := workQueue
      phase := phase
      acceptingInternalDelivery := accepting } where
  order := by
    show session.executed ++ phase.localWork ++ workQueue = session.enqueued
    rw [List.append_assoc, ← hwork, ← List.append_assoc, h.order]
  calls := h.calls
  tickets := h.tickets
  accepted := h.accepted
  stop := h.stop
  leftLoop := hleft
  closed := hclosed
  drained := hdrained
  reports := h.reports

/-- A work item is run. -/
theorem execute (h : session.IsSound) {work : SessionWork} {rest : List SessionWork}
    {stage : DrainStage} (hphase : session.phase = .executing (work :: rest) stage)
    (saved : Bool) :
    IsSound { session.execute work saved with phase := .executing rest stage } := by
  have horder := h.order
  have hleft := h.leftLoop
  have hclosed := h.closed
  rw [hphase] at horder hleft hclosed
  have hdone : session.executed ++ [work] ++ rest ++ session.workQueue = session.enqueued := by
    rw [← horder]
    simp [WorkerPhase.localWork]
  cases work with
  | other =>
      refine ⟨hdone, h.calls, h.tickets, h.accepted, h.stop, hleft, hclosed, ?_, ?_⟩
      · intro hdrained
        cases hdrained
      · show session.reports.map Prod.fst = checkpointCalls (session.executed ++ [.other])
        rw [h.reports, checkpointCalls_append]
        exact (List.append_nil _).symm
  | checkpoint call =>
      refine ⟨hdone, h.calls, h.tickets, h.accepted, h.stop, hleft, hclosed, ?_, ?_⟩
      · intro hdrained
        cases hdrained
      · show (session.reports ++ [(call, saved)]).map Prod.fst =
          checkpointCalls (session.executed ++ [.checkpoint call])
        rw [List.map_append, h.reports, checkpointCalls_append]
        rfl

theorem worker (h : session.IsSound) {timeout saved : Bool}
    (hstep : session.worker timeout saved = some next) : next.IsSound := by
  unfold CheckpointSession.worker at hstep
  split at hstep
  case h_1 hphase =>
    split at hstep
    case isTrue => cases hstep
    case isFalse =>
    split at hstep
    case isTrue hstop =>
      cases hstep
      have hstop : session.stopRequested = true := by
        simp only [Bool.and_eq_true] at hstop
        exact hstop.1
      exact h.moved (by rw [hphase]; rfl) (fun _ => hstop) (fun hclosed => by cases hclosed)
        (fun hdrained => by cases hdrained)
    case isFalse =>
      cases hstep
      exact h.moved (by rw [hphase]; exact (List.append_nil _).symm)
        (fun hleft => by cases hleft) (fun hclosed => by cases hclosed)
        (fun hdrained => by cases hdrained)
  case h_2 work rest stage hphase =>
    cases hstep
    exact h.execute hphase saved
  case h_3 hphase =>
    cases hstep
    exact h.moved (by rw [hphase]; rfl) (fun hleft => by cases hleft)
      (fun hclosed => by cases hclosed) (fun hdrained => by cases hdrained)
  case h_4 stage hstage hphase =>
    cases hstep
    have hleft : session.stopRequested = true := by
      apply h.leftLoop
      rw [hphase]
      exact decide_eq_true hstage
    have hclosed := h.closed
    rw [hphase] at hclosed
    exact h.moved (by rw [hphase]; rfl) (fun _ => hleft) hclosed
      (fun hdrained => by cases hdrained)
  case h_5 hphase =>
    cases hstep
    exact h.moved (by rw [hphase]; rfl) (fun hleft => by cases hleft)
      (fun hclosed => by cases hclosed) (fun hdrained => by cases hdrained)
  case h_6 hphase =>
    cases hstep
    have hleft := h.leftLoop (by rw [hphase]; rfl)
    exact h.moved (by rw [hphase]; rfl) (fun _ => hleft) (fun hclosed => by cases hclosed)
      (fun hdrained => by cases hdrained)
  case h_7 stage hphase =>
    have hleft := h.leftLoop (by rw [hphase]; rfl)
    have hclosed := h.closed
    rw [hphase] at hclosed
    split at hstep
    case isTrue =>
      cases hstep
      exact h.moved (by rw [hphase]; exact (List.append_nil _).symm) (fun _ => hleft) hclosed
        (fun hdrained => by cases hdrained)
    case isFalse hempty =>
    have hempty : session.workQueue = [] := by simpa using hempty
    split at hstep
    case isTrue hstage =>
      cases hstep
      exact h.moved (by rw [hphase]; rfl) (fun _ => hleft)
        (fun _ => hclosed (decide_eq_true hstage)) (fun _ => hempty)
    case isFalse =>
      cases hstep
      exact h.moved (by rw [hphase]; rfl) (fun _ => hleft) (fun hclosed => by cases hclosed)
        (fun hdrained => by cases hdrained)
  case h_8 hphase =>
    cases hstep
    have hleft := h.leftLoop (by rw [hphase]; rfl)
    exact h.moved (by rw [hphase]; rfl) (fun _ => hleft) (fun _ => rfl)
      (fun hdrained => by cases hdrained)
  case h_9 hphase =>
    cases hstep
    have hleft := h.leftLoop (by rw [hphase]; rfl)
    have hclosed := h.closed (by rw [hphase]; rfl)
    have hdrained := h.drained (by rw [hphase]; rfl)
    exact h.moved (by rw [hphase]; rfl) (fun _ => hleft) (fun _ => hclosed) (fun _ => hdrained)
  case h_10 => cases hstep

end CheckpointSession.IsSound

namespace CheckpointSession

variable {session next final : CheckpointSession} {actions : List CheckpointAction}

theorem IsSound.step (h : session.IsSound) {action : CheckpointAction}
    (hstep : session.step action = some next) : next.IsSound := by
  cases action with
  | checkpoint requestId =>
      cases hstep
      exact h.checkpoint requestId
  | enqueueCheckpoint call => exact h.enqueueCheckpoint hstep
  | enqueueUserModelWork =>
      cases hstep
      exact h.enqueueUserModelWork
  | enqueueInternalModelWork =>
      cases hstep
      exact h.enqueueInternalModelWork
  | requestStop =>
      cases hstep
      exact h.requestStop
  | worker timeout saved => exact h.worker hstep

theorem isSound_started : startedSession.IsSound where
  order := rfl
  calls := List.nodup_nil
  tickets call hcall := by cases hcall
  accepted call := by simp [startedSession, checkpointCalls]
  stop := rfl
  leftLoop hleft := by cases hleft
  closed hclosed := by cases hclosed
  drained _ := rfl
  reports := rfl

/-- Every run of a session that was started is sound. -/
theorem isSound_run (hrun : runActions CheckpointSession.step startedSession actions =
    some final) : final.IsSound :=
  runActions_preserves IsSound (fun _ _ _ hsound hstep => hsound.step hstep) isSound_started hrun

/-- The condition on a step: a `RequestStop` that stops the session does not come between the
two sections of a call of `Checkpoint`. -/
def StopsOutside (session : CheckpointSession) (action : CheckpointAction) : Prop :=
  action = .requestStop → session.stopRequested = true ∨ session.checking = []

instance (session : CheckpointSession) (action : CheckpointAction) :
    Decidable (session.StopsOutside action) :=
  inferInstanceAs (Decidable (_ → _ ∨ _))

/-- A call was dropped, or will be. -/
def Loses (session : CheckpointSession) : Prop :=
  session.dropped ≠ [] ∨ (session.acceptingUserCommands = false ∧ session.checking ≠ [])

/-- The worker takes no part in the two sections of a call. -/
theorem worker_keeps {timeout saved : Bool} (hstep : session.worker timeout saved = some next) :
    next.acceptingUserCommands = session.acceptingUserCommands ∧
      next.checking = session.checking ∧ next.dropped = session.dropped := by
  unfold CheckpointSession.worker at hstep
  split at hstep
  case h_1 =>
    split at hstep
    case isTrue => cases hstep
    case isFalse => split at hstep <;> cases hstep <;> exact ⟨rfl, rfl, rfl⟩
  case h_2 work rest stage hphase => cases work <;> cases hstep <;> exact ⟨rfl, rfl, rfl⟩
  case h_7 =>
    split at hstep
    case isTrue => cases hstep; exact ⟨rfl, rfl, rfl⟩
    case isFalse => split at hstep <;> cases hstep <;> exact ⟨rfl, rfl, rfl⟩
  case h_10 => cases hstep
  all_goals
    cases hstep
    exact ⟨rfl, rfl, rfl⟩

/-- A step other than the first `RequestStop` that leaves the sections of the calls alone. -/
theorem loses_of_kept {action : CheckpointAction} (hother : action ≠ .requestStop)
    (haccepting : next.acceptingUserCommands = session.acceptingUserCommands)
    (hchecking : next.checking = session.checking) (hdropped : next.dropped = session.dropped) :
    next.Loses ↔ session.Loses ∨ ¬session.StopsOutside action := by
  have houtside : session.StopsOutside action := fun hstop => absurd hstop hother
  unfold Loses
  rw [haccepting, hchecking, hdropped]
  exact ⟨Or.inl, fun h => h.resolve_right (not_not.mpr houtside)⟩

/-- A step loses a call only where it stops the session between the two sections. -/
theorem loses_of_step {action : CheckpointAction} (hsound : session.IsSound)
    (hstep : session.step action = some next) :
    next.Loses ↔ session.Loses ∨ ¬session.StopsOutside action := by
  cases action with
  | checkpoint requestId =>
      cases hstep
      unfold CheckpointSession.checkpoint
      dsimp only
      split
      case isTrue => exact loses_of_kept (by simp) rfl rfl rfl
      case isFalse haccepting =>
        have haccepting : session.acceptingUserCommands = true := by
          simpa using (not_or.mp haccepting).2
        have houtside : session.StopsOutside (.checkpoint requestId) := fun h => by cases h
        simp [Loses, haccepting, houtside]
  | enqueueCheckpoint call =>
      have houtside : session.StopsOutside (.enqueueCheckpoint call) := fun h => by cases h
      change session.enqueueCheckpoint call = some next at hstep
      unfold CheckpointSession.enqueueCheckpoint at hstep
      split at hstep
      case isFalse => cases hstep
      case isTrue hmem =>
        cases hstep
        have hchecking : session.checking ≠ [] := List.ne_nil_of_mem hmem
        unfold CheckpointSession.enqueueUserModelWork
        cases haccepting : session.acceptingUserCommands with
        | true => simp [Loses, haccepting, houtside]
        | false => simp [Loses, haccepting, houtside, hchecking]
  | enqueueUserModelWork =>
      cases hstep
      unfold CheckpointSession.enqueueUserModelWork
      split <;> exact loses_of_kept (by simp) rfl rfl rfl
  | enqueueInternalModelWork =>
      cases hstep
      unfold CheckpointSession.enqueueInternalModelWork
      split <;> exact loses_of_kept (by simp) rfl rfl rfl
  | requestStop =>
      cases hstep
      unfold CheckpointSession.requestStop
      split
      case isTrue hstopped =>
        have houtside : session.StopsOutside .requestStop := fun _ => Or.inl hstopped
        exact ⟨Or.inl, fun h => h.resolve_right (not_not.mpr houtside)⟩
      case isFalse hrunning =>
        have haccepting : session.acceptingUserCommands = true := by
          simpa [hsound.stop] using hrunning
        simp [Loses, StopsOutside, haccepting, hrunning]
  | worker timeout saved =>
      obtain ⟨haccepting, hchecking, hdropped⟩ := worker_keeps hstep
      exact loses_of_kept (by simp) haccepting hchecking hdropped

/-- A run loses a call if and only if a step of it stops the session between two sections. -/
theorem loses_of_run (hsound : session.IsSound)
    (hrun : runActions CheckpointSession.step session actions = some final) :
    ¬final.Loses ↔ ¬session.Loses ∧
      EveryStep CheckpointSession.step CheckpointSession.StopsOutside session actions := by
  induction actions generalizing session with
  | nil =>
      cases hrun
      exact (and_iff_left trivial).symm
  | cons action rest ih =>
      obtain ⟨next, hnext, hrest⟩ := runActions_cons.mp hrun
      rw [ih (hsound.step hnext) hrest, loses_of_step hsound hnext, not_or, not_not,
        everyStep_cons, and_assoc]
      constructor
      · rintro ⟨hkept, houtside, hlater⟩
        refine ⟨hkept, houtside, ?_⟩
        intro other hother
        cases hother.symm.trans hnext
        exact hlater
      · rintro ⟨hkept, houtside, hlater⟩
        exact ⟨hkept, houtside, hlater next hnext⟩

/-- The id of the last checkpoint that was saved. -/
def lastSaved (reports : List (CheckpointCall × Bool)) : UInt64 :=
  ((reports.filter fun report => report.2).getLast?.map fun report => report.1.requestId).getD 0

theorem lastSaved_append (reports : List (CheckpointCall × Bool)) (call : CheckpointCall)
    (saved : Bool) :
    lastSaved (reports ++ [(call, saved)]) =
      if saved then call.requestId else lastSaved reports := by
  unfold lastSaved
  rw [List.filter_append]
  cases saved <;> simp

/-- The status of the session, as far as checkpoints go, is the last report of one. -/
def Reported (session : CheckpointSession) : Prop :=
  session.completedCheckpointId = lastSaved session.reports

/-- `completed_checkpoint_id` is the id of the last checkpoint that was saved. -/
theorem reported_step {action : CheckpointAction} (h : session.Reported)
    (hstep : session.step action = some next) : next.Reported := by
  cases action with
  | checkpoint requestId =>
      cases hstep
      unfold CheckpointSession.checkpoint
      dsimp only
      split <;> exact h
  | enqueueCheckpoint call =>
      change session.enqueueCheckpoint call = some next at hstep
      unfold CheckpointSession.enqueueCheckpoint CheckpointSession.enqueueUserModelWork at hstep
      split at hstep
      case isFalse => cases hstep
      case isTrue => cases hstep; split <;> exact h
  | enqueueUserModelWork =>
      cases hstep
      unfold CheckpointSession.enqueueUserModelWork
      split <;> exact h
  | enqueueInternalModelWork =>
      cases hstep
      unfold CheckpointSession.enqueueInternalModelWork
      split <;> exact h
  | requestStop =>
      cases hstep
      unfold CheckpointSession.requestStop
      split <;> exact h
  | worker timeout saved =>
      change session.worker timeout saved = some next at hstep
      unfold CheckpointSession.worker at hstep
      split at hstep
      case h_1 =>
        split at hstep
        case isTrue => cases hstep
        case isFalse => split at hstep <;> cases hstep <;> exact h
      case h_2 work rest stage hphase =>
        cases work with
        | other => cases hstep; exact h
        | checkpoint call =>
            cases hstep
            show (if saved then call.requestId else session.completedCheckpointId) =
              lastSaved (session.reports ++ [(call, saved)])
            rw [lastSaved_append, show session.completedCheckpointId = _ from h]
      case h_7 =>
        split at hstep
        case isTrue => cases hstep; exact h
        case isFalse => split at hstep <;> cases hstep <;> exact h
      case h_10 => cases hstep
      all_goals
        cases hstep
        exact h

/-- The work of a call that returned true and was not dropped is there once. -/
theorem IsSound.count_of_accepted (h : session.IsSound) {call : CheckpointCall}
    (haccepted : call ∈ session.accepted) (hkept : call ∉ session.dropped) :
    (session.executed ++ session.phase.localWork ++ session.workQueue).count
      (.checkpoint call) = 1 := by
  rw [h.order, count_checkpoint]
  have hmem := ((h.accepted call).mp haccepted).resolve_right hkept
  have hnodup := (List.nodup_append.mp (List.nodup_append.mp
    (List.nodup_append.mp h.calls).1).1).1
  exact List.count_eq_one_of_mem hnodup hmem

/-- The work of a call that returned false, or was dropped, is not there. -/
theorem IsSound.count_of_absent (h : session.IsSound) {call : CheckpointCall}
    (habsent : call ∈ session.rejected ∨ call ∈ session.dropped) :
    (session.executed ++ session.phase.localWork ++ session.workQueue).count
      (.checkpoint call) = 0 := by
  rw [h.order, count_checkpoint, List.count_eq_zero]
  intro hmem
  obtain ⟨hfront, -, hrejected⟩ := List.nodup_append.mp h.calls
  obtain ⟨hfront, -, -⟩ := List.nodup_append.mp hfront
  obtain ⟨-, -, hdropped⟩ := List.nodup_append.mp hfront
  rcases habsent with hcall | hcall
  · exact hrejected call (List.mem_append_left _ (List.mem_append_left _ hmem)) call hcall rfl
  · exact hdropped call hmem call hcall rfl

/-- After the last drain all the work that was enqueued is executed. -/
theorem IsSound.executed_of_drained (h : session.IsSound)
    (hdrained : session.phase.drained = true) :
    session.executed ++ session.phase.localWork ++ session.workQueue = session.executed := by
  have hqueue := h.drained hdrained
  cases hphase : session.phase with
  | persisting => simp [hqueue, WorkerPhase.localWork]
  | finished => simp [hqueue, WorkerPhase.localWork]
  | _ =>
      rw [hphase] at hdrained
      cases hdrained

end CheckpointSession

/-- A call that returns false never runs.  In a run whose stops do not come between the two
sections of a call, the work of each call that returned true is in the queue or with the worker
until it has run, once, and its outcome is reported; and a run to the end executes the work of
all these calls only if its stops are of this kind. -/
theorem checkpoint_isExecuted {final : CheckpointSession} {actions : List CheckpointAction}
    (hrun : runActions CheckpointSession.step startedSession actions = some final) :
    (∀ call ∈ final.rejected, (final.executed ++ final.phase.localWork ++
      final.workQueue).count (.checkpoint call) = 0) ∧
    (EveryStep CheckpointSession.step CheckpointSession.StopsOutside startedSession actions →
      ∀ call ∈ final.accepted,
        (final.executed ++ final.phase.localWork ++ final.workQueue).count
          (.checkpoint call) = 1 ∧
        (final.phase.drained = true → final.executed.count (.checkpoint call) = 1 ∧
          ∃ saved, (call, saved) ∈ final.reports)) ∧
    (final.phase = .finished → final.checking = [] →
      (∀ call ∈ final.accepted, final.executed.count (.checkpoint call) = 1) →
      EveryStep CheckpointSession.step CheckpointSession.StopsOutside startedSession actions) ∧
    final.completedCheckpointId = CheckpointSession.lastSaved final.reports := by
  have hsound := CheckpointSession.isSound_run hrun
  have hloses := CheckpointSession.loses_of_run CheckpointSession.isSound_started hrun
  have hstart : ¬startedSession.Loses := by simp [CheckpointSession.Loses, startedSession]
  refine ⟨fun call hcall => hsound.count_of_absent (Or.inl hcall), ?_, ?_, ?_⟩
  · intro houtside call hcall
    have hkept : call ∉ final.dropped := by
      intro hdropped
      exact hloses.mpr ⟨hstart, houtside⟩ (Or.inl (List.ne_nil_of_mem hdropped))
    have hcount := hsound.count_of_accepted hcall hkept
    refine ⟨hcount, ?_⟩
    intro hdrained
    rw [hsound.executed_of_drained hdrained] at hcount
    refine ⟨hcount, ?_⟩
    have hmem : SessionWork.checkpoint call ∈ final.executed :=
      List.count_pos_iff.mp (by omega)
    rw [← mem_checkpointCalls, ← hsound.reports, List.mem_map] at hmem
    obtain ⟨⟨held, saved⟩, hreport, rfl⟩ := hmem
    exact ⟨saved, hreport⟩
  · intro hfinished hchecking hexecuted
    apply (hloses.mp ?_).2
    rintro (hdropped | ⟨-, hpending⟩)
    · obtain ⟨call, hcall⟩ := List.exists_mem_of_ne_nil _ hdropped
      have hzero := hsound.count_of_absent (Or.inr hcall)
      rw [hsound.executed_of_drained (by rw [hfinished]; rfl)] at hzero
      have hone := hexecuted call ((hsound.accepted call).mpr (Or.inr hcall))
      omega
    · exact hpending hchecking
  · have hreported : final.Reported := runActions_preserves CheckpointSession.Reported
      (fun _ _ _ hreported hstep => CheckpointSession.reported_step hreported hstep)
      (show startedSession.Reported from rfl) hrun
    exact hreported

/-- A checkpoint is requested and a stop follows it. -/
def stoppedAfter : List CheckpointAction :=
  [.checkpoint 7, .enqueueCheckpoint ⟨0, 7⟩, .requestStop, .worker false true, .worker false true,
    .worker false true, .worker false true, .worker false true, .worker false true,
    .worker false true, .worker false true, .worker false true, .worker false true]

theorem stoppedAfter_isExecuted : ∃ final,
    runActions CheckpointSession.step startedSession stoppedAfter = some final ∧
      final.phase = .finished ∧ final.accepted = [⟨0, 7⟩] ∧ final.completedCheckpointId = 7 ∧
      final.executed.count (.checkpoint ⟨0, 7⟩) = 1 := by
  have hseen : (runActions CheckpointSession.step startedSession stoppedAfter).map
      (fun final => (final.phase, final.accepted, final.completedCheckpointId)) =
        some (.finished, [⟨0, 7⟩], 7) := by
    decide +kernel
  obtain ⟨final, hrun, hfinal⟩ := Option.map_eq_some_iff.mp hseen
  obtain ⟨hphase, haccepted, hcompleted⟩ : final.phase = .finished ∧
      final.accepted = [⟨0, 7⟩] ∧ final.completedCheckpointId = 7 := by
    simpa only [Prod.mk.injEq] using hfinal
  obtain ⟨-, hexecuted, -⟩ := checkpoint_isExecuted hrun
  obtain ⟨-, hdrained⟩ := hexecuted (by decide +kernel) ⟨0, 7⟩ (by rw [haccepted]; simp)
  exact ⟨final, hrun, hphase, haccepted, hcompleted, (hdrained (by rw [hphase]; rfl)).1⟩

/-- The same requests, and the stop comes between the two sections of the call. -/
def stoppedBetween : List CheckpointAction :=
  [.checkpoint 7, .requestStop, .enqueueCheckpoint ⟨0, 7⟩, .worker false true, .worker false true,
    .worker false true, .worker false true, .worker false true, .worker false true]

/-- The call returns true, and the session finishes without running its work. -/
theorem stoppedBetween_isLost : ∃ final,
    runActions CheckpointSession.step startedSession stoppedBetween = some final ∧
      final.phase = .finished ∧ final.accepted = [⟨0, 7⟩] ∧ final.completedCheckpointId = 0 ∧
      final.executed.count (.checkpoint ⟨0, 7⟩) = 0 ∧ final.reports = [] :=
  ⟨_, rfl, rfl, rfl, rfl, rfl, rfl⟩

end AppTraverse
