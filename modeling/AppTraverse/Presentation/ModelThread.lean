import Mathlib.Data.List.Basic
import AppTraverse.Foundations.TransitionSystem

/-!
# The model thread and the threads that post to it

`Post`, `RequestStop` and each pop of `DrainWork` are critical sections of one mutex, and
`ThreadMain` moves between them.  A step of the system is one of these sections, or the
end of something that the model thread does outside of them: a work item, an update with
its publications, a test of `stop_`.  A work item may post and request a stop while it
runs; its body is not modelled further, so it may do either any number of times.
-/

namespace AppTraverse

open Foundations

section Threads

variable {ω : Type}

/-- Work that was given to `Post`; every call has a ticket of its own. -/
structure PostedWork (ω : Type) where
  ticket : Nat
  work : ω
  deriving DecidableEq, Repr

/-- Where the model thread is in `ThreadMain`.  `last` marks the drain after the loop. -/
inductive ThreadPhase (ω : Type) where
  | testingStop
  | draining (last : Bool)
  | running (item : PostedWork ω) (last : Bool)
  | updating
  | waiting
  | exited
  deriving DecidableEq, Repr

/-- The members of `ModelRuntime` that threads share, the place of the model thread, and
what happened so far: the calls of `Post` with their outcome, and the work that ran. -/
structure ModelThread (ω : Type) where
  acceptWork : Bool
  stop : Bool
  work : List (PostedWork ω)
  phase : ThreadPhase ω
  posted : Nat
  accepted : List (PostedWork ω)
  rejected : List (PostedWork ω)
  executed : List (PostedWork ω)
  deriving DecidableEq, Repr

/-- Who calls: another thread, or the work item that the model thread runs. -/
inductive PostingThread where
  | other
  | model
  deriving DecidableEq, Repr

/-- The steps of the system. -/
inductive ThreadAction (ω : Type) where
  | post (caller : PostingThread) (work : ω)
  | requestStop (caller : PostingThread)
  | modelThread (timeout : Bool)
  deriving DecidableEq, Repr

/-- The work item that the model thread runs. -/
def ThreadPhase.current : ThreadPhase ω → List (PostedWork ω)
  | .running item _ => [item]
  | _ => []

/-- The model thread has left the loop. -/
def ThreadPhase.leftLoop : ThreadPhase ω → Bool
  | .draining last => last
  | .running _ last => last
  | .exited => true
  | _ => false

namespace ModelThread

/-- `Post` after `queued` calls before `Start`, and `Start`. -/
def started (queued : List ω) : ModelThread ω where
  acceptWork := true
  stop := false
  work := queued.mapIdx PostedWork.mk
  phase := .testingStop
  posted := queued.length
  accepted := queued.mapIdx PostedWork.mk
  rejected := []
  executed := []

/-- The caller is there: the model thread calls from within a work item. -/
def calls (state : ModelThread ω) : PostingThread → Bool
  | .other => true
  | .model => !state.phase.current.isEmpty

/-- The critical section of `ModelRuntime::Post`. -/
def post (state : ModelThread ω) (work : ω) : ModelThread ω :=
  let item : PostedWork ω := ⟨state.posted, work⟩
  if state.acceptWork then
    { state with
      work := state.work ++ [item]
      posted := state.posted + 1
      accepted := state.accepted ++ [item] }
  else
    { state with
      posted := state.posted + 1
      rejected := state.rejected ++ [item] }

/-- The critical section of `ModelRuntime::RequestStop`. -/
def requestStop (state : ModelThread ω) : ModelThread ω :=
  { state with acceptWork := false, stop := true }

/-- The next step of `ThreadMain`.  The wait ends when its predicate holds or `next_update`
has come. -/
def threadMain (state : ModelThread ω) (timeout : Bool) : Option (ModelThread ω) :=
  match state.phase with
  | .testingStop => some { state with phase := .draining state.stop }
  | .draining last =>
      match state.work with
      | item :: rest => some { state with work := rest, phase := .running item last }
      | [] => some { state with phase := if last then .exited else .updating }
  | .running item last =>
      some { state with
        phase := .draining last
        executed := state.executed ++ [item] }
  | .updating => some { state with phase := .waiting }
  | .waiting =>
      if timeout || state.stop || !state.work.isEmpty then
        some { state with phase := .testingStop }
      else
        none
  | .exited => none

/-- One step of the system. -/
def step (state : ModelThread ω) : ThreadAction ω → Option (ModelThread ω)
  | .post caller work => if state.calls caller then some (state.post work) else none
  | .requestStop caller => if state.calls caller then some state.requestStop else none
  | .modelThread timeout => state.threadMain timeout

end ModelThread

/-- What holds between the steps. -/
structure ModelThread.Orderly (state : ModelThread ω) : Prop where
  inOrder : state.accepted = state.executed ++ state.phase.current ++ state.work
  window : state.acceptWork = !state.stop
  leftLoop : state.phase.leftLoop = true → state.stop = true
  drained : state.phase = .exited → state.work = []
  tickets : (state.accepted ++ state.rejected).Pairwise fun a b => a.ticket ≠ b.ticket
  used : ∀ item ∈ state.accepted ++ state.rejected, item.ticket < state.posted

variable {state next : ModelThread ω}

theorem orderly_started (queued : List ω) : (ModelThread.started queued).Orderly where
  inOrder := rfl
  window := rfl
  leftLoop h := by cases h
  drained h := by cases h
  tickets := by
    rw [show (ModelThread.started queued).rejected = [] from rfl, List.append_nil]
    apply List.pairwise_iff_getElem.mpr
    intro i j hi hj hij hsame
    simp [ModelThread.started] at hsame
    omega
  used := by
    intro item hitem
    rw [show (ModelThread.started queued).rejected = [] from rfl, List.append_nil] at hitem
    obtain ⟨index, hindex, hsame⟩ := List.mem_mapIdx.mp hitem
    rw [← hsame]
    exact hindex

/-- A new ticket at the end of the accepted or of the rejected calls. -/
theorem ModelThread.Orderly.newTicket (h : state.Orderly) (work : ω) :
    ∀ item ∈ state.accepted ++ state.rejected,
      item.ticket ≠ (⟨state.posted, work⟩ : PostedWork ω).ticket := by
  intro item hitem
  have hused := h.used item hitem
  show item.ticket ≠ state.posted
  omega

theorem ModelThread.Orderly.post (h : state.Orderly) (work : ω) :
    (state.post work).Orderly := by
  have hnew := h.newTicket work
  unfold ModelThread.post
  split
  case isTrue hopen =>
    have hperm : (state.accepted ++ [(⟨state.posted, work⟩ : PostedWork ω)] ++
        state.rejected).Perm
        ((⟨state.posted, work⟩ : PostedWork ω) :: (state.accepted ++ state.rejected)) := by
      rw [List.append_assoc, List.singleton_append]
      exact List.perm_middle
    constructor
    · show state.accepted ++ [_] = state.executed ++ state.phase.current ++ (state.work ++ [_])
      rw [h.inOrder, List.append_assoc _ state.work]
    · exact h.window
    · exact h.leftLoop
    · intro hexited
      -- After the loop the window is closed.
      have hstop : state.stop = true := h.leftLoop (by
        rw [show state.phase = .exited from hexited]
        rfl)
      rw [h.window, hstop] at hopen
      cases hopen
    · apply hperm.symm.pairwise
      · exact List.pairwise_cons.mpr ⟨fun item hitem => (hnew item hitem).symm, h.tickets⟩
      · exact fun hab => hab.symm
    · intro item hitem
      show item.ticket < state.posted + 1
      rcases List.mem_cons.mp (hperm.subset hitem) with rfl | hold
      · show state.posted < state.posted + 1
        omega
      · have hused := h.used item hold
        omega
  case isFalse hclosed =>
    constructor
    · exact h.inOrder
    · exact h.window
    · exact h.leftLoop
    · exact h.drained
    · show (state.accepted ++ (state.rejected ++ [_])).Pairwise _
      rw [← List.append_assoc, List.pairwise_append]
      refine ⟨h.tickets, List.pairwise_singleton _ _, ?_⟩
      intro item hitem other hother
      rw [List.mem_singleton.mp hother]
      exact hnew item hitem
    · intro item hitem
      show item.ticket < state.posted + 1
      rw [show (state.accepted ++ (state.rejected ++ [_])) =
        (state.accepted ++ state.rejected) ++ [_] from (List.append_assoc _ _ _).symm] at hitem
      rcases List.mem_append.mp hitem with hold | hlast
      · have hused := h.used item hold
        omega
      · rw [List.mem_singleton.mp hlast]
        show state.posted < state.posted + 1
        omega

theorem ModelThread.Orderly.requestStop (h : state.Orderly) : state.requestStop.Orderly where
  inOrder := h.inOrder
  window := rfl
  leftLoop _ := rfl
  drained := h.drained
  tickets := h.tickets
  used := h.used

theorem ModelThread.Orderly.threadMain (h : state.Orderly) {timeout : Bool}
    (hstep : state.threadMain timeout = some next) : next.Orderly := by
  have horder := h.inOrder
  have hleft := h.leftLoop
  unfold ModelThread.threadMain at hstep
  cases hphase : state.phase with
  | testingStop =>
      rw [hphase] at hstep horder
      cases hstep
      exact ⟨horder, h.window, id, (fun hexited => by cases hexited), h.tickets, h.used⟩
  | draining last =>
      rw [hphase] at hstep horder hleft
      cases hwork : state.work with
      | nil =>
          rw [hwork] at hstep horder
          cases hstep
          refine ⟨?_, h.window, ?_, fun _ => rfl, h.tickets, h.used⟩
          · cases last <;> simpa [ThreadPhase.current] using horder
          · cases last with
            | true => exact fun _ => hleft rfl
            | false => exact fun hleftLoop => by cases hleftLoop
      | cons item rest =>
          rw [hwork] at hstep horder
          cases hstep
          refine ⟨?_, h.window, hleft, (fun hexited => by cases hexited), h.tickets, h.used⟩
          simpa [ThreadPhase.current] using horder
  | running item last =>
      rw [hphase] at hstep horder hleft
      cases hstep
      refine ⟨?_, h.window, hleft, (fun hexited => by cases hexited), h.tickets, h.used⟩
      simpa [ThreadPhase.current] using horder
  | updating =>
      rw [hphase] at hstep horder
      cases hstep
      exact ⟨horder, h.window, (fun hleftLoop => by cases hleftLoop),
        (fun hexited => by cases hexited), h.tickets, h.used⟩
  | waiting =>
      rw [hphase] at hstep horder
      simp only at hstep
      split at hstep
      case isTrue =>
        cases hstep
        exact ⟨horder, h.window, (fun hleftLoop => by cases hleftLoop),
          (fun hexited => by cases hexited), h.tickets, h.used⟩
      case isFalse => cases hstep
  | exited =>
      rw [hphase] at hstep
      cases hstep

theorem ModelThread.Orderly.step (h : state.Orderly) {action : ThreadAction ω}
    (hstep : state.step action = some next) : next.Orderly := by
  cases action with
  | post caller work =>
      obtain ⟨-, hstep⟩ := Option.ite_none_right_eq_some.mp hstep
      cases hstep
      exact h.post work
  | requestStop caller =>
      obtain ⟨-, hstep⟩ := Option.ite_none_right_eq_some.mp hstep
      cases hstep
      exact h.requestStop
  | modelThread timeout => exact h.threadMain hstep

theorem ModelThread.Orderly.run (h : state.Orderly) {actions : List (ThreadAction ω)}
    (hrun : runActions ModelThread.step state actions = some next) : next.Orderly :=
  runActions_preserves _ (fun _ _ _ hstate hstep => hstate.step hstep) h hrun

/-- Work that was rejected is not among the work that ran. -/
theorem ModelThread.Orderly.rejected_notExecuted (h : state.Orderly) :
    ∀ item ∈ state.rejected, item ∉ state.executed := by
  intro item hrejected hexecuted
  have haccepted : item ∈ state.accepted := by
    rw [h.inOrder, List.append_assoc]
    exact List.mem_append_left _ hexecuted
  exact (List.pairwise_append.mp h.tickets).2.2 item haccepted item hrejected rfl

/-- A closed window stays closed, and nothing is accepted any more. -/
theorem accepted_ofClosedWindow (hclosed : state.acceptWork = false)
    {actions : List (ThreadAction ω)} {final : ModelThread ω}
    (hrun : runActions ModelThread.step state actions = some final) :
    final.accepted = state.accepted := by
  suffices hkept : final.acceptWork = false ∧ final.accepted = state.accepted from hkept.2
  apply runActions_preserves (fun reached : ModelThread ω =>
    reached.acceptWork = false ∧ reached.accepted = state.accepted) ?_ ⟨hclosed, rfl⟩ hrun
  rintro reached action next ⟨hwindow, hsame⟩ hstep
  cases action with
  | post caller work =>
      obtain ⟨-, hstep⟩ := Option.ite_none_right_eq_some.mp hstep
      cases hstep
      simp [ModelThread.post, hwindow, hsame]
  | requestStop caller =>
      obtain ⟨-, hstep⟩ := Option.ite_none_right_eq_some.mp hstep
      cases hstep
      exact ⟨rfl, hsame⟩
  | modelThread timeout =>
      have hkeeps : next.acceptWork = reached.acceptWork ∧ next.accepted = reached.accepted := by
        simp only [ModelThread.step, ModelThread.threadMain] at hstep
        split at hstep
        case h_2 => split at hstep <;> cases hstep <;> exact ⟨rfl, rfl⟩
        case h_5 => split at hstep <;> cases hstep; exact ⟨rfl, rfl⟩
        all_goals cases hstep <;> exact ⟨rfl, rfl⟩
      exact ⟨hkeeps.1.trans hwindow, hkeeps.2.trans hsame⟩

/-- The steps that are left to the model thread once a stop was requested. -/
def ModelThread.stepsLeft (state : ModelThread ω) : Nat :=
  match state.phase with
  | .testingStop => 2 * state.work.length + 2
  | .draining last => 2 * state.work.length + (if last then 1 else 5)
  | .running _ last => 2 * state.work.length + (if last then 2 else 6)
  | .updating => 2 * state.work.length + 4
  | .waiting => 2 * state.work.length + 3
  | .exited => 0

/-- After a stop request the model thread never blocks and comes closer to its exit. -/
theorem threadMain_afterStop (hstop : state.stop = true) (hphase : state.phase ≠ .exited) :
    ∃ next, state.threadMain false = some next ∧ next.stop = true ∧
      next.stepsLeft + 1 = state.stepsLeft := by
  unfold ModelThread.threadMain ModelThread.stepsLeft
  cases hcurrent : state.phase with
  | testingStop => exact ⟨_, rfl, hstop, by simp [hstop]⟩
  | draining last =>
      cases hwork : state.work with
      | nil =>
          refine ⟨_, rfl, hstop, ?_⟩
          cases last <;> simp
      | cons item rest =>
          refine ⟨_, rfl, hstop, ?_⟩
          cases last <;> simp <;> omega
  | running item last =>
      refine ⟨_, rfl, hstop, ?_⟩
      cases last <;> simp
  | updating => exact ⟨_, rfl, hstop, rfl⟩
  | waiting =>
      simp only [hstop, Bool.or_true, Bool.true_or, if_true]
      exact ⟨_, rfl, rfl, rfl⟩
  | exited => exact absurd hcurrent hphase

/-- After a stop request the model thread exits by itself. -/
theorem exits_afterStop (hstop : state.stop = true) :
    ∃ final, runActions ModelThread.step state
        (List.replicate state.stepsLeft (.modelThread false)) = some final ∧
      final.phase = .exited := by
  generalize hcount : state.stepsLeft = count
  induction count generalizing state with
  | zero =>
      refine ⟨state, rfl, ?_⟩
      by_contra hphase
      obtain ⟨next, -, -, hless⟩ := threadMain_afterStop hstop hphase
      omega
  | succ count ih =>
      have hphase : state.phase ≠ .exited := by
        intro hexited
        simp [ModelThread.stepsLeft, hexited] at hcount
      obtain ⟨next, hstep, hnext, hless⟩ := threadMain_afterStop hstop hphase
      obtain ⟨final, hrest, hfinal⟩ := ih hnext (by omega)
      exact ⟨final, runActions_cons.mpr ⟨next, hstep, hrest⟩, hfinal⟩

/-- In every interleaving of posting, stopping and the model thread: the work that was
accepted has run, runs or waits, in the order of acceptance and each item once; work that
was rejected never runs; when the thread has exited all accepted work has run, and none is
accepted any more; and after a stop request the thread gets there by itself. -/
theorem acceptedWork_runsOnce {queued : List ω} {actions : List (ThreadAction ω)}
    (hrun : runActions ModelThread.step (.started queued) actions = some state) :
    (state.accepted = state.executed ++ state.phase.current ++ state.work ∧
      (state.accepted ++ state.rejected).Pairwise (fun a b => a.ticket ≠ b.ticket)) ∧
    (∀ caller work next, state.step (.post caller work) = some next →
      if state.acceptWork then next.accepted = state.accepted ++ [⟨state.posted, work⟩]
      else next.rejected = state.rejected ++ [⟨state.posted, work⟩]) ∧
    (∀ item ∈ state.rejected, item ∉ state.executed) ∧
    (state.acceptWork = false → ∀ later final,
      runActions ModelThread.step state later = some final →
        final.accepted = state.accepted) ∧
    (state.phase = .exited → state.executed = state.accepted ∧ state.acceptWork = false) ∧
    (state.stop = true → ∃ count final, runActions ModelThread.step state
        (List.replicate count (.modelThread false)) = some final ∧
      final.phase = .exited ∧ final.executed = state.accepted) := by
  have horderly := (orderly_started queued).run hrun
  have hexited : ∀ reached : ModelThread ω, reached.Orderly → reached.phase = .exited →
      reached.executed = reached.accepted ∧ reached.acceptWork = false := by
    intro reached hreached hphase
    have hstop : reached.stop = true := hreached.leftLoop (by rw [hphase]; rfl)
    refine ⟨?_, by rw [hreached.window, hstop]; rfl⟩
    rw [hreached.inOrder, hreached.drained hphase, hphase]
    simp [ThreadPhase.current]
  refine ⟨⟨horderly.inOrder, horderly.tickets⟩, ?_, horderly.rejected_notExecuted, ?_,
    hexited state horderly, ?_⟩
  · intro caller work next hpost
    obtain ⟨-, hpost⟩ := Option.ite_none_right_eq_some.mp hpost
    cases hpost
    cases hopen : state.acceptWork <;> simp [ModelThread.post, hopen]
  · intro hclosed later final hlater
    exact accepted_ofClosedWindow hclosed hlater
  · intro hstop
    obtain ⟨final, hfinal, hphase⟩ := exits_afterStop hstop
    have hclosed : state.acceptWork = false := by rw [horderly.window, hstop]; rfl
    refine ⟨_, final, hfinal, hphase, ?_⟩
    rw [(hexited final (horderly.run hfinal) hphase).1]
    exact accepted_ofClosedWindow hclosed hfinal

/-- Two items, the first of which posts a third while it runs and stops the runtime; a
fourth comes too late. -/
def stoppedByItsWork : List (ThreadAction Nat) :=
  [.post .other 10, .post .other 20, .modelThread false, .modelThread false, .post .model 30,
    .requestStop .model, .post .other 40]

theorem stoppedByItsWork_runsOnce : ∃ state,
    runActions ModelThread.step (.started []) stoppedByItsWork = some state ∧
      state.stop = true ∧
      ∃ count final, runActions ModelThread.step state
          (List.replicate count (.modelThread false)) = some final ∧
        final.phase = .exited ∧
        final.executed = [⟨0, 10⟩, ⟨1, 20⟩, ⟨2, 30⟩] := by
  have hsome : (runActions ModelThread.step (.started []) stoppedByItsWork).any
      (fun state => decide (state.stop = true ∧
        state.accepted = [⟨0, 10⟩, ⟨1, 20⟩, ⟨2, 30⟩])) = true := by
    decide
  obtain ⟨state, hrun, hstate⟩ := (Option.any_eq_true _ _).mp hsome
  obtain ⟨hstop, haccepted⟩ := of_decide_eq_true hstate
  obtain ⟨count, final, hfinal, hphase, hexecuted⟩ :=
    (acceptedWork_runsOnce hrun).2.2.2.2.2 hstop
  exact ⟨state, hrun, hstop, count, final, hfinal, hphase, hexecuted.trans haccepted⟩

end Threads

end AppTraverse
