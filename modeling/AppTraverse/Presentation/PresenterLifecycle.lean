import Mathlib.Data.List.Sort
import Mathlib.Logic.Function.Basic
import AppTraverse.Journal.Identity

/-!
# The life of presenters

A Presenter shows an object of the GUI graph.  `OnLoad` makes its native resources and
`OnUnload` gives them up.  A Presenter may wait for another one: a child window needs its
parent's.  So `InitializeNewPresenters` goes over the graph until nothing new was loaded,
and Presenters are unloaded in the descending order of their loads.

The hooks are the application's.  Readiness depends on which Presenters are loaded, and
whether `OnLoad` made the native resources depends on the calls made so far.  The GUI
graph enters as the list of its live Presenters; the hooks leave it alone.
-/

namespace AppTraverse

/-- A call of a hook.  `created` is `PresentationCreateSucceeded` after `OnLoad`. -/
inductive HookCall (π : Type) where
  | onLoad (presenter : π) (created : Bool)
  | onUnload (presenter : π)
  | onModelChanged (presenter : π)
  deriving DecidableEq, Repr

/-- `ReadyForPresentation` and `PresentationCreateSucceeded` of all Presenters. -/
structure PresenterHooks (π : Type) where
  ready : (π → Bool) → π → Bool
  created : List (HookCall π) → π → Bool

/-- `presentation_loaded` and `presentation_load_order` of all Presenters, what
`NextPresentationLoadOrder` returns next, and the calls made so far. -/
structure Presentation (π : Type) where
  loaded : π → Bool := fun _ => false
  loadOrder : π → Nat := fun _ => 0
  nextLoadOrder : Nat := 1
  calls : List (HookCall π) := []

section Operations

variable {π : Type} [DecidableEq π] (hooks : PresenterHooks π)

/-- A call of a hook that changes nothing here. -/
def Presentation.call (state : Presentation π) (hookCall : HookCall π) : Presentation π :=
  { state with calls := state.calls ++ [hookCall] }

/-- A Presenter whose native resources are made. -/
def Presentation.markLoaded (state : Presentation π) (presenter : π) : Presentation π :=
  { state with
    loaded := Function.update state.loaded presenter true
    loadOrder := Function.update state.loadOrder presenter state.nextLoadOrder
    nextLoadOrder := state.nextLoadOrder + 1 }

/-- The body of the inner loop of `InitializeNewPresenters`.  The second part is
`progress`. -/
def tryLoadPresenter (state : Presentation π × Bool) (presenter : π) : Presentation π × Bool :=
  if state.1.loaded presenter || !hooks.ready state.1.loaded presenter then state
  else
    let created := hooks.created state.1.calls presenter
    let called := state.1.call (.onLoad presenter created)
    if !created then (called, state.2) else (called.markLoaded presenter, true)

/-- One pass over the live Presenters. -/
def initializePass (live : List π) (state : Presentation π) : Presentation π × Bool :=
  live.foldl (tryLoadPresenter hooks) (state, false)

/-- Passes until one makes no progress; `none` when there are too few. -/
def initializePasses (live : List π) : Nat → Presentation π → Option (Presentation π)
  | 0, _ => none
  | passes + 1, state =>
      let pass := initializePass hooks live state
      if pass.2 then initializePasses live passes pass.1 else some pass.1

/-- `InitializeNewPresenters`: every live Presenter has to be loaded in the end. -/
def initializeNewPresenters (live : List π) (state : Presentation π) :
    Option (Except Fault (Presentation π)) :=
  (initializePasses hooks live (live.length + 1) state).map fun after =>
    if live.all after.loaded then .ok after else .error .assertFailed

/-- `OnModelChanged` of the live Presenters that are loaded. -/
def notifyModelChanged (live : List π) (state : Presentation π) : Presentation π :=
  live.foldl
    (fun state presenter =>
      if state.loaded presenter then state.call (.onModelChanged presenter) else state)
    state

/-- `InitializePresenters`. -/
def initializePresenters (live : List π) (state : Presentation π) :
    Option (Except Fault (Presentation π)) :=
  (initializeNewPresenters hooks live state).map fun result =>
    result.map (notifyModelChanged live)

/-- `UnloadPresenter`. -/
def unloadPresenter (state : Presentation π) (presenter : π) : Presentation π :=
  { state.call (.onUnload presenter) with
    loaded := Function.update state.loaded presenter false
    loadOrder := Function.update state.loadOrder presenter 0 }

/-- The body of the loop of `UnloadPresentersDescending`. -/
def unloadIfLoaded (state : Presentation π) (presenter : π) : Presentation π :=
  if state.loaded presenter then unloadPresenter state presenter else state

/-- `std::sort` by descending `presentation_load_order`. -/
def descending (state : Presentation π) (presenters : List π) : List π :=
  presenters.insertionSort fun a b => state.loadOrder b ≤ state.loadOrder a

/-- `UnloadPresentersDescending`. -/
def unloadPresentersDescending (state : Presentation π) (presenters : List π) :
    Presentation π :=
  (descending state presenters).foldl unloadIfLoaded state

/-- `UnloadPresenters`. -/
def unloadPresenters (live : List π) (state : Presentation π) : Presentation π :=
  unloadPresentersDescending state (live.filter state.loaded)

/-- `UpdatePresentersAfterStructuralPublication`.  What was active and is not live any more
is unloaded first. -/
def updatePresentersAfterStructuralPublication (live previouslyActive : List π)
    (state : Presentation π) : Option (Except Fault (Presentation π)) :=
  let removed := previouslyActive.filter fun presenter =>
    state.loaded presenter && !decide (presenter ∈ live)
  initializePresenters hooks live (unloadPresentersDescending state removed)

/-- What the application does with its Presenters. -/
inductive PresenterAction (π : Type) where
  | initializeLive (live : List π)
  | update (live previouslyActive : List π)
  | unload (live : List π)
  deriving DecidableEq, Repr

/-- One action; there is no next state when an assertion fails. -/
def presenterStep (state : Presentation π) : PresenterAction π → Option (Presentation π)
  | .initializeLive live => (initializePresenters hooks live state).bind Except.toOption
  | .update live previouslyActive =>
      (updatePresentersAfterStructuralPublication hooks live previouslyActive state).bind
        Except.toOption
  | .unload live => some (unloadPresenters live state)

end Operations

end AppTraverse
