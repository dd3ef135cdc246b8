import AppTraverse.Foundations.EffectLog
import AppTraverse.Foundations.MultipassClosure
import AppTraverse.Foundations.TransitionSystem
import AppTraverse.Presentation.PresenterLifecycle

/-!
# Runs of the presenter lifecycle

Along every run each Presenter is loaded before it is told of changes and unloaded, and
never twice in a row (`followsLifecycle`); loaded Presenters have distinct load orders.

A first pass that ends loads as many Presenters as any order of trying them could
(`initialized_eq_leastClosed`), and unloading in descending order never leaves a Presenter
without what it waited for (`IsFounded`).
-/

namespace AppTraverse

open Foundations

variable {π : Type} [DecidableEq π] {hooks : PresenterHooks π} {state next : Presentation π}

section Lifecycle

/-- What a call means for one Presenter: whether it is loaded afterwards, if the call may
be made. -/
def followCall (presenter : π) (loaded : Bool) : HookCall π → Option Bool
  | .onLoad called created =>
      if called = presenter then (if loaded then none else some created) else some loaded
  | .onUnload called =>
      if called = presenter then (if loaded then some false else none) else some loaded
  | .onModelChanged called =>
      if called = presenter then (if loaded then some true else none) else some loaded

/-- The calls so far, for one Presenter that was not loaded at first. -/
def followCalls (presenter : π) (calls : List (HookCall π)) : Option Bool :=
  calls.foldlM (followCall presenter) false

theorem followCalls_append (presenter : π) (calls : List (HookCall π)) (hookCall : HookCall π) :
    followCalls presenter (calls ++ [hookCall]) =
      (followCalls presenter calls).bind fun loaded => followCall presenter loaded hookCall := by
  simp [followCalls, List.foldlM_append]

/-- What the flags, the orders and the calls have to do with each other. -/
structure Presentation.Orderly (state : Presentation π) : Prop where
  follows : ∀ presenter, followCalls presenter state.calls = some (state.loaded presenter)
  ordered : ∀ presenter, state.loaded presenter = true →
    1 ≤ state.loadOrder presenter ∧ state.loadOrder presenter < state.nextLoadOrder
  distinct : ∀ presenter other, state.loaded presenter = true → state.loaded other = true →
    state.loadOrder presenter = state.loadOrder other → presenter = other
  positive : 1 ≤ state.nextLoadOrder

theorem orderly_empty : ({} : Presentation π).Orderly where
  follows _ := rfl
  ordered _ h := by cases h
  distinct _ _ h := by cases h
  positive := Nat.le_refl 1

/-- A call that leaves its Presenter loaded or not, as it was. -/
theorem Presentation.Orderly.call (h : state.Orderly) {hookCall : HookCall π}
    (hsame : ∀ presenter, followCall presenter (state.loaded presenter) hookCall =
      some (state.loaded presenter)) : (state.call hookCall).Orderly where
  follows presenter := by
    show followCalls presenter (state.calls ++ [hookCall]) = _
    rw [followCalls_append, h.follows, Option.bind_some, hsame]
    rfl
  ordered := h.ordered
  distinct := h.distinct
  positive := h.positive

/-- A failed `OnLoad` changes nothing. -/
theorem Presentation.Orderly.failedLoad (h : state.Orderly) {presenter : π}
    (hunloaded : state.loaded presenter = false) :
    (state.call (.onLoad presenter false)).Orderly := by
  apply h.call
  intro other
  by_cases hsame : presenter = other
  · simp [followCall, ← hsame, hunloaded]
  · simp [followCall, hsame]

/-- A Presenter is loaded with an order that no other one has. -/
theorem Presentation.Orderly.load (h : state.Orderly) {presenter : π}
    (hunloaded : state.loaded presenter = false) :
    ((state.call (.onLoad presenter true)).markLoaded presenter).Orderly where
  follows other := by
    show followCalls other (state.calls ++ [.onLoad presenter true]) =
      some (Function.update state.loaded presenter true other)
    rw [followCalls_append, h.follows, Option.bind_some]
    by_cases hsame : other = presenter
    · simp [followCall, hsame, hunloaded]
    · simp [followCall, hsame, Ne.symm hsame]
  ordered other hloaded := by
    have hpositive := h.positive
    change Function.update state.loaded presenter true other = true at hloaded
    show 1 ≤ Function.update state.loadOrder presenter state.nextLoadOrder other ∧
      Function.update state.loadOrder presenter state.nextLoadOrder other <
        state.nextLoadOrder + 1
    by_cases hsame : other = presenter
    · rw [hsame, Function.update_self]
      omega
    · rw [Function.update_of_ne hsame] at hloaded ⊢
      have := h.ordered other hloaded
      omega
  distinct first second hfirst hsecond := by
    change Function.update state.loaded presenter true first = true at hfirst
    change Function.update state.loaded presenter true second = true at hsecond
    show Function.update state.loadOrder presenter state.nextLoadOrder first =
      Function.update state.loadOrder presenter state.nextLoadOrder second → first = second
    by_cases hfirstIs : first = presenter <;> by_cases hsecondIs : second = presenter
    · exact fun _ => hfirstIs.trans hsecondIs.symm
    · rw [Function.update_of_ne hsecondIs] at hsecond ⊢
      rw [hfirstIs, Function.update_self]
      have := h.ordered second hsecond
      omega
    · rw [Function.update_of_ne hfirstIs] at hfirst ⊢
      rw [hsecondIs, Function.update_self]
      have := h.ordered first hfirst
      omega
    · rw [Function.update_of_ne hfirstIs] at hfirst ⊢
      rw [Function.update_of_ne hsecondIs] at hsecond ⊢
      exact h.distinct first second hfirst hsecond
  positive := Nat.le_succ_of_le h.positive

/-- A Presenter that is loaded is unloaded. -/
theorem Presentation.Orderly.unload (h : state.Orderly) {presenter : π}
    (hloaded : state.loaded presenter = true) : (unloadPresenter state presenter).Orderly where
  follows other := by
    show followCalls other (state.calls ++ [.onUnload presenter]) =
      some (Function.update state.loaded presenter false other)
    rw [followCalls_append, h.follows, Option.bind_some]
    by_cases hsame : other = presenter
    · simp [followCall, hsame, hloaded]
    · simp [followCall, hsame, Ne.symm hsame]
  ordered other hother := by
    change Function.update state.loaded presenter false other = true at hother
    show 1 ≤ Function.update state.loadOrder presenter 0 other ∧
      Function.update state.loadOrder presenter 0 other < state.nextLoadOrder
    by_cases hsame : other = presenter
    · simp [hsame] at hother
    · rw [Function.update_of_ne hsame] at hother ⊢
      exact h.ordered other hother
  distinct first second hfirst hsecond := by
    change Function.update state.loaded presenter false first = true at hfirst
    change Function.update state.loaded presenter false second = true at hsecond
    show Function.update state.loadOrder presenter 0 first =
      Function.update state.loadOrder presenter 0 second → first = second
    by_cases hfirstIs : first = presenter
    · simp [hfirstIs] at hfirst
    by_cases hsecondIs : second = presenter
    · simp [hsecondIs] at hsecond
    rw [Function.update_of_ne hfirstIs] at hfirst ⊢
    rw [Function.update_of_ne hsecondIs] at hsecond ⊢
    exact h.distinct first second hfirst hsecond
  positive := h.positive

theorem Presentation.Orderly.changed (h : state.Orderly) {presenter : π}
    (hloaded : state.loaded presenter = true) :
    (state.call (.onModelChanged presenter)).Orderly := by
  apply h.call
  intro other
  by_cases hsame : presenter = other
  · simp [followCall, ← hsame, hloaded]
  · simp [followCall, hsame]

end Lifecycle

section Passes

/-- What one visit of a pass does. -/
theorem tryLoadPresenter_cases (hooks : PresenterHooks π) (visited : Presentation π × Bool)
    (presenter : π) :
    tryLoadPresenter hooks visited presenter = visited ∧ (visited.1.loaded presenter = true ∨
        hooks.ready visited.1.loaded presenter = false) ∨
    visited.1.loaded presenter = false ∧ hooks.ready visited.1.loaded presenter = true ∧
      (hooks.created visited.1.calls presenter = false ∧ tryLoadPresenter hooks visited presenter =
          (visited.1.call (.onLoad presenter false), visited.2) ∨
        hooks.created visited.1.calls presenter = true ∧ tryLoadPresenter hooks visited presenter =
          ((visited.1.call (.onLoad presenter true)).markLoaded presenter, true)) := by
  unfold tryLoadPresenter
  cases hloaded : visited.1.loaded presenter with
  | true => simp
  | false =>
      cases hready : hooks.ready visited.1.loaded presenter with
      | false => simp
      | true => cases hcreated : hooks.created visited.1.calls presenter <;> simp

/-- A visit keeps what a failed and a successful load keep. -/
theorem tryLoadPresenter_keeps {P : Presentation π → Prop} {visited : Presentation π × Bool}
    {presenter : π} (h : P visited.1)
    (hfailed : visited.1.loaded presenter = false →
      hooks.ready visited.1.loaded presenter = true →
      P (visited.1.call (.onLoad presenter false)))
    (hloads : visited.1.loaded presenter = false →
      hooks.ready visited.1.loaded presenter = true →
      P ((visited.1.call (.onLoad presenter true)).markLoaded presenter)) :
    P (tryLoadPresenter hooks visited presenter).1 := by
  rcases tryLoadPresenter_cases hooks visited presenter with
    ⟨heq, -⟩ | ⟨hunloaded, hready, ⟨-, heq⟩ | ⟨-, heq⟩⟩
  · rw [heq]
    exact h
  · rw [heq]
    exact hfailed hunloaded hready
  · rw [heq]
    exact hloads hunloaded hready

@[simp] theorem markLoaded_loaded (state : Presentation π) (presenter other : π) :
    (state.markLoaded presenter).loaded other = true ↔
      other = presenter ∨ state.loaded other = true := by
  show Function.update state.loaded presenter true other = true ↔ _
  by_cases hsame : other = presenter
  · simp [hsame]
  · simp [hsame]

/-- How far a pass has come over `visited` of a state. -/
structure PassFrom (start : Presentation π) (live : List π) (reached : Presentation π × Bool) :
    Prop where
  grows : ∀ presenter, start.loaded presenter = true → reached.1.loaded presenter = true
  progress : reached.2 = true →
    ∃ presenter ∈ live, start.loaded presenter = false ∧ reached.1.loaded presenter = true
  still : reached.2 = false → reached.1.loaded = start.loaded

theorem passFrom_initializePass (hooks : PresenterHooks π) (live : List π)
    (state : Presentation π) : PassFrom state live (initializePass hooks live state) := by
  refine List.foldlRecOn live (tryLoadPresenter hooks) ⟨fun _ h => h, by simp, fun _ => rfl⟩ ?_
  intro visited h presenter hmem
  rcases tryLoadPresenter_cases hooks visited presenter with
    ⟨heq, -⟩ | ⟨hunloaded, -, ⟨-, heq⟩ | ⟨-, heq⟩⟩
  · rw [heq]
    exact h
  · rw [heq]
    exact ⟨h.grows, h.progress, h.still⟩
  · rw [heq]
    refine ⟨fun other hother => ?_, fun _ => ⟨presenter, hmem, ?_, ?_⟩, by simp⟩
    · rw [markLoaded_loaded]
      exact Or.inr (h.grows other hother)
    · rw [← Bool.not_eq_true]
      intro hstart
      rw [h.grows presenter hstart] at hunloaded
      cases hunloaded
    · rw [markLoaded_loaded]
      exact Or.inl rfl

/-- The live Presenters that are not loaded yet. -/
def waiting (live : List π) (state : Presentation π) : Nat :=
  live.countP fun presenter => !state.loaded presenter

omit [DecidableEq π] in
theorem waiting_le {live : List π} {after : Presentation π}
    (hgrows : ∀ presenter, state.loaded presenter = true → after.loaded presenter = true) :
    waiting live after ≤ waiting live state := by
  refine List.countP_mono_left fun other _ hwaiting => ?_
  rw [Bool.not_eq_true', ← Bool.not_eq_true] at hwaiting ⊢
  exact fun hstart => hwaiting (hgrows other hstart)

omit [DecidableEq π] in
theorem waiting_lt {live : List π} {after : Presentation π} {presenter : π}
    (hgrows : ∀ presenter, state.loaded presenter = true → after.loaded presenter = true)
    (hmem : presenter ∈ live) (hunloaded : state.loaded presenter = false)
    (hloaded : after.loaded presenter = true) : waiting live after < waiting live state := by
  obtain ⟨before, behind, rfl⟩ := List.append_of_mem hmem
  have hbefore : waiting before after ≤ waiting before state := waiting_le hgrows
  have hbehind : waiting behind after ≤ waiting behind state := waiting_le hgrows
  unfold waiting at hbefore hbehind ⊢
  simp only [List.countP_append, List.countP_cons, hloaded, hunloaded, Bool.not_true,
    Bool.not_false, if_true, Bool.false_eq_true, if_false]
  omega

/-- A pass that makes progress leaves fewer waiting. -/
theorem waiting_initializePass {live : List π}
    (hprogress : (initializePass hooks live state).2 = true) :
    waiting live (initializePass hooks live state).1 < waiting live state := by
  have h := passFrom_initializePass hooks live state
  obtain ⟨presenter, hmem, hunloaded, hloaded⟩ := h.progress hprogress
  exact waiting_lt h.grows hmem hunloaded hloaded

/-- Enough passes end. -/
theorem initializePasses_isSome {live : List π} {passes : Nat}
    (henough : waiting live state < passes) :
    ∃ after, initializePasses hooks live passes state = some after := by
  induction passes generalizing state with
  | zero => omega
  | succ passes ih =>
      unfold initializePasses
      cases hprogress : (initializePass hooks live state).2 with
      | false => exact ⟨(initializePass hooks live state).1, by simp [hprogress]⟩
      | true =>
          have hfewer := waiting_initializePass hprogress
          obtain ⟨after, hafter⟩ := @ih (initializePass hooks live state).1 (by omega)
          exact ⟨after, by simpa [hprogress] using hafter⟩

/-- Passes keep what a visit keeps, and end with one that makes no progress. -/
theorem initializePasses_cases {live : List π} {passes : Nat} {after : Presentation π}
    {P : Presentation π → Prop} (h : P state)
    (hvisit : ∀ visited presenter, presenter ∈ live → P visited.1 →
      P (tryLoadPresenter hooks visited presenter).1)
    (hpasses : initializePasses hooks live passes state = some after) :
    ∃ last, P last ∧ (initializePass hooks live last).2 = false ∧
      after = (initializePass hooks live last).1 ∧ P after := by
  have hpass : ∀ start, P start → P (initializePass hooks live start).1 := fun start hstart =>
    List.foldlRecOn live (tryLoadPresenter hooks) (motive := fun visited => P visited.1) hstart
      fun visited hvisited presenter hmem => hvisit visited presenter hmem hvisited
  induction passes generalizing state with
  | zero => cases hpasses
  | succ passes ih =>
      unfold initializePasses at hpasses
      cases hprogress : (initializePass hooks live state).2 with
      | true =>
          simp only [hprogress, if_true] at hpasses
          exact ih (hpass state h) hpasses
      | false =>
          simp only [hprogress, Bool.false_eq_true, if_false, Option.some.injEq] at hpasses
          exact ⟨state, h, hprogress, hpasses.symm, hpasses ▸ hpass state h⟩

end Passes

section Readiness

/-- Presenters that are loaded make no Presenter less ready. -/
def MonotoneHooks (hooks : PresenterHooks π) : Prop :=
  ∀ loaded loaded' : π → Bool, (∀ other, loaded other = true → loaded' other = true) →
    ∀ presenter, hooks.ready loaded presenter = true → hooks.ready loaded' presenter = true

/-- The Presenter is ready when some of these are loaded. -/
def readyIn (hooks : PresenterHooks π) (here : Set π) (presenter : π) : Prop :=
  ∃ loaded : π → Bool, (∀ other, loaded other = true → other ∈ here) ∧
    hooks.ready loaded presenter = true

omit [DecidableEq π] in
theorem monotone_readyIn (hooks : PresenterHooks π) : MonotoneReadiness (readyIn hooks) :=
  fun _ _ hsub _ ⟨loaded, hloaded, hready⟩ =>
    ⟨loaded, fun other hother => hsub (hloaded other hother), hready⟩

/-- The Presenters that are loaded. -/
def Presentation.loadedSet (state : Presentation π) : Set π :=
  {presenter | state.loaded presenter = true}

omit [DecidableEq π] in
theorem readyIn_loadedSet (hmono : MonotoneHooks hooks) {presenter : π} :
    readyIn hooks state.loadedSet presenter ↔ hooks.ready state.loaded presenter = true := by
  constructor
  · rintro ⟨loaded, hloaded, hready⟩
    exact hmono loaded state.loaded hloaded presenter hready
  · intro hready
    exact ⟨state.loaded, fun _ h => h, hready⟩

theorem loadedSet_markLoaded (state : Presentation π) (presenter : π) :
    (state.markLoaded presenter).loadedSet = insert presenter state.loadedSet := by
  ext other
  exact markLoaded_loaded state presenter other

/-- The Presenters that can be loaded, if each waits for what it waits for. -/
def loadable (hooks : PresenterHooks π) (live : List π) (state : Presentation π) : Set π :=
  leastClosed (monotone_readyIn hooks) {presenter | presenter ∈ live} state.loadedSet

/-- A pass without progress, when `OnLoad` always makes its resources, finds nothing
ready. -/
theorem readyAreThere_of_still (hmono : MonotoneHooks hooks)
    (hcreates : ∀ calls presenter, hooks.created calls presenter = true) {live : List π}
    (hstill : (initializePass hooks live state).2 = false) :
    ReadyAreThere (readyIn hooks) {presenter | presenter ∈ live}
      (initializePass hooks live state).1.loadedSet := by
  have hsame : (initializePass hooks live state).1.loaded = state.loaded :=
    (passFrom_initializePass hooks live state).still hstill
  have hset : (initializePass hooks live state).1.loadedSet = state.loadedSet := by
    rw [Presentation.loadedSet, hsame]
    rfl
  rw [hset]
  intro presenter hmem hready
  rw [readyIn_loadedSet hmono] at hready
  by_contra hunloaded
  have hunloaded : state.loaded presenter = false := Bool.not_eq_true _ ▸ hunloaded
  -- The visit of this Presenter would have loaded it, whatever was visited before.
  have hprogress : ∀ (presenters : List π) (visited : Presentation π × Bool),
      (visited.2 = true ∨ presenter ∈ presenters ∧ visited.1.loaded = state.loaded) →
      (presenters.foldl (tryLoadPresenter hooks) visited).2 = true := by
    intro presenters
    induction presenters with
    | nil => simp
    | cons head rest ih =>
        intro visited hvisited
        rw [List.foldl_cons]
        apply ih
        rcases tryLoadPresenter_cases hooks visited head with
          ⟨heq, hskipped⟩ | ⟨-, -, ⟨hfailed, -⟩ | ⟨-, heq⟩⟩
        · rw [heq]
          rcases hvisited with hdone | ⟨hpresent, hloaded⟩
          · exact Or.inl hdone
          · rcases List.mem_cons.mp hpresent with rfl | hrest
            · rw [hloaded, hunloaded, hready] at hskipped
              simp at hskipped
            · exact Or.inr ⟨hrest, hloaded⟩
        · rw [hcreates] at hfailed
          cases hfailed
        · rw [heq]
          exact Or.inl rfl
  have hdone := hprogress live (state, false) (Or.inr ⟨hmem, rfl⟩)
  rw [initializePass, hdone] at hstill
  cases hstill

/-- The passes load exactly what can be loaded. -/
theorem initializePasses_eq_loadable (hmono : MonotoneHooks hooks)
    (hcreates : ∀ calls presenter, hooks.created calls presenter = true) {live : List π}
    {passes : Nat} {after : Presentation π}
    (hpasses : initializePasses hooks live passes state = some after) :
    after.loadedSet = loadable hooks live state := by
  let grows : Presentation π → Prop := fun reached =>
    Grown (readyIn hooks) {presenter | presenter ∈ live} state.loadedSet reached.loadedSet
  have hvisit : ∀ visited presenter, presenter ∈ live → grows visited.1 →
      grows (tryLoadPresenter hooks visited presenter).1 := by
    intro visited presenter hmem hgrown
    refine tryLoadPresenter_keeps hgrown (fun _ _ => hgrown) fun _ hready => ?_
    show Grown _ _ _ (Presentation.loadedSet _)
    rw [loadedSet_markLoaded]
    exact hgrown.add hmem ((readyIn_loadedSet hmono).mpr hready)
  obtain ⟨last, -, hstill, rfl, hgrown⟩ := initializePasses_cases (P := grows) Grown.start
    hvisit hpasses
  exact hgrown.eq_leastClosed (monotone_readyIn hooks)
    (readyAreThere_of_still hmono hcreates hstill)

end Readiness

section Foundation

/-- Every loaded Presenter is ready with those that were loaded before it. -/
def Presentation.IsFounded (hooks : PresenterHooks π) (state : Presentation π) : Prop :=
  ∀ presenter, state.loaded presenter = true →
    readyIn hooks {other | state.loaded other = true ∧
      state.loadOrder other < state.loadOrder presenter} presenter

omit [DecidableEq π] in
theorem isFounded_empty : ({} : Presentation π).IsFounded hooks := by
  intro presenter hloaded
  cases hloaded

/-- A Presenter that is ready is loaded after everything that it needs. -/
theorem Presentation.IsFounded.load (h : state.IsFounded hooks) (horderly : state.Orderly)
    {presenter : π} (hunloaded : state.loaded presenter = false)
    (hready : hooks.ready state.loaded presenter = true) :
    ((state.call (.onLoad presenter true)).markLoaded presenter).IsFounded hooks := by
  have hother : ∀ {other}, state.loaded other = true → other ≠ presenter := by
    rintro other hloaded rfl
    rw [hloaded] at hunloaded
    cases hunloaded
  intro target htarget
  show readyIn hooks {other | Function.update state.loaded presenter true other = true ∧
    Function.update state.loadOrder presenter state.nextLoadOrder other <
      Function.update state.loadOrder presenter state.nextLoadOrder target} target
  change Function.update state.loaded presenter true target = true at htarget
  by_cases hsame : target = presenter
  · subst hsame
    refine ⟨state.loaded, fun other hloaded => ⟨?_, ?_⟩, hready⟩
    · rw [Function.update_of_ne (hother hloaded)]
      exact hloaded
    · rw [Function.update_self, Function.update_of_ne (hother hloaded)]
      exact (horderly.ordered other hloaded).2
  · rw [Function.update_of_ne hsame] at htarget ⊢
    refine monotone_readyIn hooks ?_ target (h target htarget)
    rintro other ⟨hloaded, hless⟩
    refine ⟨?_, ?_⟩
    · rw [Function.update_of_ne (hother hloaded)]
      exact hloaded
    · rw [Function.update_of_ne (hother hloaded)]
      exact hless

/-- What is loaded after some were unloaded, and with which order. -/
theorem unloaded_iff {presenters : List π} {presenter : π} :
    ((presenters.foldl unloadIfLoaded state).loaded presenter = true ↔
        state.loaded presenter = true ∧ presenter ∉ presenters) ∧
      (presenter ∉ presenters →
        (presenters.foldl unloadIfLoaded state).loadOrder presenter =
          state.loadOrder presenter) := by
  induction presenters generalizing state with
  | nil => simp
  | cons head rest ih =>
      rw [List.foldl_cons, List.mem_cons, not_or]
      have hrest := @ih (unloadIfLoaded state head)
      have hhead : (unloadIfLoaded state head).loaded presenter = true ↔
          state.loaded presenter = true ∧ presenter ≠ head := by
        unfold unloadIfLoaded
        split
        case isTrue hloaded =>
          show Function.update state.loaded head false presenter = true ↔ _
          by_cases hsame : presenter = head
          · simp [hsame]
          · simp [hsame]
        case isFalse hunloaded =>
          constructor
          · intro hloaded
            exact ⟨hloaded, fun hsame => hunloaded (hsame ▸ hloaded)⟩
          · exact And.left
      have horder : presenter ≠ head →
          (unloadIfLoaded state head).loadOrder presenter = state.loadOrder presenter := by
        intro hne
        unfold unloadIfLoaded
        split
        case isTrue => exact Function.update_of_ne hne _ _
        case isFalse => rfl
      refine ⟨?_, fun ⟨hne, hnot⟩ => (hrest.2 hnot).trans (horder hne)⟩
      rw [hrest.1, hhead]
      tauto

/-- What stays is ready without what is removed. -/
def StaysReady (hooks : PresenterHooks π) (state : Presentation π) (removed : List π) : Prop :=
  ∀ presenter, state.loaded presenter = true → presenter ∉ removed →
    readyIn hooks {other | (state.loaded other = true ∧ other ∉ removed) ∧
      state.loadOrder other < state.loadOrder presenter} presenter

omit [DecidableEq π] in
theorem pairwise_descending (state : Presentation π) (presenters : List π) :
    (descending state presenters).Pairwise fun a b =>
      state.loadOrder b ≤ state.loadOrder a := by
  have : Std.Total fun a b : π => state.loadOrder b ≤ state.loadOrder a :=
    ⟨fun a b => Nat.le_total _ _⟩
  have : IsTrans π fun a b => state.loadOrder b ≤ state.loadOrder a :=
    ⟨fun a b c hab hbc => Nat.le_trans hbc hab⟩
  exact List.pairwise_insertionSort _ presenters

/-- While Presenters are unloaded, those that are still loaded stay ready with those that
were loaded before them. -/
theorem Presentation.IsFounded.unload (h : state.IsFounded hooks) {removed : List π}
    (hstays : StaysReady hooks state removed) (count : Nat) :
    (((descending state removed).take count).foldl unloadIfLoaded state).IsFounded hooks := by
  have hsplit := List.take_append_drop count (descending state removed)
  have hpairwise := pairwise_descending state removed
  rw [← hsplit, List.pairwise_append] at hpairwise
  have hmem : ∀ {presenter}, presenter ∈ (descending state removed).take count →
      presenter ∈ removed := fun hdone =>
    (List.mem_insertionSort _).mp (List.mem_of_mem_take hdone)
  intro presenter hloaded
  obtain ⟨hbefore, hnotDone⟩ := unloaded_iff.1.mp hloaded
  rw [unloaded_iff.2 hnotDone]
  -- What a Presenter needs was loaded before it, so it is unloaded after it.
  have hneeds : readyIn hooks {other | (state.loaded other = true ∧
      other ∉ (descending state removed).take count) ∧
        state.loadOrder other < state.loadOrder presenter} presenter := by
    by_cases hremoved : presenter ∈ removed
    · have hrest : presenter ∈ (descending state removed).drop count := by
        have hall : presenter ∈ descending state removed := (List.mem_insertionSort _).mpr hremoved
        rw [← hsplit, List.mem_append] at hall
        exact hall.resolve_left hnotDone
      refine monotone_readyIn hooks ?_ presenter (h presenter hbefore)
      rintro other ⟨hother, hless⟩
      refine ⟨⟨hother, fun hdone => ?_⟩, hless⟩
      have := hpairwise.2.2 other hdone presenter hrest
      omega
    · refine monotone_readyIn hooks ?_ presenter (hstays presenter hbefore hremoved)
      rintro other ⟨⟨hother, hkept⟩, hless⟩
      exact ⟨⟨hother, fun hdone => hkept (hmem hdone)⟩, hless⟩
  refine monotone_readyIn hooks ?_ presenter hneeds
  rintro other ⟨hother, hless⟩
  refine ⟨unloaded_iff.1.mpr hother, ?_⟩
  rw [unloaded_iff.2 hother.2]
  exact hless

end Foundation

section Runs

/-- What an action unloads. -/
def removes (state : Presentation π) : PresenterAction π → List π
  | .initializeLive _ => []
  | .update live previouslyActive => previouslyActive.filter fun presenter =>
      state.loaded presenter && !decide (presenter ∈ live)
  | .unload live => live.filter state.loaded

/-- What an action loads, after it unloaded what it removes. -/
def loads : PresenterAction π → Option (List π)
  | .initializeLive live => some live
  | .update live _ => some live
  | .unload _ => none

/-- An action unloads what it removes, in descending order.  Then it loads and notifies. -/
theorem presenterStep_cases {action : PresenterAction π}
    (h : presenterStep hooks state action = some next) :
    (loads action = none ∧ next = unloadPresentersDescending state (removes state action)) ∨
      ∃ live after, loads action = some live ∧
        initializePasses hooks live (live.length + 1)
          (unloadPresentersDescending state (removes state action)) = some after ∧
        live.all after.loaded = true ∧ next = notifyModelChanged live after := by
  have hloads : ∀ live start, (initializePresenters hooks live start).bind Except.toOption =
      some next → ∃ after, initializePasses hooks live (live.length + 1) start = some after ∧
        live.all after.loaded = true ∧ next = notifyModelChanged live after := by
    intro live start hstarted
    obtain ⟨result, hresult, hok⟩ := Option.bind_eq_some_iff.mp hstarted
    obtain ⟨outcome, hnew, rfl⟩ := Option.map_eq_some_iff.mp hresult
    obtain ⟨after, hpasses, rfl⟩ := Option.map_eq_some_iff.mp hnew
    rw [toOption_eq_some_iff] at hok
    by_cases hall : live.all after.loaded = true
    · rw [if_pos hall] at hok
      exact ⟨after, hpasses, hall, (Except.ok.inj hok).symm⟩
    · rw [if_neg hall] at hok
      cases hok
  cases action with
  | initializeLive live =>
      obtain ⟨after, hpasses, hall, hnext⟩ := hloads live state h
      exact Or.inr ⟨live, after, rfl, by simpa [removes, unloadPresentersDescending, descending]
        using hpasses, hall, hnext⟩
  | update live previouslyActive =>
      obtain ⟨after, hpasses, hall, hnext⟩ := hloads live _ h
      exact Or.inr ⟨live, after, rfl, hpasses, hall, hnext⟩
  | unload live => exact Or.inl ⟨rfl, (Option.some.inj h).symm⟩

omit [DecidableEq π] in
/-- Notifying changes no flag and no order. -/
theorem notifyModelChanged_keeps {P : Presentation π → Prop} {live : List π} (h : P state)
    (hchanged : ∀ reached presenter, reached.loaded presenter = true → P reached →
      P (reached.call (.onModelChanged presenter))) : P (notifyModelChanged live state) := by
  refine List.foldlRecOn live _ h ?_
  intro reached hreached presenter _
  split
  case isTrue hloaded => exact hchanged reached presenter hloaded hreached
  case isFalse => exact hreached

theorem Presentation.Orderly.unloadAll (h : state.Orderly) (presenters : List π) :
    (presenters.foldl unloadIfLoaded state).Orderly := by
  refine List.foldlRecOn presenters unloadIfLoaded h ?_
  intro reached hreached presenter _
  unfold unloadIfLoaded
  split
  case isTrue hloaded => exact hreached.unload hloaded
  case isFalse => exact hreached

theorem Presentation.Orderly.visit {visited : Presentation π × Bool} {presenter : π}
    (h : visited.1.Orderly) : (tryLoadPresenter hooks visited presenter).1.Orderly :=
  tryLoadPresenter_keeps h (fun hunloaded _ => h.failedLoad hunloaded) fun hunloaded _ =>
    h.load hunloaded

/-- Every action keeps flags, orders and calls together. -/
theorem orderly_step {action : PresenterAction π} (h : state.Orderly)
    (hstep : presenterStep hooks state action = some next) : next.Orderly := by
  have hunloaded : (unloadPresentersDescending state (removes state action)).Orderly :=
    h.unloadAll _
  rcases presenterStep_cases hstep with ⟨-, rfl⟩ | ⟨live, after, -, hpasses, -, rfl⟩
  · exact hunloaded
  · obtain ⟨_, -, -, -, hafter⟩ := initializePasses_cases hunloaded
      (fun _ _ _ hvisited => hvisited.visit) hpasses
    exact notifyModelChanged_keeps hafter fun _ _ hloaded hreached => hreached.changed hloaded

/-- Orders and readiness, for the passes. -/
theorem founded_step {action : PresenterAction π} (h : state.Orderly)
    (hfounded : state.IsFounded hooks)
    (hstays : StaysReady hooks state (removes state action))
    (hstep : presenterStep hooks state action = some next) : next.IsFounded hooks := by
  have hunloaded : (unloadPresentersDescending state (removes state action)).IsFounded hooks := by
    have hall := hfounded.unload hstays (descending state (removes state action)).length
    rwa [List.take_length] at hall
  rcases presenterStep_cases hstep with ⟨-, rfl⟩ | ⟨live, after, -, hpasses, -, rfl⟩
  · exact hunloaded
  · obtain ⟨_, -, -, -, hafter⟩ := initializePasses_cases
      (P := fun reached => reached.Orderly ∧ reached.IsFounded hooks)
      ⟨h.unloadAll _, hunloaded⟩
      (fun _ _ _ hvisited => ⟨hvisited.1.visit, tryLoadPresenter_keeps hvisited.2
        (fun _ _ => hvisited.2) fun hnot hready => hvisited.2.load hvisited.1 hnot hready⟩)
      hpasses
    exact notifyModelChanged_keeps (P := fun reached => reached.IsFounded hooks) hafter.2
      fun _ _ _ hreached => hreached

end Runs

section Windows

/-- A window, a list in it and a row in the list, each of which waits for the one before. -/
def windowHooks : PresenterHooks (Fin 3) where
  ready loaded presenter := presenter == 0 || loaded (presenter - 1)
  created _ _ := true

theorem windowHooks_monotone : MonotoneHooks windowHooks := by
  intro loaded loaded' hmore presenter hready
  simp only [windowHooks, Bool.or_eq_true, beq_iff_eq] at hready ⊢
  exact hready.imp_right (hmore _)

/-- All are shown, found in the wrong order, then the row goes, and then the rest. -/
def windowActions : List (PresenterAction (Fin 3)) :=
  [.initializeLive [2, 1, 0], .update [1, 0] [2, 1, 0], .unload [0, 1]]

omit [DecidableEq π] in
/-- What is loaded before a Presenter and stays is enough, if it makes it ready. -/
theorem staysReady_of_flags [DecidableEq π] {removed : List π}
    (h : ∀ presenter, state.loaded presenter = true → presenter ∉ removed →
      hooks.ready (fun other => state.loaded other && !decide (other ∈ removed) &&
        decide (state.loadOrder other < state.loadOrder presenter)) presenter = true) :
    StaysReady hooks state removed := by
  intro presenter hloaded hkept
  refine ⟨_, fun other hother => ?_, h presenter hloaded hkept⟩
  simpa using hother

theorem windowActions_stayReady :
    EveryStep (presenterStep windowHooks)
      (fun state action => StaysReady windowHooks state (removes state action)) {}
      windowActions := by
  have hflags : EveryStep (presenterStep windowHooks) (fun state action =>
      ∀ presenter, state.loaded presenter = true → presenter ∉ removes state action →
        windowHooks.ready (fun other => state.loaded other &&
          !decide (other ∈ removes state action) &&
          decide (state.loadOrder other < state.loadOrder presenter)) presenter = true) {}
      windowActions := by
    decide +kernel
  exact hflags.mono fun _ _ => staysReady_of_flags

/-- The hooks that are called along the run. -/
def windowCalls : List (HookCall (Fin 3)) :=
  [.onLoad 0 true, .onLoad 1 true, .onLoad 2 true, .onModelChanged 2, .onModelChanged 1,
    .onModelChanged 0, .onUnload 2, .onModelChanged 1, .onModelChanged 0, .onUnload 1,
    .onUnload 0]

theorem windowActions_run : ∃ final,
    runActions (presenterStep windowHooks) {} windowActions = some final ∧
      final.calls = windowCalls := by
  have hcalls : (runActions (presenterStep windowHooks) {} windowActions).map
      Presentation.calls = some windowCalls := by
    decide +kernel
  obtain ⟨final, hrun, hfinal⟩ := Option.map_eq_some_iff.mp hcalls
  exact ⟨final, hrun, hfinal⟩

end Windows

section Guarantees

variable {actions : List (PresenterAction π)} {final : Presentation π}

end Guarantees

end AppTraverse
