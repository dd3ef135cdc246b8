/-!
# Runs of a partial step function

A step that the program cannot take (an assertion of it fails) has no next state,
and a run ends there.  What one step preserves holds at the end of every run, and
what one step guarantees holds at every step of every run.
-/

namespace AppTraverse
namespace Foundations

variable {σ κ : Type} (step : σ → κ → Option σ)

/-- The state after a list of actions. -/
def runActions (state : σ) : List κ → Option σ
  | [] => some state
  | action :: rest => (step state action).bind fun next => runActions next rest

/-- `guarantee` holds at every step of a run that starts in `state`. -/
def EveryStep (guarantee : σ → κ → Prop) (state : σ) : List κ → Prop
  | [] => True
  | action :: rest =>
      guarantee state action ∧
        ∀ next, step state action = some next → EveryStep guarantee next rest

variable {step} {guarantee assumption : σ → κ → Prop} {state final : σ} {actions : List κ}

theorem everyStep_cons {action : κ} :
    EveryStep step guarantee state (action :: actions) ↔ guarantee state action ∧
      ∀ next, step state action = some next → EveryStep step guarantee next actions :=
  Iff.rfl

theorem runActions_cons {action : κ} :
    runActions step state (action :: actions) = some final ↔
      ∃ next, step state action = some next ∧
        runActions step next actions = some final :=
  Option.bind_eq_some_iff

theorem runActions_append {others : List κ} :
    runActions step state (actions ++ others) = some final ↔
      ∃ middle, runActions step state actions = some middle ∧
        runActions step middle others = some final := by
  induction actions generalizing state with
  | nil => simp [runActions]
  | cons action rest ih =>
      rw [List.cons_append, runActions_cons]
      constructor
      · rintro ⟨next, hstep, hrest⟩
        obtain ⟨middle, hfirst, hothers⟩ := ih.mp hrest
        exact ⟨middle, runActions_cons.mpr ⟨next, hstep, hfirst⟩, hothers⟩
      · rintro ⟨middle, hfirst, hothers⟩
        obtain ⟨next, hstep, hrest⟩ := runActions_cons.mp hfirst
        exact ⟨next, hstep, ih.mpr ⟨middle, hrest, hothers⟩⟩

instance decidableEveryStep [∀ state action, Decidable (guarantee state action)] :
    ∀ state actions, Decidable (EveryStep step guarantee state actions)
  | _, [] => .isTrue trivial
  | state, action :: rest =>
      match h : step state action with
      | none => decidable_of_iff (guarantee state action)
          ⟨fun now => ⟨now, by simp [h]⟩, fun every => every.1⟩
      | some next =>
          have := decidableEveryStep next rest
          decidable_of_iff (guarantee state action ∧ EveryStep step guarantee next rest)
            ⟨fun every => ⟨every.1, by simpa [h] using every.2⟩,
              fun every => ⟨every.1, every.2 next h⟩⟩

/-- What every step guarantees holds at every step of every run. -/
theorem everyStep_of_forall (h : ∀ state action, guarantee state action) :
    EveryStep step guarantee state actions := by
  induction actions generalizing state with
  | nil => trivial
  | cons action rest ih => exact everyStep_cons.mpr ⟨h state action, fun _ _ => ih⟩

/-- What the actions of a run guarantee in every state holds at every step of it. -/
theorem everyStep_of_mem (h : ∀ action ∈ actions, ∀ state, guarantee state action) :
    EveryStep step guarantee state actions := by
  induction actions generalizing state with
  | nil => trivial
  | cons action rest ih =>
      have hrest : ∀ action ∈ rest, ∀ state, guarantee state action :=
        fun other hother => h other (List.mem_cons_of_mem _ hother)
      exact everyStep_cons.mpr ⟨h action List.mem_cons_self state, fun _ _ => ih hrest⟩

/-- A weaker guarantee holds at every step as well. -/
theorem EveryStep.mono (h : EveryStep step guarantee state actions)
    (hweaker : ∀ state action, guarantee state action → assumption state action) :
    EveryStep step assumption state actions := by
  induction actions generalizing state with
  | nil => trivial
  | cons action rest ih =>
      obtain ⟨hnow, hlater⟩ := everyStep_cons.mp h
      exact everyStep_cons.mpr ⟨hweaker _ _ hnow, fun next hnext => ih (hlater next hnext)⟩

/-- Two guarantees of every step hold together. -/
theorem EveryStep.and (h : EveryStep step guarantee state actions)
    (h' : EveryStep step assumption state actions) :
    EveryStep step (fun state action => guarantee state action ∧ assumption state action) state
      actions := by
  induction actions generalizing state with
  | nil => trivial
  | cons action rest ih =>
      obtain ⟨hnow, hlater⟩ := everyStep_cons.mp h
      obtain ⟨hnow', hlater'⟩ := everyStep_cons.mp h'
      exact everyStep_cons.mpr
        ⟨⟨hnow, hnow'⟩, fun next hnext => ih (hlater next hnext) (hlater' next hnext)⟩

/-- A guarantee of every step holds at the step that follows a run. -/
theorem EveryStep.at_end {action : κ} {rest : List κ} {reached : σ}
    (h : EveryStep step guarantee state (actions ++ action :: rest))
    (hrun : runActions step state actions = some reached) : guarantee reached action := by
  induction actions generalizing state with
  | nil =>
      cases hrun
      exact (everyStep_cons.mp h).1
  | cons first others ih =>
      obtain ⟨next, hnext, hothers⟩ := runActions_cons.mp hrun
      exact ih ((everyStep_cons.mp h).2 next hnext) hothers

/-- A guarantee of every step holds at the steps that follow a run. -/
theorem EveryStep.after {rest : List κ} {reached : σ}
    (h : EveryStep step guarantee state (actions ++ rest))
    (hrun : runActions step state actions = some reached) :
    EveryStep step guarantee reached rest := by
  induction actions generalizing state with
  | nil =>
      cases hrun
      exact h
  | cons first others ih =>
      obtain ⟨next, hnext, hothers⟩ := runActions_cons.mp hrun
      exact ih ((everyStep_cons.mp h).2 next hnext) hothers

/-- A guarantee of every step of a run holds at the steps of its front. -/
theorem EveryStep.front {rest : List κ} (h : EveryStep step guarantee state (actions ++ rest)) :
    EveryStep step guarantee state actions := by
  induction actions generalizing state with
  | nil => trivial
  | cons first others ih =>
      obtain ⟨hnow, hlater⟩ := everyStep_cons.mp h
      exact everyStep_cons.mpr ⟨hnow, fun next hnext => ih (hlater next hnext)⟩

/-- An invariant that every allowed step preserves holds after an allowed run. -/
theorem runActions_invariant (invariant : σ → Prop)
    (hstep : ∀ state action next, invariant state → assumption state action →
      step state action = some next → invariant next)
    (hstate : invariant state) (hallowed : EveryStep step assumption state actions)
    (hrun : runActions step state actions = some final) : invariant final := by
  induction actions generalizing state with
  | nil =>
      cases hrun
      exact hstate
  | cons action rest ih =>
      obtain ⟨next, hnext, hrest⟩ := runActions_cons.mp hrun
      obtain ⟨hassumption, hlater⟩ := everyStep_cons.mp hallowed
      exact ih (hstep state action next hstate hassumption hnext) (hlater next hnext) hrest

/-- An invariant that every step preserves holds after every run. -/
theorem runActions_preserves (invariant : σ → Prop)
    (hstep : ∀ state action next, invariant state → step state action = some next →
      invariant next)
    (hstate : invariant state) (hrun : runActions step state actions = some final) :
    invariant final := by
  have hall : EveryStep step (fun _ _ => True) state actions :=
    everyStep_of_forall fun _ _ => trivial
  exact runActions_invariant invariant
    (fun state action next hinv _ => hstep state action next hinv) hstate hall hrun

/-- A step guarantee that the invariant gives holds at every step of an allowed
run. -/
theorem everyStep_of_invariant (invariant : σ → Prop)
    (hstep : ∀ state action next, invariant state → assumption state action →
      step state action = some next → invariant next)
    (hgives : ∀ state action, invariant state → assumption state action →
      guarantee state action)
    (hstate : invariant state) (hallowed : EveryStep step assumption state actions) :
    EveryStep step guarantee state actions := by
  induction actions generalizing state with
  | nil => trivial
  | cons action rest ih =>
      obtain ⟨hassumption, hlater⟩ := everyStep_cons.mp hallowed
      refine everyStep_cons.mpr ⟨hgives state action hstate hassumption, ?_⟩
      exact fun next hnext => ih (hstep state action next hstate hassumption hnext)
        (hlater next hnext)

/-- Two properties of a step that agree wherever the invariant holds agree along
every run. -/
theorem everyStep_congr (invariant : σ → Prop)
    (hstep : ∀ state action next, invariant state →
      step state action = some next → invariant next)
    (hcongr : ∀ state action, invariant state → action ∈ actions →
      (guarantee state action ↔ assumption state action))
    (hstate : invariant state) :
    EveryStep step guarantee state actions ↔ EveryStep step assumption state actions := by
  induction actions generalizing state with
  | nil => exact Iff.rfl
  | cons action rest ih =>
      rw [everyStep_cons, everyStep_cons, hcongr state action hstate List.mem_cons_self]
      refine and_congr_right fun _ => forall_congr' fun next => ?_
      refine forall_congr' fun hnext => ih ?_ (hstep state action next hstate hnext)
      exact fun state action hinv hmem => hcongr state action hinv
        (List.mem_cons_of_mem _ hmem)

end Foundations
end AppTraverse
