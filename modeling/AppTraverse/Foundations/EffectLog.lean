import Mathlib.Data.List.Basic

/-!
# Computations that log effects and may stop at a fault

A step of a stateful component does two observable things: it performs effects
on the outside world in program order, and it either returns a result or stops
at a failed assertion.  `EffectLog` keeps both.  The effects performed before a
fault stay in the log, so a reader can ask what is durable when the component
is cut off at an arbitrary point of the step.

Nothing here depends on what the effects or the faults are.
-/

namespace AppTraverse
namespace Foundations

/-- The effects of a computation, in program order, and how it ended. -/
structure EffectLog (φ ω ρ : Type) where
  effects : List ω
  result : Except φ ρ

namespace EffectLog

variable {φ ω ρ σ : Type}

/-- Perform one effect. -/
def emit (effect : ω) : EffectLog φ ω Unit := ⟨[effect], .ok ()⟩

/-- Stop at a fault. -/
def fault (reason : φ) : EffectLog φ ω ρ := ⟨[], .error reason⟩

/-- Run an effect-free computation. -/
def lift (result : Except φ ρ) : EffectLog φ ω ρ := ⟨[], result⟩

instance : Monad (EffectLog φ ω) where
  pure value := ⟨[], .ok value⟩
  bind x f :=
    match x.result with
    | .error reason => ⟨x.effects, .error reason⟩
    | .ok value => ⟨x.effects ++ (f value).effects, (f value).result⟩

@[simp] theorem pure_effects (value : ρ) :
    (pure value : EffectLog φ ω ρ).effects = [] := rfl

@[simp] theorem pure_result (value : ρ) :
    (pure value : EffectLog φ ω ρ).result = .ok value := rfl

@[simp] theorem emit_effects (effect : ω) :
    (emit effect : EffectLog φ ω Unit).effects = [effect] := rfl

@[simp] theorem emit_result (effect : ω) :
    (emit effect : EffectLog φ ω Unit).result = .ok () := rfl

@[simp] theorem fault_effects (reason : φ) :
    (fault reason : EffectLog φ ω ρ).effects = [] := rfl

@[simp] theorem fault_result (reason : φ) :
    (fault reason : EffectLog φ ω ρ).result = .error reason := rfl

@[simp] theorem lift_effects (result : Except φ ρ) :
    (lift result : EffectLog φ ω ρ).effects = [] := rfl

@[simp] theorem lift_result (result : Except φ ρ) :
    (lift result : EffectLog φ ω ρ).result = result := rfl

/-- A bind whose first part returned continues with its value. -/
theorem bind_of_ok {x : EffectLog φ ω ρ} {value : ρ} (f : ρ → EffectLog φ ω σ)
    (hx : x.result = .ok value) :
    x >>= f = ⟨x.effects ++ (f value).effects, (f value).result⟩ := by
  change (match x.result with
    | .error reason => (⟨x.effects, .error reason⟩ : EffectLog φ ω σ)
    | .ok value => ⟨x.effects ++ (f value).effects, (f value).result⟩) = _
  rw [hx]

/-- A bind whose first part stopped never reaches its second part. -/
theorem bind_of_error {x : EffectLog φ ω ρ} {reason : φ}
    (f : ρ → EffectLog φ ω σ) (hx : x.result = .error reason) :
    x >>= f = ⟨x.effects, .error reason⟩ := by
  change (match x.result with
    | .error reason => (⟨x.effects, .error reason⟩ : EffectLog φ ω σ)
    | .ok value => ⟨x.effects ++ (f value).effects, (f value).result⟩) = _
  rw [hx]

@[simp] theorem pure_bind (value : ρ) (f : ρ → EffectLog φ ω σ) :
    (pure value : EffectLog φ ω ρ) >>= f = f value := by
  rw [bind_of_ok f (pure_result value)]
  simp

@[simp] theorem fault_bind (reason : φ) (f : ρ → EffectLog φ ω σ) :
    (fault reason : EffectLog φ ω ρ) >>= f = fault reason := by
  rw [bind_of_error f (fault_result reason)]
  rfl

@[simp] theorem emit_bind (effect : ω) (f : Unit → EffectLog φ ω σ) :
    emit effect >>= f = ⟨effect :: (f ()).effects, (f ()).result⟩ := by
  rw [bind_of_ok f (emit_result effect)]
  simp

@[simp] theorem lift_ok_bind (value : ρ) (f : ρ → EffectLog φ ω σ) :
    (lift (.ok value) : EffectLog φ ω ρ) >>= f = f value := by
  rw [bind_of_ok f (lift_result _)]
  simp

/-- A bind returns exactly when both parts do. -/
theorem bind_result_eq_ok_iff {x : EffectLog φ ω ρ} {f : ρ → EffectLog φ ω σ}
    {final : σ} :
    (x >>= f).result = .ok final ↔
      ∃ value, x.result = .ok value ∧ (f value).result = .ok final := by
  cases hx : x.result with
  | error reason =>
      rw [bind_of_error f hx]
      simp
  | ok value =>
      rw [bind_of_ok f hx]
      simp

/-- Every effect is allowed, and what is returned satisfies the postcondition. -/
structure Ensures (allowed : ω → Prop) (post : ρ → Prop) (x : EffectLog φ ω ρ) : Prop where
  effects : ∀ effect ∈ x.effects, allowed effect
  result : ∀ value, x.result = .ok value → post value

section Ensures

variable {allowed : ω → Prop} {mid : ρ → Prop} {post : σ → Prop}

theorem ensures_pure {value : ρ} (h : mid value) :
    (pure value : EffectLog φ ω ρ).Ensures allowed mid := by
  refine ⟨by simp, fun returned hreturned => ?_⟩
  cases hreturned
  exact h

theorem ensures_fault (reason : φ) : (fault reason : EffectLog φ ω ρ).Ensures allowed mid :=
  ⟨by simp, by simp⟩

theorem ensures_emit {effect : ω} (h : allowed effect) :
    (emit effect : EffectLog φ ω Unit).Ensures allowed fun _ => True :=
  ⟨by simpa using h, fun _ _ => trivial⟩

theorem ensures_lift {result : Except φ ρ} :
    (lift result : EffectLog φ ω ρ).Ensures allowed fun value => result = .ok value :=
  ⟨by simp, fun _ hvalue => hvalue⟩

/-- The rule of sequential composition. -/
theorem Ensures.bind {x : EffectLog φ ω ρ} {f : ρ → EffectLog φ ω σ}
    (hx : x.Ensures allowed mid) (hf : ∀ value, mid value → (f value).Ensures allowed post) :
    (x >>= f).Ensures allowed post := by
  cases hresult : x.result with
  | error reason =>
      rw [bind_of_error f hresult]
      exact ⟨hx.effects, by simp⟩
  | ok value =>
      have hrest := hf value (hx.result value hresult)
      rw [bind_of_ok f hresult]
      refine ⟨fun effect heffect => ?_, hrest.result⟩
      rcases List.mem_append.mp heffect with hfirst | hsecond
      · exact hx.effects effect hfirst
      · exact hrest.effects effect hsecond

end Ensures

/-- A test that passes on the result of a computation that returned. -/
theorem exists_ok_of_test {x : EffectLog φ ω ρ} (test : ρ → Bool)
    (h : (match x.result with
      | .ok value => test value
      | .error _ => false) = true) :
    ∃ value, x.result = .ok value ∧ test value = true := by
  split at h
  case h_1 value hvalue => exact ⟨value, hvalue, h⟩
  case h_2 => cases h

end EffectLog

/-- A bind of fallible computations returns exactly when both parts do. -/
theorem except_bind_eq_ok_iff {φ ρ σ : Type} {x : Except φ ρ}
    {f : ρ → Except φ σ} {final : σ} :
    x >>= f = .ok final ↔ ∃ value, x = .ok value ∧ f value = .ok final := by
  cases x with
  | error reason => simp [bind, Except.bind]
  | ok value => simp [bind, Except.bind]

/-- A mapped computation returns exactly when the computation does. -/
theorem except_map_eq_ok_iff {φ ρ σ : Type} {x : Except φ ρ} {f : ρ → σ} {final : σ} :
    f <$> x = .ok final ↔ ∃ value, x = .ok value ∧ f value = final := by
  cases x with
  | error reason => simp [Functor.map, Except.map]
  | ok value => simp [Functor.map, Except.map]

/-- A computation does not fail in this way. -/
def Avoids {φ ρ : Type} (failure : φ) (result : Except φ ρ) : Prop :=
  result ≠ .error failure

theorem Avoids.bind {φ ρ σ : Type} {failure : φ} {result : Except φ ρ} {next : ρ → Except φ σ}
    (h : Avoids failure result) (hnext : ∀ value, Avoids failure (next value)) :
    Avoids failure (result >>= next) := by
  cases result with
  | ok value => exact hnext value
  | error reason =>
      intro hbad
      cases hbad
      exact h rfl

theorem Avoids.foldlM {φ ρ σ : Type} {failure : φ} {step : ρ → σ → Except φ ρ}
    (hstep : ∀ state value, Avoids failure (step state value)) (values : List σ) (state : ρ) :
    Avoids failure (values.foldlM step state) := by
  induction values generalizing state with
  | nil =>
      intro hbad
      cases hbad
  | cons head tail ih =>
      rw [List.foldlM_cons]
      exact (hstep state head).bind fun next => ih next

/-- What is left of a computation when its failures are forgotten. -/
theorem toOption_eq_some_iff {φ ρ : Type} {x : Except φ ρ} {value : ρ} :
    x.toOption = some value ↔ x = .ok value := by
  cases x with
  | error reason => simp [Except.toOption]
  | ok result => simp [Except.toOption]

end Foundations
end AppTraverse
