import Mathlib.Data.Option.Basic

/-!
# Programs that may be cut off

A program makes one change of a state after another, and reads the state in between.  It
may be cut off after any number of changes.  `Safe` is its weakest precondition together
with an invariant that holds at every point where it may be cut off.

A change without a next state is one that the program cannot make: the run ends there, and
a statement about its result says nothing.
-/

namespace AppTraverse
namespace Foundations

/-- A program over states `σ` with results `ρ`. -/
inductive Program (σ ρ : Type) where
  | done (result : ρ)
  | step (change : σ → Option σ) (next : σ → Program σ ρ)

namespace Program

variable {σ ρ τ : Type}

/-- One program after another. -/
def andThen : Program σ ρ → (ρ → Program σ τ) → Program σ τ
  | done result, rest => rest result
  | step change next, rest => step change fun state => (next state).andThen rest

instance : Monad (Program σ) where
  pure := done
  bind := andThen

/-- Read the state. -/
def read : Program σ σ := step some done

/-- Change the state. -/
def change (f : σ → Option σ) : Program σ Unit := step f fun _ => done ()

/-- Change the state by a function that never fails. -/
def modify (f : σ → σ) : Program σ Unit := change fun state => some (f state)

/-- The result and the last state of a run that is not cut off. -/
def run : Program σ ρ → σ → Option (ρ × σ)
  | done result, state => some (result, state)
  | step change next, state => (change state).bind fun changed => (next changed).run changed

/-- The state in which a program is cut off after some steps. -/
def cutOff : Nat → Program σ ρ → σ → Option σ
  | 0, _, state => some state
  | _ + 1, done _, state => some state
  | steps + 1, step change next, state =>
      (change state).bind fun changed => (next changed).cutOff steps changed

/-- Every change keeps the invariant, and the result meets the postcondition. -/
def Safe (invariant : σ → Prop) : Program σ ρ → (ρ → σ → Prop) → σ → Prop
  | done result, post, state => post result state
  | step change next, post, state =>
      ∀ changed, change state = some changed →
        invariant changed ∧ (next changed).Safe invariant post changed

/-- Every change that the program can make relates the state before it to the one after it. -/
def EachChange (related : σ → σ → Prop) : Program σ ρ → Prop
  | done _ => True
  | step change next =>
      (∀ state changed, change state = some changed → related state changed) ∧
        ∀ state, (next state).EachChange related

variable {invariant : σ → Prop} {program : Program σ ρ} {state reached : σ}
  {post weaker : ρ → σ → Prop}

@[simp] theorem safe_pure {result : ρ} :
    Safe invariant (pure result : Program σ ρ) post state ↔ post result state :=
  Iff.rfl

@[simp] theorem safe_read {post : σ → σ → Prop} :
    Safe invariant read post state ↔ invariant state ∧ post state state := by
  constructor
  · exact fun h => h state rfl
  · rintro ⟨hinvariant, hpost⟩ changed hchanged
    cases hchanged
    exact ⟨hinvariant, hpost⟩

@[simp] theorem safe_change {f : σ → Option σ} {post : Unit → σ → Prop} :
    Safe invariant (change f) post state ↔
      ∀ changed, f state = some changed → invariant changed ∧ post () changed :=
  Iff.rfl

@[simp] theorem safe_modify {f : σ → σ} {post : Unit → σ → Prop} :
    Safe invariant (modify f) post state ↔ invariant (f state) ∧ post () (f state) := by
  constructor
  · exact fun h => h (f state) rfl
  · rintro ⟨hinvariant, hpost⟩ changed hchanged
    cases hchanged
    exact ⟨hinvariant, hpost⟩

/-- The rule for one program after another. -/
@[simp] theorem safe_bind {rest : ρ → Program σ τ} {post : τ → σ → Prop} :
    Safe invariant (program >>= rest) post state ↔
      program.Safe invariant (fun result => (rest result).Safe invariant post) state := by
  show Safe invariant (program.andThen rest) post state ↔ _
  induction program generalizing state with
  | done result => exact Iff.rfl
  | step change next ih =>
      apply forall_congr'
      intro changed
      apply imp_congr_right
      intro _
      exact and_congr_right fun _ => ih changed

/-- The rule of consequence. -/
theorem Safe.mono (h : program.Safe invariant post state)
    (himp : ∀ result final, post result final → weaker result final) :
    program.Safe invariant weaker state := by
  induction program generalizing state with
  | done result => exact himp result state h
  | step change next ih =>
      intro changed hchanged
      obtain ⟨hinvariant, hnext⟩ := h changed hchanged
      exact ⟨hinvariant, ih changed hnext⟩

/-- Two things that a program guarantees are guaranteed together. -/
theorem Safe.and {other : σ → Prop} {also : ρ → σ → Prop}
    (h : program.Safe invariant post state) (hother : program.Safe other also state) :
    program.Safe (fun s => invariant s ∧ other s) (fun result s => post result s ∧ also result s)
      state := by
  induction program generalizing state with
  | done result => exact ⟨h, hother⟩
  | step change next ih =>
      intro changed hchanged
      obtain ⟨hinvariant, hnext⟩ := h changed hchanged
      obtain ⟨hinvariant', hnext'⟩ := hother changed hchanged
      exact ⟨⟨hinvariant, hinvariant'⟩, ih changed hnext hnext'⟩

/-- The result of a program that is not cut off. -/
theorem Safe.run (h : program.Safe invariant post state) {result : ρ}
    (hrun : program.run state = some (result, reached)) : post result reached := by
  induction program generalizing state with
  | done value =>
      cases hrun
      exact h
  | step change next ih =>
      obtain ⟨changed, hchanged, hrest⟩ := Option.bind_eq_some_iff.mp hrun
      exact ih changed (h changed hchanged).2 hrest

/-- The state in which a program is cut off. -/
theorem Safe.cutOff (h : program.Safe invariant post state) (hstate : invariant state)
    {steps : Nat} (hcut : program.cutOff steps state = some reached) : invariant reached := by
  induction steps generalizing program state with
  | zero =>
      cases hcut
      exact hstate
  | succ steps ih =>
      cases program with
      | done result =>
          cases hcut
          exact hstate
      | step change next =>
          obtain ⟨changed, hchanged, hrest⟩ := Option.bind_eq_some_iff.mp hcut
          obtain ⟨hinvariant, hnext⟩ := h changed hchanged
          exact ih hnext hinvariant hrest

namespace EachChange

variable {related : σ → σ → Prop}

theorem pure {result : ρ} : (Pure.pure result : Program σ ρ).EachChange related := trivial

theorem read (hrefl : ∀ state, related state state) : (read : Program σ σ).EachChange related := by
  refine ⟨fun state changed hchanged => ?_, fun _ => trivial⟩
  cases hchanged
  exact hrefl state

theorem change {f : σ → Option σ}
    (h : ∀ state changed, f state = some changed → related state changed) :
    (change f).EachChange related :=
  ⟨h, fun _ => trivial⟩

theorem modify {f : σ → σ} (h : ∀ state, related state (f state)) :
    (modify f).EachChange related := by
  refine change fun state changed hchanged => ?_
  cases hchanged
  exact h state

/-- The rule for one program after another. -/
theorem bind {rest : ρ → Program σ τ} (h : program.EachChange related)
    (hrest : ∀ result, (rest result).EachChange related) :
    (program >>= rest).EachChange related := by
  show (program.andThen rest).EachChange related
  induction program with
  | done result => exact hrest result
  | step change next ih => exact ⟨h.1, fun state => ih state (h.2 state)⟩

/-- One more step of a program that is cut off is one of its changes, unless it has ended. -/
theorem cutOff (h : program.EachChange related) {steps : Nat} {before after : σ}
    (hbefore : program.cutOff steps state = some before)
    (hafter : program.cutOff (steps + 1) state = some after) :
    after = before ∨ related before after := by
  induction steps generalizing program state with
  | zero =>
      cases hbefore
      cases program with
      | done result =>
          cases hafter
          exact Or.inl rfl
      | step change next =>
          obtain ⟨changed, hchanged, hrest⟩ := Option.bind_eq_some_iff.mp hafter
          cases hrest
          exact Or.inr (h.1 _ _ hchanged)
  | succ steps ih =>
      cases program with
      | done result =>
          cases hbefore
          cases hafter
          exact Or.inl rfl
      | step change next =>
          obtain ⟨changed, hchanged, hrest⟩ := Option.bind_eq_some_iff.mp hbefore
          obtain ⟨changed', hchanged', hrest'⟩ := Option.bind_eq_some_iff.mp hafter
          cases hchanged.symm.trans hchanged'
          exact ih (h.2 changed) hrest hrest'

end EachChange

end Program

end Foundations
end AppTraverse
