import Mathlib.Data.Set.Insert
import Mathlib.Order.FixedPoints
import Mathlib.Order.CompletePartialOrder

/-!
# Sets that grow until nothing is ready

Elements are added one by one.  An element may be added as soon as it is ready, which
depends on the elements that are there.  When readiness is monotone, the order in which
elements are tried has no influence on the result: a set that was grown this way and to
which nothing can be added is the least closed set over the start.
-/

namespace AppTraverse
namespace Foundations

variable {π : Type} {ready : Set π → π → Prop} {candidates start grown : Set π}

/-- More elements make no element less ready. -/
def MonotoneReadiness (ready : Set π → π → Prop) : Prop :=
  ∀ ⦃here there : Set π⦄, here ⊆ there → ∀ element, ready here element → ready there element

/-- The start, and the candidates that a set makes ready. -/
def readyOver (hmono : MonotoneReadiness ready) (candidates start : Set π) : Set π →o Set π where
  toFun here := start ∪ {element | element ∈ candidates ∧ ready here element}
  monotone' _ _ hsub := Set.union_subset_union_right _ fun element ⟨hmem, hready⟩ =>
    ⟨hmem, hmono hsub element hready⟩

/-- The least set over the start that has every candidate that it makes ready. -/
def leastClosed (hmono : MonotoneReadiness ready) (candidates start : Set π) : Set π :=
  (readyOver hmono candidates start).lfp

/-- A set that was grown element by element. -/
inductive Grown (ready : Set π → π → Prop) (candidates start : Set π) : Set π → Prop
  | start : Grown ready candidates start start
  | add {here : Set π} {element : π} : Grown ready candidates start here →
      element ∈ candidates → ready here element →
      Grown ready candidates start (insert element here)

/-- Every candidate that is ready is there. -/
def ReadyAreThere (ready : Set π → π → Prop) (candidates grown : Set π) : Prop :=
  ∀ element ∈ candidates, ready grown element → element ∈ grown

theorem Grown.start_subset (h : Grown ready candidates start grown) : start ⊆ grown := by
  induction h with
  | start => exact Set.Subset.rfl
  | add _ _ _ ih => exact ih.trans (Set.subset_insert _ _)

/-- A grown set is within every closed set over its start. -/
theorem Grown.subset_of_readyAreThere (hmono : MonotoneReadiness ready)
    (h : Grown ready candidates start grown) {closed : Set π} (hstart : start ⊆ closed)
    (hclosed : ReadyAreThere ready candidates closed) : grown ⊆ closed := by
  induction h with
  | start => exact hstart
  | add _ hmem hready ih =>
      exact Set.insert_subset (hclosed _ hmem (hmono ih _ hready)) ih

/-- A grown set to which nothing can be added is the least closed set. -/
theorem Grown.eq_leastClosed (hmono : MonotoneReadiness ready)
    (h : Grown ready candidates start grown) (hclosed : ReadyAreThere ready candidates grown) :
    grown = leastClosed hmono candidates start := by
  apply Set.Subset.antisymm
  · have hfixed : readyOver hmono candidates start (leastClosed hmono candidates start) =
        leastClosed hmono candidates start := (readyOver hmono candidates start).map_lfp
    refine h.subset_of_readyAreThere hmono (fun element helement => ?_)
      fun element hmem hready => ?_
    · rw [← hfixed]
      exact Or.inl helement
    · rw [← hfixed]
      exact Or.inr ⟨hmem, hready⟩
  · refine OrderHom.lfp_le _ ?_
    rintro element (hstart | ⟨hmem, hready⟩)
    · exact h.start_subset hstart
    · exact hclosed element hmem hready

end Foundations
end AppTraverse
