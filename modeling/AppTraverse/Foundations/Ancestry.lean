import Mathlib.Data.List.Sort
import Mathlib.Data.Option.Basic
import Mathlib.Order.Basic

/-!
# Forests given by a parent function

An element of a forest has at most one parent, and parents lie strictly below their
children in depth.  The ancestors of one element are then a chain: any two of them are
ancestors of one another, in one direction only.

The second part sorts a list by a relation that is total and transitive on the members of
the list, such as ancestry on the ancestors of one element.
-/

namespace AppTraverse
namespace Foundations

section Ancestors

variable {κ : Type} (parent : κ → Option κ)

/-- The element so many steps above. -/
def ancestor : Nat → κ → Option κ
  | 0, element => some element
  | steps + 1, element => (parent element).bind (ancestor steps)

/-- Every parent is less deep than its child. -/
def Rooted : Prop :=
  ∃ depth : κ → Nat, ∀ element above, parent element = some above → depth above < depth element

variable {parent} {element above top : κ} {steps more : Nat}

theorem ancestor_add : ancestor parent (steps + more) element =
    (ancestor parent steps element).bind (ancestor parent more) := by
  induction steps generalizing element with
  | zero =>
      rw [Nat.zero_add]
      rfl
  | succ steps ih =>
      rw [Nat.succ_add]
      show (parent element).bind (ancestor parent (steps + more)) =
        ((parent element).bind (ancestor parent steps)).bind (ancestor parent more)
      rw [Option.bind_assoc]
      congr 1
      funext next
      exact ih

theorem depth_ancestor {depth : κ → Nat}
    (hdepth : ∀ element above, parent element = some above → depth above < depth element)
    (h : ancestor parent steps element = some above) : depth above + steps ≤ depth element := by
  induction steps generalizing element with
  | zero =>
      cases h
      omega
  | succ steps ih =>
      obtain ⟨next, hnext, hrest⟩ := Option.bind_eq_some_iff.mp h
      have hstep := hdepth element next hnext
      have hle := ih hrest
      omega

/-- No element is a proper ancestor of itself. -/
theorem ancestor_self (hrooted : Rooted parent)
    (h : ancestor parent steps element = some element) : steps = 0 := by
  obtain ⟨depth, hdepth⟩ := hrooted
  have hle := depth_ancestor hdepth h
  omega

/-- Ancestors of ancestors are ancestors. -/
theorem ancestor_trans (h : ancestor parent steps element = some above)
    (h' : ancestor parent more above = some top) :
    ancestor parent (steps + more) element = some top := by
  rw [ancestor_add, h]
  exact h'

/-- Two elements that are ancestors of one another are the same. -/
theorem ancestor_antisymm (hrooted : Rooted parent)
    (h : ancestor parent steps element = some above)
    (h' : ancestor parent more above = some element) : element = above := by
  have hzero := ancestor_self hrooted (ancestor_trans h h')
  have hsteps : steps = 0 := by omega
  subst hsteps
  exact Option.some.inj h

/-- Of two ancestors of one element, one is an ancestor of the other. -/
theorem ancestor_comparable (h : ancestor parent steps element = some above)
    (h' : ancestor parent more element = some top) :
    (∃ further, ancestor parent further above = some top) ∨
      ∃ further, ancestor parent further top = some above := by
  rcases Nat.le_total steps more with hle | hle
  · obtain ⟨further, rfl⟩ := Nat.exists_eq_add_of_le hle
    rw [ancestor_add, h] at h'
    exact Or.inl ⟨further, h'⟩
  · obtain ⟨further, rfl⟩ := Nat.exists_eq_add_of_le hle
    rw [ancestor_add, h'] at h
    exact Or.inr ⟨further, h⟩

end Ancestors

section SortOn

variable {κ : Type} {r : κ → κ → Prop} [DecidableRel r]

/-- An ordered insertion keeps the order when the relation is total and transitive on the
elements at hand. -/
theorem pairwise_orderedInsert_on {x : κ} {l : List κ}
    (htotal : ∀ y ∈ l, r x y ∨ r y x)
    (htrans : ∀ y ∈ l, ∀ z ∈ l, r x y → r y z → r x z) (hsorted : l.Pairwise r) :
    (l.orderedInsert r x).Pairwise r := by
  induction l with
  | nil => exact List.pairwise_singleton _ _
  | cons head tail ih =>
      obtain ⟨hhead, htail⟩ := List.pairwise_cons.mp hsorted
      rw [List.orderedInsert_cons]
      by_cases hrel : r x head
      · rw [if_pos hrel, List.pairwise_cons]
        refine ⟨?_, hsorted⟩
        intro other hother
        rcases List.mem_cons.mp hother with rfl | hmem
        · exact hrel
        · exact htrans head List.mem_cons_self other (List.mem_cons_of_mem _ hmem) hrel
            (hhead other hmem)
      · rw [if_neg hrel, List.pairwise_cons]
        constructor
        · intro other hother
          rcases List.mem_orderedInsert r |>.mp hother with rfl | hmem
          · exact (htotal head List.mem_cons_self).resolve_left hrel
          · exact hhead other hmem
        · apply ih
          · exact fun y hy => htotal y (List.mem_cons_of_mem _ hy)
          · exact fun y hy z hz => htrans y (List.mem_cons_of_mem _ hy) z
              (List.mem_cons_of_mem _ hz)
          · exact htail

/-- An insertion sort sorts a list on whose members the relation is total and
transitive. -/
theorem pairwise_insertionSort_on {l : List κ} (htotal : ∀ x ∈ l, ∀ y ∈ l, r x y ∨ r y x)
    (htrans : ∀ x ∈ l, ∀ y ∈ l, ∀ z ∈ l, r x y → r y z → r x z) :
    (l.insertionSort r).Pairwise r := by
  induction l with
  | nil => exact List.Pairwise.nil
  | cons head tail ih =>
      rw [List.insertionSort_cons]
      have hmem : ∀ y ∈ tail.insertionSort r, y ∈ head :: tail := fun y hy =>
        List.mem_cons_of_mem _ ((List.mem_insertionSort r).mp hy)
      apply pairwise_orderedInsert_on
      · exact fun y hy => htotal head List.mem_cons_self y (hmem y hy)
      · exact fun y hy z hz => htrans head List.mem_cons_self y (hmem y hy) z (hmem z hz)
      · apply ih
        · exact fun x hx y hy => htotal x (List.mem_cons_of_mem _ hx) y
            (List.mem_cons_of_mem _ hy)
        · exact fun x hx y hy z hz => htrans x (List.mem_cons_of_mem _ hx) y
            (List.mem_cons_of_mem _ hy) z (List.mem_cons_of_mem _ hz)

end SortOn

end Foundations
end AppTraverse
