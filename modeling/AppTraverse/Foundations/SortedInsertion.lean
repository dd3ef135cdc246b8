import Mathlib.Order.Lattice
import Mathlib.Data.List.Perm.Basic
import Mathlib.Data.List.Pairwise
import Mathlib.Data.List.TakeWhile

/-!
# Insertion at the lower bound of a sorted list

`lowerBoundInsert less x l` puts `x` before the first element of `l` that is
not `less` than `x`, which is what `insert` at `std::lower_bound` does on a
sorted sequence.  The lemmas say what such an insertion keeps: the elements,
their relative order, and sortedness by a key.
-/

namespace AppTraverse
namespace Foundations

variable {α : Type}

/-- Insert `x` before the first element that is not `less` than `x`. -/
def lowerBoundInsert (less : α → α → Bool) (x : α) (l : List α) : List α :=
  l.takeWhile (less · x) ++ x :: l.dropWhile (less · x)

/-- The lower bound is the end of the list. -/
def lowerBoundAtEnd (less : α → α → Bool) (x : α) (l : List α) : Bool :=
  (l.dropWhile (less · x)).isEmpty

/-- An insertion whose lower bound is the end appends. -/
theorem lowerBoundInsert_eq_append {less : α → α → Bool} {x : α} {l : List α}
    (hend : lowerBoundAtEnd less x l = true) :
    lowerBoundInsert less x l = l ++ [x] := by
  have hdrop : l.dropWhile (less · x) = [] := List.isEmpty_iff.mp hend
  have htake : l.takeWhile (less · x) = l := by
    have hsplit := List.takeWhile_append_dropWhile (p := (less · x)) (l := l)
    rw [hdrop, List.append_nil] at hsplit
    exact hsplit
  rw [lowerBoundInsert, hdrop, htake]

/-- Insertion after a front of smaller elements is insertion into the rest. -/
theorem lowerBoundInsert_append {less : α → α → Bool} {x : α} {front back : List α}
    (hfront : ∀ y ∈ front, less y x = true) :
    lowerBoundInsert less x (front ++ back) = front ++ lowerBoundInsert less x back := by
  rw [lowerBoundInsert, lowerBoundInsert, List.takeWhile_append_of_pos hfront,
    List.dropWhile_append_of_pos hfront, List.append_assoc]

/-- Insertion splits the list around the new element. -/
theorem exists_lowerBoundInsert_split (less : α → α → Bool) (x : α) (l : List α) :
    ∃ before after, l = before ++ after ∧
      lowerBoundInsert less x l = before ++ x :: after :=
  ⟨l.takeWhile (less · x), l.dropWhile (less · x),
    (List.takeWhile_append_dropWhile).symm, rfl⟩

theorem lowerBoundInsert_perm (less : α → α → Bool) (x : α) (l : List α) :
    (lowerBoundInsert less x l).Perm (x :: l) := by
  obtain ⟨before, after, hl, hinsert⟩ := exists_lowerBoundInsert_split less x l
  rw [hinsert]
  conv_rhs => rw [hl]
  exact List.perm_middle

@[simp] theorem mem_lowerBoundInsert {less : α → α → Bool} {x y : α} {l : List α} :
    y ∈ lowerBoundInsert less x l ↔ y = x ∨ y ∈ l := by
  rw [(lowerBoundInsert_perm less x l).mem_iff, List.mem_cons]

theorem length_lowerBoundInsert (less : α → α → Bool) (x : α) (l : List α) :
    (lowerBoundInsert less x l).length = l.length + 1 := by
  rw [(lowerBoundInsert_perm less x l).length_eq, List.length_cons]

section Key

variable {κ : Type} [LinearOrder κ]

/-- Insertion by a key into a list sorted by that key keeps it sorted. -/
theorem pairwise_lowerBoundInsert {less : α → α → Bool} {key : α → κ}
    (hless : ∀ a b, less a b = true ↔ key a < key b) {x : α} {l : List α}
    (hsorted : l.Pairwise fun a b => key a ≤ key b) :
    (lowerBoundInsert less x l).Pairwise fun a b => key a ≤ key b := by
  induction l with
  | nil => simp [lowerBoundInsert]
  | cons head tail ih =>
      rw [List.pairwise_cons] at hsorted
      obtain ⟨hhead, htail⟩ := hsorted
      cases hcmp : less head x with
      | true =>
          have hinsert : lowerBoundInsert less x (head :: tail) =
              head :: lowerBoundInsert less x tail := by
            simp [lowerBoundInsert, hcmp]
          have hlt : key head < key x := (hless head x).mp hcmp
          rw [hinsert, List.pairwise_cons]
          refine ⟨?_, ih htail⟩
          intro other hother
          rcases mem_lowerBoundInsert.mp hother with rfl | hmem
          · exact hlt.le
          · exact hhead other hmem
      | false =>
          have hinsert : lowerBoundInsert less x (head :: tail) =
              x :: head :: tail := by
            simp [lowerBoundInsert, hcmp]
          have hle : key x ≤ key head := by
            by_contra hnot
            rw [(hless head x).mpr (lt_of_not_ge hnot)] at hcmp
            contradiction
          rw [hinsert, List.pairwise_cons]
          refine ⟨?_, List.pairwise_cons.mpr ⟨hhead, htail⟩⟩
          intro other hother
          rcases List.mem_cons.mp hother with rfl | hmem
          · exact hle
          · exact hle.trans (hhead other hmem)

end Key

end Foundations
end AppTraverse
