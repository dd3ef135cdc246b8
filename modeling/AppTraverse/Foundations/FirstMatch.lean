import Mathlib.Data.List.Basic

/-!
# The first matching element of a list

Tables that are searched from the front: the index of the first match splits
the list, and erasing or modifying at that index acts on the split.
-/

namespace AppTraverse
namespace Foundations

variable {α : Type} {p : α → Bool} {l : List α}

/-- The list splits at its first match. -/
theorem exists_split_of_findIdx_lt (h : l.findIdx p < l.length) :
    ∃ before x after, l = before ++ x :: after ∧ p x = true ∧
      (∀ y ∈ before, p y = false) ∧ l.findIdx p = before.length := by
  refine ⟨l.take (l.findIdx p), l[l.findIdx p], l.drop (l.findIdx p + 1), ?_, ?_, ?_, ?_⟩
  · rw [List.getElem_cons_drop, List.take_append_drop]
  · exact List.findIdx_getElem
  · intro y hy
    obtain ⟨i, hi, rfl⟩ := List.mem_iff_getElem.mp hy
    rw [List.length_take] at hi
    rw [List.getElem_take]
    have hnot := @List.not_of_lt_findIdx _ p l i (by omega)
    simpa using hnot
  · rw [List.length_take]
    omega

/-- No element matches exactly when the search runs off the end. -/
theorem findIdx_eq_length_iff :
    l.findIdx p = l.length ↔ l.countP p = 0 := by
  rw [List.findIdx_eq_length, List.countP_eq_zero]
  simp

theorem findIdx_lt_length_iff_countP_pos :
    l.findIdx p < l.length ↔ 0 < l.countP p := by
  have hle : l.findIdx p ≤ l.length := List.findIdx_le_length
  have hiff := findIdx_eq_length_iff (p := p) (l := l)
  omega

/-- Erasing at the split removes that element. -/
theorem eraseIdx_split (before : List α) (x : α) (after : List α) :
    (before ++ x :: after).eraseIdx before.length = before ++ after := by
  rw [List.eraseIdx_append_of_length_le (Nat.le_refl _)]
  simp

/-- Modifying at the split changes that element. -/
theorem modify_split (before : List α) (x : α) (after : List α) (f : α → α) :
    (before ++ x :: after).modify before.length f = before ++ f x :: after := by
  induction before with
  | nil => rfl
  | cons head tail ih => simpa using ih

/-- Erasing the first element of a key removes all of that key when keys are unique. -/
theorem eraseIdx_findIdx_eq_filter {κ : Type} [DecidableEq κ] {f : α → κ}
    (hunique : (l.map f).Nodup) (k : κ) :
    l.eraseIdx (l.findIdx fun x => decide (f x = k)) = l.filter fun x => decide (f x ≠ k) := by
  induction l with
  | nil => rfl
  | cons head tail ih =>
      rw [List.map_cons, List.nodup_cons] at hunique
      obtain ⟨hhead, htail⟩ := hunique
      by_cases hkey : f head = k
      · have hrest : tail.filter (fun x => decide (f x ≠ k)) = tail := by
          rw [List.filter_eq_self]
          intro x hx
          have hne : f x ≠ k := by
            rintro rfl
            exact hhead (hkey ▸ List.mem_map_of_mem hx)
          simpa using hne
        simp only [List.findIdx_cons, List.filter_cons, hkey, decide_true, cond_true,
          List.eraseIdx_zero, List.tail_cons, ne_eq, not_true_eq_false, decide_false,
          Bool.false_eq_true, if_false]
        exact hrest.symm
      · simp only [List.findIdx_cons, List.filter_cons, hkey, decide_false, cond_false,
          List.eraseIdx_cons_succ, ne_eq, not_false_eq_true, decide_true, if_true]
        rw [ih htail]

end Foundations
end AppTraverse
