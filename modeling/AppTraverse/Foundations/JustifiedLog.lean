import Mathlib.Data.List.Chain

/-!
# Logs in which every entry is justified

A log grows at its end.  Whether an entry may stand where it stands depends on what is in front
of it, so that a log stays justified when a justified entry is written.
-/

namespace AppTraverse
namespace Foundations

variable {ω ρ : Type} {ground : List ω → ω → Prop} {log : List ω} {entry : ω}

/-- Every entry has a ground in what stands in front of it. -/
def Justified (ground : List ω → ω → Prop) (log : List ω) : Prop :=
  ∀ before entry after, log = before ++ entry :: after → ground before entry

namespace Justified

theorem nil : Justified ground [] := by
  intro before entry after hsplit
  simp at hsplit

/-- An entry is written for which there is a ground. -/
theorem write (h : Justified ground log) (hentry : ground log entry) :
    Justified ground (log ++ [entry]) := by
  intro before other after hsplit
  rcases List.eq_nil_or_concat after with rfl | ⟨front, last, rfl⟩
  · obtain ⟨rfl, hlast⟩ := List.append_inj' hsplit rfl
    cases hlast
    exact hentry
  · have hlonger : log ++ [entry] = (before ++ other :: front) ++ [last] := by
      simpa using hsplit
    exact h before other front (List.append_inj' hlonger rfl).1

end Justified

/-- What is written last differs from what was written before it. -/
theorem isChain_ne_write {values : List ρ} {first value : ρ}
    (h : (first :: values).IsChain (· ≠ ·)) (hvalue : values.getLastD first ≠ value) :
    (first :: (values ++ [value])).IsChain (· ≠ ·) := by
  rw [← List.cons_append, List.isChain_append]
  refine ⟨h, List.isChain_singleton value, ?_⟩
  intro last hlast next hnext
  rw [List.getLast?_cons] at hlast
  obtain rfl : value = next := by simpa using hnext
  obtain rfl : values.getLastD first = last := by simpa [List.getLastD_eq_getLast?] using hlast
  exact hvalue

end Foundations
end AppTraverse
