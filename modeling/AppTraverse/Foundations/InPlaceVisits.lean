import Mathlib.Data.List.Count
import Mathlib.Logic.Function.Basic

/-!
# Visiting registers in place

A traversal visits registers in some order, possibly one of them several times.  Each
visit replaces the value of its register by `update` of it and emits the new value.

`emitted_eq_map_iff` says when the traversal cannot be told from one that maps `update`
over the values the registers had: `update` has to be idempotent on the value of every
register that is visited more than once.
-/

namespace AppTraverse
namespace Foundations

variable {ι γ : Type} [DecidableEq ι] (update : ι → γ → γ)

/-- The registers after a traversal, and what it emitted. -/
def visitInPlace (values : ι → γ) : List ι → (ι → γ) × List γ
  | [] => (values, [])
  | register :: rest =>
      let value := update register (values register)
      let after := visitInPlace (Function.update values register value) rest
      (after.1, value :: after.2)

variable {update}

theorem visitInPlace_cons {values : ι → γ} {register : ι} {rest : List ι} :
    visitInPlace update values (register :: rest) =
      let after := visitInPlace update
        (Function.update values register (update register (values register))) rest
      (after.1, update register (values register) :: after.2) :=
  rfl

theorem visitInPlace_append {values : ι → γ} {first second : List ι} :
    visitInPlace update values (first ++ second) =
      let middle := visitInPlace update values first
      let after := visitInPlace update middle.1 second
      (after.1, middle.2 ++ after.2) := by
  induction first generalizing values with
  | nil => rfl
  | cons register rest ih =>
      rw [List.cons_append, visitInPlace_cons, ih, visitInPlace_cons]
      rfl

/-- One value is emitted at each visit. -/
theorem length_emitted {values : ι → γ} {visits : List ι} :
    (visitInPlace update values visits).2.length = visits.length := by
  induction visits generalizing values with
  | nil => rfl
  | cons register rest ih => simp [visitInPlace_cons, ih]

/-- A register that is not visited keeps its value. -/
theorem visited_of_not_mem {values : ι → γ} {visits : List ι} {register : ι}
    (h : register ∉ visits) : (visitInPlace update values visits).1 register = values register := by
  induction visits generalizing values with
  | nil => rfl
  | cons first rest ih =>
      rw [List.mem_cons, not_or] at h
      rw [visitInPlace_cons]
      exact (ih h.2).trans (Function.update_of_ne h.1 _ _)

/-- The first visit of a register emits the update of the value it had. -/
theorem exists_first_visit {values : ι → γ} {visits : List ι} {register : ι}
    (h : register ∈ visits) :
    ∃ position : Nat, visits[position]? = some register ∧
      (visitInPlace update values visits).2[position]? =
        some (update register (values register)) := by
  induction visits generalizing values with
  | nil => cases h
  | cons first rest ih =>
      by_cases hsame : register = first
      · subst hsame
        exact ⟨0, rfl, rfl⟩
      · have hrest : register ∈ rest := (List.mem_cons.mp h).resolve_left hsame
        obtain ⟨position, hvisit, hemitted⟩ :=
          @ih (Function.update values first (update first (values first))) hrest
        rw [Function.update_of_ne hsame] at hemitted
        exact ⟨position + 1, hvisit, hemitted⟩

/-- A traversal emits what a map would exactly when the update is idempotent wherever it
is made twice. -/
theorem emitted_eq_map_iff {values : ι → γ} {visits : List ι} :
    (visitInPlace update values visits).2 =
        visits.map (fun register => update register (values register)) ↔
      ∀ register, 1 < visits.count register →
        update register (update register (values register)) =
          update register (values register) := by
  induction visits generalizing values with
  | nil => simp [visitInPlace]
  | cons first rest ih =>
      rw [visitInPlace_cons, List.map_cons]
      simp only [List.cons.injEq, true_and]
      have hother : ∀ register, register ≠ first →
          Function.update values first (update first (values first)) register =
            values register := fun register hne => Function.update_of_ne hne _ _
      have hfirst : Function.update values first (update first (values first)) first =
          update first (values first) := Function.update_self _ _ _
      -- Where the first register is stable, the rest is the same traversal on both sides.
      have hstable : (first ∈ rest → update first (update first (values first)) =
          update first (values first)) →
          (rest.map fun register => update register (Function.update values first
              (update first (values first)) register)) =
            rest.map fun register => update register (values register) := by
        intro hidempotent
        refine List.map_congr_left fun register hregister => ?_
        by_cases hsame : register = first
        · subst hsame
          rw [hfirst]
          exact hidempotent hregister
        · rw [hother register hsame]
      constructor
      · intro hemitted register hcount
        have hidempotent : first ∈ rest → update first (update first (values first)) =
            update first (values first) := by
          intro hmem
          obtain ⟨position, hvisit, hvalue⟩ := @exists_first_visit _ _ _ update
            (Function.update values first (update first (values first))) _ _ hmem
          rw [hfirst, hemitted, List.getElem?_map, hvisit] at hvalue
          exact (Option.some.inj hvalue).symm
        by_cases hsame : register = first
        · subst hsame
          rw [List.count_cons_self] at hcount
          exact hidempotent (List.count_pos_iff.mp (by omega))
        · rw [List.count_cons_of_ne (Ne.symm hsame)] at hcount
          have hrest := ih.mp (hemitted.trans (hstable hidempotent).symm) register hcount
          rwa [hother register hsame] at hrest
      · intro hall
        have hidempotent : first ∈ rest → update first (update first (values first)) =
            update first (values first) := by
          intro hmem
          refine hall first ?_
          rw [List.count_cons_self]
          have hpos := List.count_pos_iff.mpr hmem
          omega
        rw [← hstable hidempotent]
        refine ih.mpr fun register hcount => ?_
        by_cases hsame : register = first
        · subst hsame
          have hmem : register ∈ rest := List.count_pos_iff.mp (by omega)
          rw [hfirst, hidempotent hmem, hidempotent hmem]
        · rw [hother register hsame]
          refine hall register ?_
          rw [List.count_cons_of_ne (Ne.symm hsame)]
          exact hcount

/-- If a traversal emits what any map would, the map is that of the updates. -/
theorem emitted_eq_map_of_eq_map {values : ι → γ} {visits : List ι} {value : ι → γ}
    (h : (visitInPlace update values visits).2 = visits.map value) :
    (visitInPlace update values visits).2 =
      visits.map fun register => update register (values register) := by
  rw [h]
  refine List.map_congr_left fun register hregister => ?_
  obtain ⟨position, hvisit, hemitted⟩ := @exists_first_visit _ _ _ update values _ _ hregister
  rw [h, List.getElem?_map, hvisit] at hemitted
  exact Option.some.inj hemitted

/-- What a visited register holds after such a traversal. -/
theorem visited_of_mem {values : ι → γ} {visits : List ι}
    (hidempotent : ∀ register, 1 < visits.count register →
      update register (update register (values register)) = update register (values register))
    {register : ι} (hmem : register ∈ visits) :
    (visitInPlace update values visits).1 register = update register (values register) := by
  induction visits generalizing values with
  | nil => cases hmem
  | cons first rest ih =>
      rw [visitInPlace_cons]
      by_cases hagain : register ∈ rest
      · have hrest : (visitInPlace update
            (Function.update values first (update first (values first))) rest).1 register =
            update register (Function.update values first (update first (values first))
              register) := by
          refine ih (fun other hcount => ?_) hagain
          by_cases hsame : other = first
          · subst hsame
            have hstable := hidempotent other (by rw [List.count_cons_self]; omega)
            rw [Function.update_self, hstable, hstable]
          · rw [Function.update_of_ne hsame]
            exact hidempotent other (by rwa [List.count_cons_of_ne (Ne.symm hsame)])
        refine hrest.trans ?_
        by_cases hsame : register = first
        · subst hsame
          rw [Function.update_self]
          refine hidempotent register ?_
          rw [List.count_cons_self]
          have hpos := List.count_pos_iff.mpr hagain
          omega
        · rw [Function.update_of_ne hsame]
      · have hsame : register = first := (List.mem_cons.mp hmem).resolve_right hagain
        subst hsame
        exact (visited_of_not_mem hagain).trans (Function.update_self _ _ _)

end Foundations
end AppTraverse
