import Mathlib.Data.List.Nodup
import Mathlib.Data.List.Perm.Basic

/-!
# Walks with a stack of what is left to visit

A walk queues every element once, and visits the one that was queued last.  If all that can be
queued is in a list, a walk with that many steps visits everything that was queued, and what it
visited is closed under the edges.
-/

namespace AppTraverse
namespace Foundations

variable {α : Type} [DecidableEq α]

/-- What is left to visit, what was queued, and what was visited. -/
structure Worklist (α : Type) where
  stack : List α := []
  queued : List α := []
  visited : List α := []

namespace Worklist

variable (next : α → List α)

/-- An element is queued, unless it was queued before. -/
def enqueue (work : Worklist α) (element : α) : Worklist α :=
  if element ∈ work.queued then work
  else { work with stack := element :: work.stack, queued := element :: work.queued }

/-- Several elements, one after the other. -/
def enqueueAll (work : Worklist α) (elements : List α) : Worklist α :=
  elements.foldl enqueue work

/-- The element on top of the stack is visited, and its neighbours are queued. -/
def visitTop (work : Worklist α) (element : α) (rest : List α) : Worklist α :=
  ({ work with stack := rest, visited := work.visited ++ [element] }).enqueueAll (next element)

/-- A walk of at most so many visits. -/
def walk : Nat → Worklist α → Worklist α
  | 0, work => work
  | fuel + 1, work =>
      match work.stack with
      | [] => work
      | element :: rest => walk fuel (work.visitTop next element rest)

variable {next} {work : Worklist α} {elements bound : List α} {element : α}

theorem mem_queued_enqueueAll : element ∈ (work.enqueueAll elements).queued ↔
    element ∈ work.queued ∨ element ∈ elements := by
  unfold enqueueAll
  induction elements generalizing work with
  | nil => simp
  | cons head tail ih =>
      rw [List.foldl_cons, ih]
      unfold enqueue
      split
      case isTrue hmem =>
        constructor
        · exact fun h => h.imp_right (List.mem_cons_of_mem _)
        · rintro (hold | hnew)
          · exact Or.inl hold
          · rcases List.mem_cons.mp hnew with rfl | htail
            · exact Or.inl hmem
            · exact Or.inr htail
      case isFalse =>
        simp only [List.mem_cons]
        tauto

@[simp] theorem visited_enqueueAll : (work.enqueueAll elements).visited = work.visited := by
  unfold enqueueAll
  induction elements generalizing work with
  | nil => rfl
  | cons head tail ih =>
      rw [List.foldl_cons, ih]
      unfold enqueue
      split
      case isTrue => rfl
      case isFalse => rfl

/-- The part of `bound` that was not queued, and what is left to visit. -/
def room (bound : List α) (work : Worklist α) : Nat :=
  (bound.filter fun element => decide (element ∉ work.queued)).length + work.stack.length

/-- What is queued is visited or left to visit, and is in `bound`. -/
structure IsSound (bound : List α) (work : Worklist α) : Prop where
  parts : work.queued.Perm (work.visited ++ work.stack)
  once : work.queued.Nodup
  within : ∀ element ∈ work.queued, element ∈ bound

/-- The neighbours of what was visited are queued. -/
def IsExpanded (next : α → List α) (work : Worklist α) : Prop :=
  ∀ element ∈ work.visited, ∀ neighbour ∈ next element, neighbour ∈ work.queued

omit [DecidableEq α] in
theorem isSound_initial : IsSound bound ({} : Worklist α) where
  parts := List.Perm.refl _
  once := List.nodup_nil
  within := by simp

namespace IsSound

theorem enqueue (h : work.IsSound bound) (helement : element ∈ bound) :
    (work.enqueue element).IsSound bound := by
  unfold Worklist.enqueue
  split
  case isTrue => exact h
  case isFalse hnew =>
    refine ⟨?_, List.nodup_cons.mpr ⟨hnew, h.once⟩, ?_⟩
    · exact (h.parts.cons element).trans List.perm_middle.symm
    · intro other hother
      rcases List.mem_cons.mp hother with rfl | hother
      · exact helement
      · exact h.within other hother

theorem enqueueAll (h : work.IsSound bound) (helements : ∀ element ∈ elements, element ∈ bound) :
    (work.enqueueAll elements).IsSound bound := by
  induction elements generalizing work with
  | nil => exact h
  | cons head tail ih =>
      exact ih (h.enqueue (helements head List.mem_cons_self)) fun element helement =>
        helements element (List.mem_cons_of_mem _ helement)

omit [DecidableEq α] in
/-- The top of the stack counts as visited. -/
theorem pop (h : work.IsSound bound) {rest : List α} (hstack : work.stack = element :: rest) :
    IsSound bound { work with stack := rest, visited := work.visited ++ [element] } := by
  refine ⟨?_, h.once, h.within⟩
  have hparts := h.parts
  rw [hstack] at hparts
  simpa using hparts

end IsSound

/-- Queueing takes from the one part of the room what it adds to the other. -/
theorem room_enqueue (hbound : bound.Nodup) (helement : element ∈ bound) :
    (work.enqueue element).room bound = work.room bound := by
  unfold enqueue
  split
  case isTrue => rfl
  case isFalse hnew =>
    have hfilter : (bound.filter fun other => decide (other ∉ element :: work.queued)) =
        (bound.filter fun other => decide (other ∉ work.queued)).erase element := by
      rw [(hbound.filter _).erase_eq_filter, List.filter_filter]
      apply List.filter_congr
      intro other _
      by_cases hsame : other = element
      · simp [hsame]
      · simp [hsame]
    have hmem : element ∈ bound.filter fun other => decide (other ∉ work.queued) :=
      List.mem_filter.mpr ⟨helement, decide_eq_true hnew⟩
    have hlength := List.length_erase_of_mem hmem
    have hpositive := List.length_pos_of_mem hmem
    unfold room
    dsimp only
    rw [hfilter, hlength, List.length_cons]
    omega

theorem room_enqueueAll (hbound : bound.Nodup) (helements : ∀ element ∈ elements, element ∈ bound) :
    (work.enqueueAll elements).room bound = work.room bound := by
  induction elements generalizing work with
  | nil => rfl
  | cons head tail ih =>
      exact (ih fun element helement => helements element (List.mem_cons_of_mem _ helement)).trans
        (room_enqueue hbound (helements head List.mem_cons_self))

variable {fuel : Nat}

/-- A walk with room for all that can be queued ends with an empty stack. -/
theorem walk_ends (hbound : bound.Nodup)
    (hnext : ∀ element ∈ bound, ∀ neighbour ∈ next element, neighbour ∈ bound)
    (hsound : work.IsSound bound) (hexpanded : work.IsExpanded next)
    (hfuel : work.room bound ≤ fuel) :
    (work.walk next fuel).stack = [] ∧ (work.walk next fuel).IsSound bound ∧
      (work.walk next fuel).IsExpanded next ∧
      ∀ element ∈ work.queued, element ∈ (work.walk next fuel).queued := by
  induction fuel generalizing work with
  | zero =>
      have hstack : work.stack = [] := by
        unfold room at hfuel
        exact List.eq_nil_of_length_eq_zero (by omega)
      exact ⟨hstack, hsound, hexpanded, fun _ hmem => hmem⟩
  | succ fuel ih =>
      unfold walk
      split
      case h_1 hstack => exact ⟨hstack, hsound, hexpanded, fun _ hmem => hmem⟩
      case h_2 element rest hstack =>
        have hmem : element ∈ bound := by
          apply hsound.within
          rw [hsound.parts.mem_iff, hstack]
          simp
        have hpopped := hsound.pop hstack
        have hroom : room bound { work with
            stack := rest, visited := work.visited ++ [element] } ≤ fuel := by
          have hbefore : work.room bound =
              (bound.filter fun other => decide (other ∉ work.queued)).length +
                (rest.length + 1) := by
            rw [room, hstack, List.length_cons]
          unfold room
          dsimp only
          omega
        rw [← room_enqueueAll hbound (hnext element hmem)] at hroom
        have hexpanded' : (work.visitTop next element rest).IsExpanded next := by
          intro other hother neighbour hneighbour
          unfold visitTop at hother ⊢
          rw [visited_enqueueAll] at hother
          rw [mem_queued_enqueueAll]
          rcases List.mem_append.mp hother with hother | hother
          · exact Or.inl (hexpanded other hother neighbour hneighbour)
          · cases List.mem_singleton.mp hother
            exact Or.inr hneighbour
        obtain ⟨hend, hsound', hclosed, hkept⟩ :=
          ih (hpopped.enqueueAll (hnext element hmem)) hexpanded' hroom
        exact ⟨hend, hsound', hclosed, fun other hother =>
          hkept other (mem_queued_enqueueAll.mpr (Or.inl hother))⟩

end Worklist
end Foundations
end AppTraverse
