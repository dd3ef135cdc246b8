import Mathlib.Data.List.Nodup
import Mathlib.Logic.Function.Basic

/-!
# Setting values aside

A program takes something out of the values of a store, remembers it together with the
key, works on what is left, and later puts everything back in the order in which it was
taken.

Putting back restores the store if no key was visited twice: a second visit remembers what
the first one left, and is put back last.
-/

namespace AppTraverse
namespace Foundations

variable {κ ν τ : Type} [DecidableEq κ]

/-- A store of values. -/
abbrev KeyedStore (κ ν : Type) := κ → Option ν

/-- How a value is taken apart, and put together again. -/
structure Removal (ν τ : Type) where
  taken : ν → τ
  left : ν → ν
  putBack : τ → ν → ν
  putBack_left : ∀ value, putBack (taken value) (left value) = value

namespace KeyedStore

variable (removal : Removal ν τ)

/-- The value of one key is changed, if there is one. -/
def modify (store : KeyedStore κ ν) (key : κ) (change : ν → ν) : KeyedStore κ ν :=
  match store key with
  | none => store
  | some value => Function.update store key (some (change value))

/-- Several values are changed, one after the other. -/
def modifyAll (change : τ → ν → ν) (store : KeyedStore κ ν) (entries : List (κ × τ)) :
    KeyedStore κ ν :=
  entries.foldl (fun store entry => store.modify entry.1 (change entry.2)) store

/-- The store without what was taken out of some of its values, and what was taken. -/
def setAside (store : KeyedStore κ ν) : List κ → KeyedStore κ ν × List (κ × τ)
  | [] => (store, [])
  | key :: rest =>
      match store key with
      | none => setAside store rest
      | some value =>
          let after := setAside (store.modify key removal.left) rest
          (after.1, (key, removal.taken value) :: after.2)

/-- Everything is put back, in the order in which it was taken. -/
def restore (store : KeyedStore κ ν) (aside : List (κ × τ)) : KeyedStore κ ν :=
  store.modifyAll removal.putBack aside

variable {removal} {store : KeyedStore κ ν} {key : κ}

theorem modify_self (change : ν → ν) : store.modify key change key = (store key).map change := by
  unfold modify
  cases hvalue : store key with
  | none => simp [hvalue]
  | some value => simp

theorem modify_of_ne {other : κ} (h : other ≠ key) (change : ν → ν) :
    store.modify key change other = store other := by
  unfold modify
  cases store key with
  | none => rfl
  | some value => exact Function.update_of_ne h _ _

/-- A change keeps what is there and what is not. -/
@[simp] theorem modify_isSome (change : ν → ν) (other : κ) :
    (store.modify key change other).isSome = (store other).isSome := by
  by_cases h : other = key
  · rw [h, modify_self, Option.isSome_map]
  · rw [modify_of_ne h]

theorem setAside_of_none (h : store key = none) (rest : List κ) :
    store.setAside removal (key :: rest) = store.setAside removal rest := by
  rw [setAside, h]

theorem setAside_of_some {value : ν} (h : store key = some value) (rest : List κ) :
    store.setAside removal (key :: rest) =
      (((store.modify key removal.left).setAside removal rest).1, (key, removal.taken value) ::
        ((store.modify key removal.left).setAside removal rest).2) := by
  rw [setAside, h]

theorem setAside_of_not_mem {keys : List κ} (h : key ∉ keys) :
    (store.setAside removal keys).1 key = store key := by
  induction keys generalizing store with
  | nil => rfl
  | cons head rest ih =>
      rw [List.mem_cons, not_or] at h
      cases hvalue : store head with
      | none =>
          rw [setAside_of_none hvalue]
          exact ih h.2
      | some value =>
          rw [setAside_of_some hvalue]
          exact (ih h.2).trans (modify_of_ne h.1 _)

@[simp] theorem setAside_isSome (keys : List κ) (other : κ) :
    ((store.setAside removal keys).1 other).isSome = (store other).isSome := by
  induction keys generalizing store with
  | nil => rfl
  | cons head rest ih =>
      cases hvalue : store head with
      | none =>
          rw [setAside_of_none hvalue]
          exact ih
      | some value =>
          rw [setAside_of_some hvalue]
          exact ih.trans (modify_isSome _ _)

/-- What is left of each value, where no key is visited twice. -/
theorem setAside_of_mem {keys : List κ} (honce : keys.Nodup) (h : key ∈ keys) :
    (store.setAside removal keys).1 key = (store key).map removal.left := by
  induction keys generalizing store with
  | nil => cases h
  | cons head rest ih =>
      rw [List.nodup_cons] at honce
      cases hvalue : store head with
      | none =>
          rw [setAside_of_none hvalue]
          rcases List.mem_cons.mp h with rfl | hrest
          · rw [setAside_of_not_mem honce.1, hvalue]
            rfl
          · exact ih honce.2 hrest
      | some value =>
          rw [setAside_of_some hvalue]
          rcases List.mem_cons.mp h with rfl | hrest
          · exact (setAside_of_not_mem honce.1).trans (modify_self _)
          · have hne : key ≠ head := fun hsame => honce.1 (hsame ▸ hrest)
            exact (ih honce.2 hrest).trans (by rw [modify_of_ne hne])

/-- What was taken, where no key is visited twice. -/
theorem mem_setAside {keys : List κ} (honce : keys.Nodup) {entry : κ × τ} :
    entry ∈ (store.setAside removal keys).2 ↔
      entry.1 ∈ keys ∧ ∃ value, store entry.1 = some value ∧ entry.2 = removal.taken value := by
  induction keys generalizing store with
  | nil => simp [setAside]
  | cons head rest ih =>
      rw [List.nodup_cons] at honce
      cases hvalue : store head with
      | none =>
          rw [setAside_of_none hvalue, ih honce.2, List.mem_cons]
          constructor
          · rintro ⟨hrest, hfound⟩
            exact ⟨Or.inr hrest, hfound⟩
          · rintro ⟨hhead | hrest, found, hfound, htaken⟩
            · rw [hhead, hvalue] at hfound
              cases hfound
            · exact ⟨hrest, found, hfound, htaken⟩
      | some value =>
          rw [setAside_of_some hvalue, List.mem_cons, ih honce.2, List.mem_cons]
          constructor
          · rintro (rfl | ⟨hrest, found, hfound, htaken⟩)
            · exact ⟨Or.inl rfl, value, hvalue, rfl⟩
            · have hne : entry.1 ≠ head := fun hsame => honce.1 (hsame ▸ hrest)
              rw [modify_of_ne hne] at hfound
              exact ⟨Or.inr hrest, found, hfound, htaken⟩
          · rintro ⟨hhead | hrest, found, hfound, htaken⟩
            · rw [hhead, hvalue] at hfound
              cases hfound
              exact Or.inl (Prod.ext hhead htaken)
            · have hne : entry.1 ≠ head := fun hsame => honce.1 (hsame ▸ hrest)
              exact Or.inr ⟨hrest, found, (modify_of_ne hne _).trans hfound, htaken⟩

theorem keys_setAside_sublist (keys : List κ) :
    ((store.setAside removal keys).2.map Prod.fst).Sublist keys := by
  induction keys generalizing store with
  | nil => exact List.Sublist.slnil
  | cons head rest ih =>
      cases hvalue : store head with
      | none =>
          rw [setAside_of_none hvalue]
          exact ih.cons _
      | some value =>
          rw [setAside_of_some hvalue]
          exact ih.cons_cons _

@[simp] theorem modifyAll_isSome (change : τ → ν → ν) (entries : List (κ × τ)) (other : κ) :
    (store.modifyAll change entries other).isSome = (store other).isSome := by
  induction entries generalizing store with
  | nil => rfl
  | cons head rest ih => exact ih.trans (modify_isSome _ _)

theorem modifyAll_of_not_mem (change : τ → ν → ν) {entries : List (κ × τ)}
    (h : key ∉ entries.map Prod.fst) : store.modifyAll change entries key = store key := by
  induction entries generalizing store with
  | nil => rfl
  | cons head rest ih =>
      rw [List.map_cons, List.mem_cons, not_or] at h
      exact (ih h.2).trans (modify_of_ne h.1 _)

/-- A value is changed by the one entry that is for its key. -/
theorem modifyAll_of_mem (change : τ → ν → ν) {entries : List (κ × τ)}
    (honce : (entries.map Prod.fst).Nodup) {taken : τ} (h : (key, taken) ∈ entries) :
    store.modifyAll change entries key = (store key).map (change taken) := by
  induction entries generalizing store with
  | nil => cases h
  | cons head rest ih =>
      rw [List.map_cons, List.nodup_cons] at honce
      rw [modifyAll, List.foldl_cons]
      rcases List.mem_cons.mp h with rfl | hrest
      · exact (modifyAll_of_not_mem change honce.1).trans (modify_self _)
      · have hne : key ≠ head.1 := fun hsame => honce.1 (hsame ▸ List.mem_map_of_mem hrest)
        exact (ih honce.2 hrest).trans (by rw [modify_of_ne hne])

theorem restore_of_not_mem {aside : List (κ × τ)} (h : key ∉ aside.map Prod.fst) :
    store.restore removal aside key = store key :=
  modifyAll_of_not_mem removal.putBack h

/-- Putting back depends on what was set aside alone, key by key. -/
theorem restore_congr {aside : List (κ × τ)} {store' : KeyedStore κ ν}
    (h : store key = store' key) :
    store.restore removal aside key = store'.restore removal aside key := by
  induction aside generalizing store store' with
  | nil => exact h
  | cons head rest ih =>
      apply ih
      show store.modify head.1 _ key = store'.modify head.1 _ key
      by_cases hkey : key = head.1
      · rw [hkey, modify_self, modify_self, ← hkey, h]
      · rw [modify_of_ne hkey, modify_of_ne hkey, h]

/-- The store is what it was, once everything is put back. -/
theorem restore_setAside {keys : List κ} (honce : keys.Nodup) :
    (store.setAside removal keys).1.restore removal (store.setAside removal keys).2 = store := by
  funext key
  induction keys generalizing store with
  | nil => rfl
  | cons head rest ih =>
      rw [List.nodup_cons] at honce
      cases hvalue : store head with
      | none =>
          rw [setAside_of_none hvalue]
          exact ih honce.2
      | some value =>
          rw [setAside_of_some hvalue]
          by_cases hkey : key = head
          · -- The head is put back first, and nothing after it is about the head.
            have hrest : head ∉ ((store.modify head removal.left).setAside removal rest).2.map
                Prod.fst := fun hmem => honce.1 ((keys_setAside_sublist rest).subset hmem)
            rw [hkey, restore, modifyAll, List.foldl_cons]
            refine (restore_of_not_mem hrest).trans ?_
            rw [modify_self, setAside_of_not_mem honce.1, modify_self, hvalue]
            simp [removal.putBack_left]
          · rw [restore, modifyAll, List.foldl_cons]
            refine (restore_congr (modify_of_ne hkey _)).trans ?_
            rw [ih honce.2, modify_of_ne hkey]

end KeyedStore

end Foundations
end AppTraverse
