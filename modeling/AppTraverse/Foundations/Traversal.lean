import Mathlib.Data.List.Forall2

/-!
# Fallible traversals of lists

When `List.mapM` succeeds, the results are those of the single elements, in
order.  The same statement serves `Option` and `Except`.
-/

namespace AppTraverse
namespace Foundations

variable {α β φ : Type}

/-- A traversal in `Option` succeeds exactly when every element does. -/
theorem mapM_option_eq_some_iff {f : α → Option β} {l : List α} {results : List β} :
    l.mapM f = some results ↔ List.Forall₂ (fun a b => f a = some b) l results := by
  induction l generalizing results with
  | nil =>
      rw [List.mapM_nil, List.forall₂_nil_left_iff]
      exact ⟨fun h => (Option.some.inj h).symm, fun h => congrArg some h.symm⟩
  | cons head tail ih =>
      rw [List.mapM_cons, List.forall₂_cons_left_iff]
      constructor
      · intro h
        obtain ⟨b, hb, h⟩ := Option.bind_eq_some_iff.mp h
        obtain ⟨rest, hrest, h⟩ := Option.bind_eq_some_iff.mp h
        exact ⟨b, rest, hb, ih.mp hrest, (Option.some.inj h).symm⟩
      · rintro ⟨b, rest, hb, hrest, rfl⟩
        rw [hb, ih.mpr hrest]
        rfl

/-- A traversal in `Option` succeeds when every element does. -/
theorem exists_mapM_option {f : α → Option β} {l : List α} (h : ∀ a ∈ l, ∃ b, f a = some b) :
    ∃ results, l.mapM f = some results := by
  induction l with
  | nil => exact ⟨[], rfl⟩
  | cons head tail ih =>
      obtain ⟨b, hb⟩ := h head List.mem_cons_self
      obtain ⟨rest, hrest⟩ := ih fun a ha => h a (List.mem_cons_of_mem _ ha)
      exact ⟨b :: rest, by rw [List.mapM_cons, hb, hrest]; rfl⟩

/-- A traversal in `Except` succeeds exactly when every element does. -/
theorem mapM_except_eq_ok_iff {f : α → Except φ β} {l : List α} {results : List β} :
    l.mapM f = .ok results ↔ List.Forall₂ (fun a b => f a = .ok b) l results := by
  induction l generalizing results with
  | nil =>
      rw [List.mapM_nil, List.forall₂_nil_left_iff]
      exact ⟨fun h => (Except.ok.inj h).symm, fun h => congrArg Except.ok h.symm⟩
  | cons head tail ih =>
      rw [List.mapM_cons, List.forall₂_cons_left_iff]
      cases hb : f head with
      | error reason => simp [bind, Except.bind]
      | ok b =>
          cases hrest : tail.mapM f with
          | error reason =>
              have hnone : ∀ rest, ¬ List.Forall₂ (fun a b => f a = .ok b) tail rest :=
                fun rest h => by simpa [hrest] using ih.mpr h
              simp [bind, Except.bind, hnone]
          | ok rest =>
              constructor
              · intro h
                exact ⟨b, rest, rfl, ih.mp hrest, (Except.ok.inj h).symm⟩
              · rintro ⟨b', rest', hb', hrest', rfl⟩
                cases hb'
                rw [ih.mpr hrest'] at hrest
                cases hrest
                rfl

/-- A fold in `Except` succeeds where every step keeps what the steps need.  What a step does
for its element must be kept by the steps after it. -/
theorem foldlM_except_progress {f : β → α → Except φ β} {Holds : β → Prop}
    (Done : α → β → Prop) {l : List α} (hstep : ∀ a ∈ l, ∀ b, Holds b → ∃ next, f b a = .ok next ∧ Holds next ∧
      Done a next ∧ ∀ other, Done other b → Done other next) {b : β} (hholds : Holds b) :
    ∃ next, l.foldlM f b = .ok next ∧ Holds next ∧ (∀ a ∈ l, Done a next) ∧
      ∀ other, Done other b → Done other next := by
  induction l generalizing b with
  | nil => exact ⟨b, rfl, hholds, by simp, fun _ h => h⟩
  | cons head tail ih =>
      obtain ⟨first, hfirst, hheld, hdone, hkept⟩ := hstep head List.mem_cons_self b hholds
      obtain ⟨next, hnext, hend, hall, hrest⟩ :=
        ih (fun a ha => hstep a (List.mem_cons_of_mem _ ha)) hheld
      refine ⟨next, ?_, hend, ?_, fun other hother => hrest other (hkept other hother)⟩
      · rw [List.foldlM_cons, hfirst]
        exact hnext
      · intro a ha
        rcases List.mem_cons.mp ha with rfl | htail
        · exact hrest a hdone
        · exact hall a htail

/-- What every step of a fold in `Except` keeps, the fold keeps. -/
theorem foldlM_except_invariant {f : β → α → Except φ β} {Holds : β → Prop}
    (hstep : ∀ b a next, Holds b → f b a = .ok next → Holds next) {l : List α} {b last : β}
    (hholds : Holds b) (h : l.foldlM f b = .ok last) : Holds last := by
  induction l generalizing b with
  | nil => exact Except.ok.inj h ▸ hholds
  | cons head tail ih =>
      rw [List.foldlM_cons] at h
      cases hnext : f b head with
      | error reason =>
          rw [hnext] at h
          cases h
      | ok next =>
          rw [hnext] at h
          exact ih (hstep b head next hholds hnext) h

/-- A traversal depends on its function at the elements only. -/
theorem mapM_congr_of_mem {μ : Type → Type} [Monad μ] [LawfulMonad μ] {f g : α → μ β}
    {l : List α} (h : ∀ a ∈ l, f a = g a) : l.mapM f = l.mapM g := by
  induction l with
  | nil => rfl
  | cons head tail ih =>
      rw [List.mapM_cons, List.mapM_cons, h head List.mem_cons_self,
        ih fun a ha => h a (List.mem_cons_of_mem _ ha)]

/-- A relation of corresponding elements that follows from another one, given the
element on the left. -/
theorem forall₂_imp_of_mem {R S : α → β → Prop} {l : List α} {l' : List β}
    (h : List.Forall₂ R l l') (himp : ∀ a ∈ l, ∀ b, R a b → S a b) : List.Forall₂ S l l' := by
  induction h with
  | nil => exact List.Forall₂.nil
  | cons hhead htail ih =>
      exact List.Forall₂.cons (himp _ List.mem_cons_self _ hhead)
        (ih fun a ha => himp a (List.mem_cons_of_mem _ ha))

/-- Corresponding elements of a related pair of lists. -/
theorem forall₂_exists_of_mem_right {R : α → β → Prop} {l : List α} {l' : List β}
    (h : List.Forall₂ R l l') {b : β} (hb : b ∈ l') : ∃ a ∈ l, R a b := by
  induction h with
  | nil => cases hb
  | cons hhead htail ih =>
      rcases List.mem_cons.mp hb with rfl | hmem
      · exact ⟨_, List.mem_cons_self, hhead⟩
      · obtain ⟨a, ha, hR⟩ := ih hmem
        exact ⟨a, List.mem_cons_of_mem _ ha, hR⟩

/-- Corresponding elements of a related pair of lists. -/
theorem forall₂_exists_of_mem_left {R : α → β → Prop} {l : List α} {l' : List β}
    (h : List.Forall₂ R l l') {a : α} (ha : a ∈ l) : ∃ b ∈ l', R a b := by
  obtain ⟨b, hb, hR⟩ := forall₂_exists_of_mem_right h.flip ha
  exact ⟨b, hb, hR⟩

/-- An element related twice to corresponding elements of one list. -/
theorem forall₂_exists_of_mem_both {R S : α → β → Prop} {l : List α} {l' : List β}
    (h : List.Forall₂ R l l') (h' : List.Forall₂ S l l') {a : α} (ha : a ∈ l) :
    ∃ b, R a b ∧ S a b := by
  induction h with
  | nil => cases ha
  | cons hhead htail ih =>
      cases h' with
      | cons hhead' htail' =>
          rcases List.mem_cons.mp ha with rfl | hmem
          · exact ⟨_, hhead, hhead'⟩
          · exact ih htail' hmem

end Foundations
end AppTraverse
