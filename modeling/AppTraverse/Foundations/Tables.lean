import Mathlib.Data.List.AList

/-!
# Tables of values

Association lists whose keys do not determine the type of the value: a map of all values,
and predicates that hold of every value of a table.
-/

namespace AppTraverse
namespace Foundations

variable {κ β γ : Type} [DecidableEq κ]

/-- A function applied to every value. -/
def mapValues (f : β → γ) (table : AList fun _ : κ => β) : AList fun _ : κ => γ :=
  ⟨table.entries.map (Sigma.map id fun _ => f), table.nodupKeys.map₂ fun _ => f⟩

@[simp] theorem lookup_mapValues {f : β → γ} {table : AList fun _ : κ => β} {key : κ} :
    (mapValues f table).lookup key = (table.lookup key).map f :=
  List.dlookup_map₂ key

/-- A predicate of every value under its key. -/
def Everywhere (p : κ → β → Prop) (table : AList fun _ : κ => β) : Prop :=
  ∀ key value, table.lookup key = some value → p key value

namespace Everywhere

variable {p q : κ → β → Prop} {table : AList fun _ : κ => β}

theorem empty : Everywhere p (∅ : AList fun _ : κ => β) := by
  intro key value h
  rw [AList.lookup_empty] at h
  cases h

theorem insert (h : Everywhere p table) {key : κ} {value : β} (hvalue : p key value) :
    Everywhere p (table.insert key value) := by
  intro other found hfound
  by_cases hsame : other = key
  · subst hsame
    rw [AList.lookup_insert] at hfound
    cases hfound
    exact hvalue
  · rw [AList.lookup_insert_ne hsame] at hfound
    exact h other found hfound

theorem mapValues {p : κ → γ → Prop} {f : β → γ}
    (h : Everywhere (fun key value => p key (f value)) table) :
    Everywhere p (Foundations.mapValues f table) := by
  intro key found hfound
  rw [lookup_mapValues] at hfound
  obtain ⟨value, hvalue, rfl⟩ := Option.map_eq_some_iff.mp hfound
  exact h key value hvalue

theorem mono (h : Everywhere p table) (himp : ∀ key value, p key value → q key value) :
    Everywhere q table :=
  fun key value hvalue => himp key value (h key value hvalue)

end Everywhere

/-- A key that is in the table stays in it when another one is inserted. -/
theorem isSome_lookup_insert {table : AList fun _ : κ => β} {key other : κ} {value : β}
    (h : (table.lookup key).isSome = true) :
    ((table.insert other value).lookup key).isSome = true := by
  by_cases hsame : key = other
  · subst hsame
    rw [AList.lookup_insert]
    rfl
  · rw [AList.lookup_insert_ne hsame]
    exact h

end Foundations
end AppTraverse
