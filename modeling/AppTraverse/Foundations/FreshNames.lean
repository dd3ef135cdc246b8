import Mathlib.Data.List.Nodup

/-!
# Drawing fresh names from a stream

A generator offers names one after another, possibly some of them again.  `drawNames`
takes the first acceptable offer for each of a list of keys, and what it has taken is no
longer acceptable.  It ends up with the first distinct acceptable offers, in order.
-/

namespace AppTraverse
namespace Foundations

variable {κ ν : Type} [DecidableEq ν]

/-- The first acceptable offer, and the stream behind it. -/
def drawName (accept : ν → Bool) : List ν → Option (ν × List ν)
  | [] => none
  | name :: rest => if accept name then some (name, rest) else drawName accept rest

/-- One name for each key. -/
def drawNames (free : ν → Bool) : List κ → List ν → List ν → Option (List (κ × ν))
  | [], _, _ => some []
  | key :: keys, taken, stream =>
      (drawName (fun name => free name && decide (name ∉ taken)) stream).bind fun drawn =>
        (drawNames free keys (drawn.1 :: taken) drawn.2).map ((key, drawn.1) :: ·)

/-- The distinct acceptable offers of a stream, in order. -/
def freshOffers (free : ν → Bool) (taken stream : List ν) : List ν :=
  (stream.filter fun name => free name && decide (name ∉ taken)).eraseDups

theorem mem_freshOffers {free : ν → Bool} {taken stream : List ν} {name : ν} :
    name ∈ freshOffers free taken stream ↔
      name ∈ stream ∧ free name = true ∧ name ∉ taken := by
  simp [freshOffers, List.mem_eraseDups]

/-- Without its duplicates a list has none. -/
theorem nodup_eraseDups (l : List ν) : l.eraseDups.Nodup := by
  induction hlength : l.length using Nat.strongRecOn generalizing l with
  | ind length ih =>
      cases l with
      | nil => exact List.nodup_nil
      | cons head tail =>
          rw [List.eraseDups_cons, List.nodup_cons]
          constructor
          · rw [List.mem_eraseDups]
            simp
          · have hle := List.length_filter_le (fun name => !name == head) tail
            rw [List.length_cons] at hlength
            exact ih _ (by omega) _ rfl

theorem nodup_freshOffers (free : ν → Bool) (taken stream : List ν) :
    (freshOffers free taken stream).Nodup :=
  nodup_eraseDups _

/-- An offer that is not acceptable is passed over; an acceptable one is taken. -/
theorem freshOffers_of_drawName {free : ν → Bool} {taken stream : List ν} :
    freshOffers free taken stream =
      match drawName (fun name => free name && decide (name ∉ taken)) stream with
      | none => []
      | some drawn => drawn.1 :: freshOffers free (drawn.1 :: taken) drawn.2 := by
  induction stream with
  | nil => rfl
  | cons name rest ih =>
      rw [freshOffers, drawName, List.filter_cons]
      cases haccept : free name && decide (name ∉ taken) with
      | false => exact ih
      | true =>
          simp only [if_true, List.eraseDups_cons]
          refine congrArg (name :: ·) (congrArg List.eraseDups ?_)
          rw [List.filter_filter]
          refine List.filter_congr fun other _ => ?_
          by_cases hsame : other = name
          · simp [hsame]
          · simp [hsame]

/-- Names are drawn as long as there are enough offers, and they are the first ones. -/
theorem drawNames_eq (free : ν → Bool) (keys : List κ) (taken stream : List ν) :
    drawNames free keys taken stream =
      if keys.length ≤ (freshOffers free taken stream).length then
        some (keys.zip (freshOffers free taken stream))
      else none := by
  induction keys generalizing taken stream with
  | nil => simp [drawNames]
  | cons key keys ih =>
      rw [drawNames, freshOffers_of_drawName]
      cases drawName (fun name => free name && decide (name ∉ taken)) stream with
      | none => simp
      | some drawn =>
          rw [Option.bind_some, ih]
          simp only [List.length_cons, Nat.add_le_add_iff_right]
          split <;> simp

omit [DecidableEq ν] in
/-- Pairing names with keys leaves out the last names at most. -/
theorem sublist_map_snd_zip (keys : List κ) (names : List ν) :
    ((keys.zip names).map Prod.snd).Sublist names := by
  induction keys generalizing names with
  | nil => exact List.nil_sublist _
  | cons key keys ih =>
      cases names with
      | nil => exact List.Sublist.slnil
      | cons name names => exact (ih names).cons_cons name

section Tables

variable [DecidableEq κ] {table : List (κ × ν)} {key : κ} {name : ν}

omit [DecidableEq ν] in
theorem mem_of_lookup_eq_some (h : table.lookup key = some name) : (key, name) ∈ table := by
  obtain ⟨before, after, rfl, -⟩ := List.lookup_eq_some_iff.mp h
  exact List.mem_append_right _ List.mem_cons_self

omit [DecidableEq ν] in
/-- In a table with distinct keys every entry is found. -/
theorem lookup_eq_some_of_mem (hkeys : (table.map Prod.fst).Nodup) (h : (key, name) ∈ table) :
    table.lookup key = some name := by
  obtain ⟨before, after, rfl⟩ := List.append_of_mem h
  refine List.lookup_eq_some_iff.mpr ⟨before, after, rfl, fun entry hentry => ?_⟩
  rw [List.map_append, List.nodup_append] at hkeys
  have hne := hkeys.2.2 entry.1 (List.mem_map_of_mem hentry) key (by simp)
  simpa using Ne.symm hne

omit [DecidableEq ν] in
theorem exists_lookup_of_mem (h : key ∈ table.map Prod.fst) :
    ∃ name, table.lookup key = some name := by
  rw [← Option.isSome_iff_exists, List.lookup_isSome_iff]
  obtain ⟨entry, hentry, rfl⟩ := List.mem_map.mp h
  exact ⟨entry, hentry, beq_self_eq_true _⟩

omit [DecidableEq ν] in
/-- In a table with distinct names no two keys have one name. -/
theorem key_eq_of_lookup_eq (hnames : (table.map Prod.snd).Nodup) {other : κ}
    (h : table.lookup key = some name) (hother : table.lookup other = some name) :
    key = other := by
  have hsame := List.inj_on_of_nodup_map hnames (mem_of_lookup_eq_some h)
    (mem_of_lookup_eq_some hother) rfl
  exact congrArg Prod.fst hsame

end Tables

end Foundations
end AppTraverse
