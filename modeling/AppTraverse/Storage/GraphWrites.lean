import AppTraverse.Runtime.SharedSyncRuntime

/-!
# What is in a storage map after writes
-/

namespace AppTraverse

variable {α ε : Type} (aether : Aether α ε)

theorem layers?_insert (storage : RamDomainStorage) (id other : ObjId)
    (value : Option Layers) :
    RamDomainStorage.layers? (storage.insert id value) other =
      if other = id then value else storage.layers? other := by
  rw [RamDomainStorage.layers?, RamDomainStorage.layers?]
  by_cases hsame : other = id
  · subst hsame
    rw [AList.lookup_insert, if_pos rfl]
    rfl
  · rw [AList.lookup_insert_ne hsame, if_neg hsame]

/-- Writing objects leaves every other id as it is. -/
theorem layers?_storeObjects_of_notMem {storage : RamDomainStorage}
    {objects : List (ObjId × StoredObject α ε)} {id : ObjId}
    (h : ∀ object ∈ objects, object.1 ≠ id) :
    (storeObjects aether storage objects).layers? id = storage.layers? id := by
  induction objects generalizing storage with
  | nil => rfl
  | cons head tail ih =>
      have htail := @ih (storage.insert head.1 (some (aether.saveObject head.2)))
        (fun object hobject => h object (List.mem_cons_of_mem _ hobject))
      rw [storeObjects, List.foldl_cons]
      rw [storeObjects] at htail
      rw [htail, layers?_insert, if_neg (h head List.mem_cons_self).symm]

/-- Every object that is written is there afterwards. -/
theorem isSome_layers?_storeObjects (storage : RamDomainStorage)
    (objects : List (ObjId × StoredObject α ε)) (id : ObjId)
    (h : (∃ object ∈ objects, object.1 = id) ∨ (storage.layers? id).isSome = true) :
    ((storeObjects aether storage objects).layers? id).isSome = true := by
  induction objects generalizing storage with
  | nil =>
      rcases h with ⟨object, hobject, -⟩ | h
      · cases hobject
      · exact h
  | cons head tail ih =>
      rw [storeObjects, List.foldl_cons]
      refine ih _ ?_
      by_cases hhead : head.1 = id
      · right
        rw [layers?_insert, if_pos hhead.symm]
        rfl
      · rcases h with ⟨object, hobject, hid⟩ | h
        · rcases List.mem_cons.mp hobject with rfl | hmem
          · exact absurd hid hhead
          · exact Or.inl ⟨object, hmem, hid⟩
        · right
          rw [layers?_insert, if_neg (Ne.symm hhead)]
          exact h

/-- Committing a graph writes its live objects over what was there. -/
theorem layers?_commitObjectGraph (graph target : RamDomainStorage) (id : ObjId) :
    (commitObjectGraph graph target).layers? id =
      (graph.layers? id).or (target.layers? id) := by
  have hfold : ∀ (objects : List (ObjId × Layers)) (target : RamDomainStorage),
      (∀ object ∈ objects, object.1 = id → graph.layers? id = some object.2) →
      RamDomainStorage.layers? (objects.foldl
        (fun filled object => filled.insert object.1 (some object.2)) target) id =
        if ∃ object ∈ objects, object.1 = id then graph.layers? id
        else target.layers? id := by
    intro objects
    induction objects with
    | nil => simp
    | cons head tail ih =>
        intro target hvalues
        rw [List.foldl_cons, ih _ fun object h => hvalues object (List.mem_cons_of_mem _ h)]
        by_cases htail : ∃ object ∈ tail, object.1 = id
        · obtain ⟨object, hobject, hid⟩ := htail
          rw [if_pos ⟨object, hobject, hid⟩,
            if_pos ⟨object, List.mem_cons_of_mem _ hobject, hid⟩]
        · rw [if_neg htail, layers?_insert]
          by_cases hhead : head.1 = id
          · rw [if_pos hhead.symm, if_pos ⟨head, List.mem_cons_self, hhead⟩]
            exact (hvalues head List.mem_cons_self hhead).symm
          · rw [if_neg (Ne.symm hhead), if_neg]
            rintro ⟨object, hobject, hid⟩
            rcases List.mem_cons.mp hobject with rfl | hmem
            · exact hhead hid
            · exact htail ⟨object, hmem, hid⟩
  rw [commitObjectGraph, hfold graph.live target ?_]
  · cases hgraph : graph.layers? id with
    | none =>
        rw [if_neg]
        · rfl
        · rintro ⟨object, hobject, rfl⟩
          rw [RamDomainStorage.mem_live_iff.mp hobject] at hgraph
          cases hgraph
    | some layers =>
        rw [if_pos ⟨(id, layers), RamDomainStorage.mem_live_iff.mpr hgraph, rfl⟩]
        rfl
  · rintro object hobject rfl
    exact RamDomainStorage.mem_live_iff.mp hobject

/-- The first object is the one that is saved under its id. -/
theorem layers?_savedObjects_head (id : ObjId)
    (object : StoredObject α ε) (rest : List (ObjId × StoredObject α ε)) :
    (savedObjects aether ((id, object) :: rest)).layers? id =
      some (aether.saveObject object) := by
  rw [RamDomainStorage.layers?, savedObjects, List.map_cons, AList.lookup_to_alist,
    List.dlookup_cons_eq]
  rfl

/-- The object of a saved storage map is one of those that were saved. -/
theorem exists_of_layers?_savedObjects {objects : List (ObjId × StoredObject α ε)}
    {id : ObjId} {layers : Layers}
    (h : (savedObjects aether objects).layers? id = some layers) :
    ∃ object, (id, object) ∈ objects ∧ layers = aether.saveObject object := by
  rw [RamDomainStorage.layers?, savedObjects, AList.lookup_to_alist,
    Option.join_eq_some_iff] at h
  have hmem := List.of_mem_dlookup (Option.mem_def.mpr h)
  obtain ⟨object, hobject, hentry⟩ := List.mem_map.mp hmem
  cases hentry
  exact ⟨object.2, hobject, rfl⟩

end AppTraverse
