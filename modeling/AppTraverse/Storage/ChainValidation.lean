import AppTraverse.Foundations.Ancestry
import AppTraverse.Reference.ChatReplicas
import AppTraverse.Storage.ClassChains

/-!
# What the validation of stored class chains accepts

When the registered classes form a forest, `ValidateStoredClassChains` accepts exactly the
graphs whose objects can be loaded class by class, whatever numbers the class ids are and
in whatever order the layers are stored.  On such an object the pairwise check makes the
comparator of the sort a strict order, and the chain that is reported runs from base to
derived.
-/

namespace AppTraverse

open Foundations

section Validation

variable {α ε : Type} (aether : Aether α ε)

/-- `GenerationDistance` counts the steps from a registered class up to a registered base,
in a forest. -/
def FormsForest : Prop :=
  ∃ parent : ClassId → Option ClassId, Rooted parent ∧
    ∀ base derived, aether.isExisting base = true → aether.isExisting derived = true →
      ∀ steps : Nat, aether.generationDistance base derived = steps ↔
        ancestor parent steps derived = some base

/-- A class is `ae::Obj`, which is the base of everything, or a registered base of another
class. -/
def BaseOf (a b : ClassId) : Prop :=
  a = aether.objClassId ∨ b ≠ aether.objClassId ∧ aether.derives a b = true

/-- An object whose class layers can be loaded. -/
structure LoadableChain (objId : ObjId) (layers : Layers) : Prop where
  valid : objId.isValid = true
  stored : layers ≠ []
  registered : ∀ layer ∈ layers,
    (layer.1 = aether.objClassId ∨ aether.isExisting layer.1 = true) ∧ layer.2 ≠ []
  oneChain : ∀ a ∈ layers.map Prod.fst, ∀ b ∈ layers.map Prod.fst,
    BaseOf aether a b ∨ BaseOf aether b a
  mostDerived : ∃ top ∈ layers.map Prod.fst,
    (∀ classId ∈ layers.map Prod.fst, BaseOf aether classId top) ∧
      top ≠ aether.objClassId ∧ aether.hasFactory top = true

/-- What is reported of an object: its stored classes from base to derived, each once, and
the last of them. -/
structure ChainReported (layers : Layers) (info : StoredClassChainInfo) : Prop where
  classes : info.chain.Perm (layers.map Prod.fst)
  sorted : info.chain.Pairwise fun a b => BaseOf aether a b ∧ ¬ BaseOf aether b a
  last : info.chain.getLast? = some info.mostDerivedClassId
  unique : ∀ top ∈ info.chain, (∀ classId ∈ info.chain, BaseOf aether classId top) →
    top = info.mostDerivedClassId

variable {aether} {a b c : ClassId}

/-- The class of a layer that passes the registration check. -/
def IsKnown (aether : Aether α ε) (classId : ClassId) : Prop :=
  classId = aether.objClassId ∨ aether.isExisting classId = true

theorem derives_iff_ancestor {parent : ClassId → Option ClassId}
    (hparent : ∀ base derived, aether.isExisting base = true →
      aether.isExisting derived = true → ∀ steps : Nat,
        aether.generationDistance base derived = steps ↔
          ancestor parent steps derived = some base)
    (ha : aether.isExisting a = true) (hb : aether.isExisting b = true) :
    aether.derives a b = true ↔ ∃ steps, ancestor parent steps b = some a := by
  rw [Aether.derives, decide_eq_true_eq]
  constructor
  · intro hdistance
    obtain ⟨steps, hsteps⟩ := Int.eq_ofNat_of_zero_le hdistance
    exact ⟨steps, (hparent a b ha hb steps).mp hsteps⟩
  · rintro ⟨steps, hsteps⟩
    rw [(hparent a b ha hb steps).mpr hsteps]
    exact Int.natCast_nonneg steps

theorem baseOf_refl (hforest : FormsForest aether) (ha : IsKnown aether a) :
    BaseOf aether a a := by
  obtain ⟨parent, -, hparent⟩ := hforest
  by_cases hobj : a = aether.objClassId
  · exact Or.inl hobj
  · have hexists := ha.resolve_left hobj
    exact Or.inr ⟨hobj, (derives_iff_ancestor hparent hexists hexists).mpr ⟨0, rfl⟩⟩

theorem baseOf_trans (hforest : FormsForest aether) (ha : IsKnown aether a)
    (hb : IsKnown aether b) (hc : IsKnown aether c) (hab : BaseOf aether a b)
    (hbc : BaseOf aether b c) : BaseOf aether a c := by
  obtain ⟨parent, -, hparent⟩ := hforest
  rcases hab with hobj | ⟨hbObj, hab⟩
  · exact Or.inl hobj
  rcases hbc with hobj | ⟨hcObj, hbc⟩
  · exact absurd hobj hbObj
  by_cases haObj : a = aether.objClassId
  · exact Or.inl haObj
  have ha := ha.resolve_left haObj
  have hb := hb.resolve_left hbObj
  have hc := hc.resolve_left hcObj
  obtain ⟨lower, hlower⟩ := (derives_iff_ancestor hparent hb hc).mp hbc
  obtain ⟨upper, hupper⟩ := (derives_iff_ancestor hparent ha hb).mp hab
  exact Or.inr ⟨hcObj, (derives_iff_ancestor hparent ha hc).mpr
    ⟨_, ancestor_trans hlower hupper⟩⟩

theorem baseOf_antisymm (hforest : FormsForest aether) (ha : IsKnown aether a)
    (hb : IsKnown aether b) (hab : BaseOf aether a b) (hba : BaseOf aether b a) : a = b := by
  obtain ⟨parent, hrooted, hparent⟩ := hforest
  rcases hab with haObj | ⟨hbObj, hab⟩
  · rcases hba with hbObj | ⟨haNot, -⟩
    · rw [haObj, hbObj]
    · exact absurd haObj haNot
  rcases hba with hobj | ⟨haObj, hba⟩
  · exact absurd hobj hbObj
  have ha := ha.resolve_left haObj
  have hb := hb.resolve_left hbObj
  obtain ⟨up, hup⟩ := (derives_iff_ancestor hparent ha hb).mp hab
  obtain ⟨down, hdown⟩ := (derives_iff_ancestor hparent hb ha).mp hba
  exact (ancestor_antisymm hrooted hup hdown).symm

/-- Registered classes with a common derived class are related: in a forest the ancestors
of one class are a chain. -/
theorem baseOf_total_of_common (hforest : FormsForest aether) (ha : IsKnown aether a)
    (hb : IsKnown aether b) (hc : IsKnown aether c) (hac : BaseOf aether a c)
    (hbc : BaseOf aether b c) : BaseOf aether a b ∨ BaseOf aether b a := by
  obtain ⟨parent, -, hparent⟩ := hforest
  rcases hac with haObj | ⟨hcObj, hac⟩
  · exact Or.inl (Or.inl haObj)
  rcases hbc with hbObj | ⟨-, hbc⟩
  · exact Or.inr (Or.inl hbObj)
  by_cases haObj : a = aether.objClassId
  · exact Or.inl (Or.inl haObj)
  by_cases hbObj : b = aether.objClassId
  · exact Or.inr (Or.inl hbObj)
  have ha := ha.resolve_left haObj
  have hb := hb.resolve_left hbObj
  have hc := hc.resolve_left hcObj
  obtain ⟨up, hup⟩ := (derives_iff_ancestor hparent ha hc).mp hac
  obtain ⟨other, hother⟩ := (derives_iff_ancestor hparent hb hc).mp hbc
  rcases ancestor_comparable hup hother with hfurther | hfurther
  · exact Or.inr (Or.inr ⟨haObj, (derives_iff_ancestor hparent hb ha).mpr hfurther⟩)
  · exact Or.inl (Or.inr ⟨hbObj, (derives_iff_ancestor hparent ha hb).mpr hfurther⟩)

/-- The pairwise check asks for exactly this. -/
theorem classesRelated_iff :
    classesRelated aether a b = true ↔ BaseOf aether a b ∨ BaseOf aether b a := by
  simp only [classesRelated, BaseOf, Bool.or_eq_true, decide_eq_true_eq]
  by_cases ha : a = aether.objClassId
  · simp [ha]
  · by_cases hb : b = aether.objClassId
    · simp [hb]
    · simp [ha, hb]

/-- Between related classes the comparator of the sort is the strict order. -/
theorem baseBefore_eq_false_iff (hforest : FormsForest aether) (ha : IsKnown aether a)
    (hb : IsKnown aether b) (hrelated : BaseOf aether a b ∨ BaseOf aether b a) :
    baseBefore aether b a = false ↔ BaseOf aether a b := by
  by_cases hsame : a = b
  · subst hsame
    exact iff_of_true (by simp [baseBefore]) (baseOf_refl hforest ha)
  by_cases haObj : a = aether.objClassId
  · refine iff_of_true ?_ (Or.inl haObj)
    have hbObj : b ≠ aether.objClassId := fun hb => hsame (haObj.trans hb.symm)
    simp [baseBefore, haObj, hbObj]
  by_cases hbObj : b = aether.objClassId
  · refine iff_of_false ?_ ?_
    · rw [baseBefore, if_neg (Ne.symm hsame), if_pos hbObj]
      simp
    · rintro (hobj | ⟨hnot, -⟩)
      · exact haObj hobj
      · exact hnot hbObj
  have hbefore : baseBefore aether b a = decide (0 < aether.generationDistance b a) := by
    rw [baseBefore, if_neg (Ne.symm hsame), if_neg hbObj, if_neg haObj]
  rw [hbefore, decide_eq_false_iff_not, Int.not_lt]
  constructor
  · intro hle
    rcases hrelated with hab | hba
    · exact hab
    -- A distance that is neither negative nor positive is that of a class to itself.
    obtain ⟨parent, -, hparent⟩ := hforest
    rcases hba with hobj | ⟨-, hderives⟩
    · exact absurd hobj hbObj
    have hge : 0 ≤ aether.generationDistance b a := of_decide_eq_true hderives
    have hzero : aether.generationDistance b a = (0 : Nat) := le_antisymm hle hge
    have hself := (hparent b a (hb.resolve_left hbObj) (ha.resolve_left haObj) 0).mp hzero
    exact absurd (Option.some.inj hself) hsame
  · intro hab
    by_contra hlt
    have hba : BaseOf aether b a :=
      Or.inr ⟨haObj, decide_eq_true (le_of_lt (not_le.mp hlt))⟩
    exact hsame (baseOf_antisymm hforest ha hb hab hba)

variable {objId : ObjId} {layers : Layers} {info : StoredClassChainInfo}

theorem LoadableChain.isKnown (h : LoadableChain aether objId layers) :
    ∀ classId ∈ layers.map Prod.fst, IsKnown aether classId := by
  intro classId hclass
  obtain ⟨layer, hlayer, rfl⟩ := List.mem_map.mp hclass
  exact (h.registered layer hlayer).1

/-- Where all classes are known and related, the sort puts bases before derived
classes. -/
theorem pairwise_sortedChain (hforest : FormsForest aether) {classes : List ClassId}
    (hnodup : classes.Nodup) (hknown : ∀ classId ∈ classes, IsKnown aether classId)
    (hrelated : ∀ a ∈ classes, ∀ b ∈ classes, BaseOf aether a b ∨ BaseOf aether b a) :
    (classes.insertionSort fun a b => baseBefore aether b a = false).Pairwise fun a b =>
      BaseOf aether a b ∧ ¬ BaseOf aether b a := by
  have hbefore : ∀ a ∈ classes, ∀ b ∈ classes,
      (baseBefore aether b a = false ↔ BaseOf aether a b) := fun a ha b hb =>
    baseBefore_eq_false_iff hforest (hknown a ha) (hknown b hb) (hrelated a ha b hb)
  have hsorted : (classes.insertionSort fun a b => baseBefore aether b a = false).Pairwise
      fun a b => baseBefore aether b a = false := by
    apply pairwise_insertionSort_on
    · intro a ha b hb
      rw [hbefore a ha b hb, hbefore b hb a ha]
      exact hrelated a ha b hb
    · intro a ha b hb c hc
      rw [hbefore a ha b hb, hbefore b hb c hc, hbefore a ha c hc]
      exact baseOf_trans hforest (hknown a ha) (hknown b hb) (hknown c hc)
  have hperm : (classes.insertionSort fun a b => baseBefore aether b a = false).Perm classes :=
    List.perm_insertionSort _ _
  have hapart := (hperm.nodup_iff.mpr hnodup)
  rw [List.Nodup] at hapart
  refine (hsorted.and hapart).imp_of_mem ?_
  rintro a b ha hb ⟨hle, hne⟩
  have ha := hperm.subset ha
  have hb := hperm.subset hb
  have hab := (hbefore a ha b hb).mp hle
  exact ⟨hab, fun hba => hne (baseOf_antisymm hforest (hknown a ha) (hknown b hb) hab hba)⟩

/-- The chain of a validated object. -/
theorem loadable_of_validateStoredClassChain (hforest : FormsForest aether)
    (hnodup : (layers.map Prod.fst).Nodup)
    (h : validateStoredClassChain aether objId layers = some info) :
    LoadableChain aether objId layers ∧ info.objId = objId ∧
      ChainReported aether layers info := by
  unfold validateStoredClassChain at h
  split at h
  case isTrue => cases h
  case isFalse hid =>
  split at h
  case isTrue => cases h
  case isFalse hregistered =>
  split at h
  case isTrue => cases h
  case isFalse hpairwise =>
  simp only at h
  split at h
  case h_1 => cases h
  case h_2 top htop =>
  split at h
  case isTrue => cases h
  case isFalse hconcrete =>
  split at h
  case isTrue => cases h
  case isFalse hbases =>
  cases h
  obtain ⟨hvalid, hstored⟩ : objId.isValid = true ∧ layers ≠ [] := by simpa using hid
  obtain ⟨htopObj, hfactory⟩ : top ≠ aether.objClassId ∧ aether.hasFactory top = true := by
    simpa using hconcrete
  have hlayers : ∀ layer ∈ layers,
      (layer.1 = aether.objClassId ∨ aether.isExisting layer.1 = true) ∧ layer.2 ≠ [] := by
    intro layer hlayer
    have hall := List.any_eq_false.mp (Bool.not_eq_true _ ▸ hregistered) layer hlayer
    simp only [Bool.or_eq_true, Bool.and_eq_true, decide_eq_true_eq, Bool.not_eq_true',
      List.isEmpty_iff, not_or, not_and, Bool.not_eq_false] at hall
    refine ⟨?_, hall.2⟩
    by_cases hobj : layer.1 = aether.objClassId
    · exact Or.inl hobj
    · exact Or.inr (hall.1 hobj)
  have hknown : ∀ classId ∈ layers.map Prod.fst, IsKnown aether classId := by
    intro classId hclass
    obtain ⟨layer, hlayer, rfl⟩ := List.mem_map.mp hclass
    exact (hlayers layer hlayer).1
  have hrelated : ∀ a ∈ layers.map Prod.fst, ∀ b ∈ layers.map Prod.fst,
      BaseOf aether a b ∨ BaseOf aether b a := by
    intro a ha b hb
    have hpairs : (layers.map Prod.fst).Pairwise fun a b =>
        BaseOf aether a b ∨ BaseOf aether b a := by
      have hall : (layers.map Prod.fst).Pairwise fun a b => classesRelated aether a b = true := by
        simpa using hpairwise
      exact hall.imp classesRelated_iff.mp
    have hself : ∀ classId ∈ layers.map Prod.fst,
        BaseOf aether classId classId ∨ BaseOf aether classId classId := fun classId hclass =>
      Or.inl (baseOf_refl hforest (hknown classId hclass))
    exact List.Pairwise.forall_of_forall_of_flip hself hpairs (hpairs.imp Or.symm) ha hb
  have hsorted := pairwise_sortedChain hforest hnodup hknown hrelated
  have hperm : ((layers.map Prod.fst).insertionSort
      fun a b => baseBefore aether b a = false).Perm (layers.map Prod.fst) :=
    List.perm_insertionSort _ _
  have htopMem : top ∈ layers.map Prod.fst := hperm.subset (List.mem_of_getLast? htop)
  have hall : ∀ classId ∈ layers.map Prod.fst, BaseOf aether classId top := by
    intro classId hclass
    have hbase := List.any_eq_false.mp (Bool.not_eq_true _ ▸ hbases) classId
      (hperm.mem_iff.mpr hclass)
    simp only [Bool.and_eq_true, decide_eq_true_eq, Bool.not_eq_true', not_and,
      Bool.not_eq_false] at hbase
    by_cases hobj : classId = aether.objClassId
    · exact Or.inl hobj
    · exact Or.inr ⟨htopObj, hbase hobj⟩
  refine ⟨⟨hvalid, hstored, hlayers, hrelated, top, htopMem, hall, htopObj, hfactory⟩, rfl,
    hperm, hsorted, htop, ?_⟩
  intro other hother hotherTop
  have hotherMem := hperm.subset hother
  exact baseOf_antisymm hforest (hknown other hotherMem) (hknown top htopMem)
    (hall other hotherMem) (hotherTop top (hperm.mem_iff.mpr htopMem))

/-- A loadable chain passes every check. -/
theorem LoadableChain.validated (hforest : FormsForest aether)
    (h : LoadableChain aether objId layers) :
    ∃ info, validateStoredClassChain aether objId layers = some info := by
  obtain ⟨top, htopMem, hall, htopObj, hfactory⟩ := h.mostDerived
  have hknown := h.isKnown
  have hlast : ((layers.map Prod.fst).insertionSort
      fun a b => baseBefore aether b a = false).getLast? = some top := by
    apply getLast?_insertionSort_of_greatest htopMem
    · intro classId hclass
      exact (baseBefore_eq_false_iff hforest (hknown classId hclass) (hknown top htopMem)
        (Or.inl (hall classId hclass))).mpr (hall classId hclass)
    · intro classId hclass hle
      have hbase := (baseBefore_eq_false_iff hforest (hknown top htopMem)
        (hknown classId hclass) (Or.inr (hall classId hclass))).mp hle
      exact baseOf_antisymm hforest (hknown classId hclass) (hknown top htopMem)
        (hall classId hclass) hbase
  have hregistered : (layers.any fun layer =>
      (decide (layer.1 ≠ aether.objClassId) && !aether.isExisting layer.1) ||
        layer.2.isEmpty) = false := by
    rw [List.any_eq_false]
    intro layer hlayer
    obtain ⟨hclass, hversions⟩ := h.registered layer hlayer
    rcases hclass with hobj | hexists
    · simp [hobj, hversions]
    · simp [hexists, hversions]
  have hpairwise : (layers.map Prod.fst).Pairwise fun a b => classesRelated aether a b = true := by
    apply List.pairwise_of_forall_mem_list
    intro a ha b hb
    exact classesRelated_iff.mpr (h.oneChain a ha b hb)
  have hbases : (((layers.map Prod.fst).insertionSort
      fun a b => baseBefore aether b a = false).any fun classId =>
        decide (classId ≠ aether.objClassId) && !aether.derives classId top) = false := by
    rw [List.any_eq_false]
    intro classId hclass
    rcases hall classId ((List.mem_insertionSort _).mp hclass) with hobj | ⟨-, hderives⟩
    · simp [hobj]
    · simp [hderives]
  have hstored : layers.isEmpty = false := by simpa using h.stored
  unfold validateStoredClassChain
  rw [if_neg (by simp [h.valid, hstored]), if_neg (by simp only [hregistered]; simp),
    if_neg (by simp [hpairwise])]
  simp only [hlast, hbases]
  rw [if_neg (by simp [htopObj, hfactory]), if_neg (by simp)]
  exact ⟨_, rfl⟩

/-- For every graph and every registry that forms a forest, validation succeeds exactly on
the graphs whose present objects are loadable chains, and then reports of each object, once
and in the order of the graph, its classes from base to derived. -/
theorem validateStoredClassChains_exact (hforest : FormsForest aether)
    {parsed : RamDomainStorage}
    (hmap : ∀ object ∈ parsed.live, (object.2.map Prod.fst).Nodup) :
    ((validateStoredClassChains aether parsed).isSome = true ↔
        ∀ object ∈ parsed.live, LoadableChain aether object.1 object.2) ∧
      ∀ chains, validateStoredClassChains aether parsed = some chains →
        List.Forall₂ (fun object info => info.objId = object.1 ∧
          ChainReported aether object.2 info) parsed.live chains := by
  constructor
  · rw [Option.isSome_iff_exists]
    constructor
    · rintro ⟨chains, hchains⟩ object hobject
      obtain ⟨info, -, hinfo⟩ := forall₂_exists_of_mem_left
        (mapM_option_eq_some_iff.mp hchains) hobject
      exact (loadable_of_validateStoredClassChain hforest (hmap object hobject) hinfo).1
    · intro hall
      exact exists_mapM_option fun object hobject => (hall object hobject).validated hforest
  · intro chains hchains
    apply forall₂_imp_of_mem (mapM_option_eq_some_iff.mp hchains)
    intro object hobject info hinfo
    exact (loadable_of_validateStoredClassChain hforest (hmap object hobject) hinfo).2

end Validation

section ChatClasses

namespace ClassTree

variable {tree : ClassTree}

/-- The bases of a class are its parent and the bases of that, each once. -/
structure Nested (tree : ClassTree) : Prop where
  parent : ∀ entry ∈ tree.ancestors, ∀ above ∈ entry.2.head?, tree.chain above = entry.2
  nodup : ∀ entry ∈ tree.ancestors, (entry.1 :: entry.2).Nodup

/-- The parent of a class. -/
def parent (tree : ClassTree) (classId : ClassId) : Option ClassId :=
  ((tree.ancestors.lookup classId).getD []).head?

theorem chain_of_parent (h : tree.Nested) {classId above : ClassId}
    (hparent : tree.parent classId = some above) :
    tree.chain classId = classId :: tree.chain above := by
  unfold parent at hparent
  cases hlookup : tree.ancestors.lookup classId with
  | none =>
      rw [hlookup] at hparent
      cases hparent
  | some bases =>
      rw [hlookup] at hparent
      rw [h.parent _ (tree.mem_ancestors_of_lookup hlookup) above hparent, chain, hlookup]
      rfl

theorem nodup_chain (h : tree.Nested) (classId : ClassId) : (tree.chain classId).Nodup := by
  unfold chain
  cases hlookup : tree.ancestors.lookup classId with
  | none => exact List.nodup_singleton classId
  | some bases => exact h.nodup _ (tree.mem_ancestors_of_lookup hlookup)

/-- The ancestors of a class are its chain. -/
theorem ancestor_eq_chain (h : tree.Nested) (steps : Nat) (classId : ClassId) :
    ancestor tree.parent steps classId = (tree.chain classId)[steps]? := by
  induction steps generalizing classId with
  | zero => rfl
  | succ steps ih =>
      show (tree.parent classId).bind (ancestor tree.parent steps) = _
      cases hparent : tree.parent classId with
      | none =>
          have hnone : (tree.ancestors.lookup classId).getD [] = [] :=
            List.head?_eq_none_iff.mp hparent
          rw [chain, hnone]
          rfl
      | some above =>
          rw [chain_of_parent h hparent, List.getElem?_cons_succ]
          exact ih above

theorem rooted_parent (h : tree.Nested) : Rooted tree.parent := by
  refine ⟨fun classId => (tree.chain classId).length, ?_⟩
  intro classId above hparent
  show (tree.chain above).length < (tree.chain classId).length
  rw [chain_of_parent h hparent, List.length_cons]
  omega

/-- Steps up are positions in the chain. -/
theorem generationDistance_eq_iff (h : tree.Nested) {base derived : ClassId} {steps : Nat} :
    tree.generationDistance base derived = steps ↔
      ancestor tree.parent steps derived = some base := by
  rw [ancestor_eq_chain h, generationDistance]
  constructor
  · intro hdistance
    split at hdistance
    case isTrue hmem =>
      have hindex : (tree.chain derived).idxOf base = steps := by exact_mod_cast hdistance
      rw [← hindex]
      exact List.getElem?_idxOf hmem
    case isFalse => omega
  · intro hget
    obtain ⟨hlt, hbase⟩ := List.getElem?_eq_some_iff.mp hget
    have hmem : base ∈ tree.chain derived := List.mem_of_getElem? hget
    rw [if_pos hmem, ← hbase, (nodup_chain h derived).idxOf_getElem steps hlt]

end ClassTree

theorem chatTree_nested : chatTree.Nested where
  parent := by
    have hall : (chatTree.ancestors.all fun entry => entry.2.head?.all fun above =>
        decide (chatTree.chain above = entry.2)) = true := by decide
    intro entry hentry above habove
    have hparent := List.all_eq_true.mp hall entry hentry
    rw [Option.mem_def.mp habove] at hparent
    exact of_decide_eq_true hparent
  nodup := by decide

theorem chatAether_formsForest : FormsForest chatAether :=
  ⟨chatTree.parent, ClassTree.rooted_parent chatTree_nested,
    fun _ _ _ _ _ => ClassTree.generationDistance_eq_iff chatTree_nested⟩

/-- A room whose layers stand in the order of their numbers, not of their classes. -/
def roomInNumericOrder : RamDomainStorage :=
  (∅ : RamDomainStorage).insert ⟨7⟩ (some
    [(chatRoomClassId, [(2, [])]), (sharedNodeClassId, [(2, [])]), (nodeClassId, [(4, [])])])

theorem roomInNumericOrder_validated : ∃ chains,
    validateStoredClassChains chatAether roomInNumericOrder = some chains ∧
      chains.map StoredClassChainInfo.chain =
        [[nodeClassId, sharedNodeClassId, chatRoomClassId]] ∧
      List.Forall₂ (fun object info => info.objId = object.1 ∧
        ChainReported chatAether object.2 info) roomInNumericOrder.live chains := by
  have hsome : (validateStoredClassChains chatAether roomInNumericOrder).any (fun chains =>
      decide (chains.map StoredClassChainInfo.chain =
        [[nodeClassId, sharedNodeClassId, chatRoomClassId]])) = true := by
    decide
  obtain ⟨chains, hchains, hsorted⟩ := (Option.any_eq_true _ _).mp hsome
  exact ⟨chains, hchains, of_decide_eq_true hsorted,
    (validateStoredClassChains_exact chatAether_formsForest (by decide)).2 chains hchains⟩

end ChatClasses

end AppTraverse
