import AppTraverse.Checkpoint.CheckpointLoad

/-!
# Reading a checkpoint into a Domain

A load hydrates the objects of a checkpoint, and then goes over three lists: the generations,
the bindings and the objects that it collects (`load_cases`).  For every object each of them
makes one change, or none.

Where the checkpoint holds its graph, hydration brings every object as it was stored.
-/

namespace AppTraverse

open Foundations

section Reading

variable {ε φ : Type}

/-- The bindings that can be read from the front of some bytes. -/
def boundBindings (input : Bytes) : List (ObjId × ObjId) :=
  match machineNumber 4 UInt32.ofNat input with
  | none => []
  | some (count, rest) => readableEntries bindingEntry count.toNat rest

theorem boundBindings_written {parts : PublicationParts} {bindings : List (ObjId × ObjId)}
    (hfits : CheckpointFits parts bindings) :
    boundBindings (tableBytes bindingBytes bindings) = bindings := by
  have hread := tableOf_bindings hfits
  rw [tableOf, SuffixReader.andThen] at hread
  obtain ⟨⟨count, rest⟩, hcount, hmany⟩ := Option.bind_eq_some_iff.mp hread
  rw [boundBindings, hcount]
  exact readableEntries_of_many hmany

/-- The generation loop adopts the entries that the reader reads, in order, whatever the
Domain holds. -/
theorem adoptCheckpointGenerations_cases (count : Nat) {bytes : Bytes} {pos : Nat}
    (hpos : pos ≤ bytes.length) :
    (SuffixReader.many generationEntry count (bytes.drop pos) = none ∧
        ∀ domain : UiDomain ε φ, ∃ failure,
          adoptCheckpointGenerations count ⟨bytes, pos, true⟩ domain = .error failure) ∨
      ∃ entries after, after ≤ bytes.length ∧
        SuffixReader.many generationEntry count (bytes.drop pos) =
          some (entries, bytes.drop after) ∧
        ∀ domain : UiDomain ε φ, adoptCheckpointGenerations count ⟨bytes, pos, true⟩ domain =
          .ok (⟨bytes, after, true⟩, entries.foldl adoptCheckpointGeneration domain) := by
  induction count generalizing pos with
  | zero => exact Or.inr ⟨[], pos, hpos, rfl, fun _ => rfl⟩
  | succ count ih =>
      have hstep : ∀ domain : UiDomain ε φ,
          adoptCheckpointGenerations (count + 1) ⟨bytes, pos, true⟩ domain =
          (reading readGenerationEntry .readGenerationEntry ⟨bytes, pos, true⟩).bind
            fun read => adoptCheckpointGenerations count read.2
              (adoptCheckpointGeneration domain read.1) := fun _ => rfl
      rcases reading_cases follows_readGenerationEntry .readGenerationEntry hpos with
        ⟨hnone, hread⟩ | ⟨entry, middle, hmiddle, hsome, hread⟩
      · exact Or.inl ⟨SuffixReader.many_succ_none hnone count, fun domain =>
          ⟨_, by rw [hstep, hread]; rfl⟩⟩
      rw [SuffixReader.many_succ_some hsome]
      rcases ih hmiddle with ⟨hnone, hloop⟩ | ⟨entries, after, hafter, hrest, hloop⟩
      · left
        refine ⟨by rw [hnone]; rfl, fun domain => ?_⟩
        obtain ⟨failure, hfails⟩ := hloop (adoptCheckpointGeneration domain entry)
        exact ⟨failure, by rw [hstep, hread, Except.bind, hfails]⟩
      · right
        refine ⟨entry :: entries, after, hafter, by rw [hrest]; rfl, fun domain => ?_⟩
        rw [hstep, hread, Except.bind, hloop]
        rfl

/-- The generation table is read as a table. -/
theorem adoptCheckpointGenerationTable_cases {bytes : Bytes} {pos : Nat}
    (hpos : pos ≤ bytes.length) :
    (tableOf generationEntry (bytes.drop pos) = none ∧
        ∀ domain : UiDomain ε φ, ∃ failure,
          adoptCheckpointGenerationTable ⟨bytes, pos, true⟩ domain = .error failure) ∨
      ∃ entries after, after ≤ bytes.length ∧
        tableOf generationEntry (bytes.drop pos) = some (entries, bytes.drop after) ∧
        ∀ domain : UiDomain ε φ, adoptCheckpointGenerationTable ⟨bytes, pos, true⟩ domain =
          .ok (⟨bytes, after, true⟩, entries.foldl adoptCheckpointGeneration domain) := by
  have hstep : ∀ domain : UiDomain ε φ,
      adoptCheckpointGenerationTable ⟨bytes, pos, true⟩ domain =
        (reading readU32Of .readGenerationCount ⟨bytes, pos, true⟩).bind fun read =>
          adoptCheckpointGenerations read.1.toNat read.2 domain := fun _ => rfl
  simp only [hstep]
  rw [tableOf, SuffixReader.andThen]
  rcases reading_cases follows_readU32Of .readGenerationCount hpos with
    ⟨hnone, hread⟩ | ⟨count, middle, hmiddle, hsome, hread⟩
  · rw [hnone, hread]
    exact Or.inl ⟨rfl, fun _ => ⟨_, rfl⟩⟩
  · rw [hsome, hread]
    exact adoptCheckpointGenerations_cases count.toNat hmiddle

variable {loader : UiLoader ε φ} {storage : UiStorage}

/-- The binding loop goes as far as there are entries. -/
theorem restoreBindings_spec (count : Nat) {bytes : Bytes} {pos : Nat}
    (hpos : pos ≤ bytes.length) (domain : UiDomain ε φ) :
    restoreBindings loader storage count ⟨bytes, pos, true⟩ domain =
      .ok ((readableEntries bindingEntry count (bytes.drop pos)).foldl
        (restoreBinding loader storage) domain) := by
  induction count generalizing pos domain with
  | zero => rfl
  | succ count ih =>
      have hstep : restoreBindings loader storage (count + 1) ⟨bytes, pos, true⟩ domain =
          (readBindingEntry ⟨bytes, pos, true⟩).bind fun read =>
            if !read.2.ok then pure domain
            else restoreBindings loader storage count read.2
              (restoreBinding loader storage domain read.1) := rfl
      rw [hstep, readableEntries]
      rcases followed_cases follows_readBindingEntry hpos with
        ⟨hnone, value, after, hread, hmark⟩ | ⟨binding, middle, hmiddle, hsome, hread⟩
      · rw [hread, hnone]
        exact if_pos (by simp [hmark])
      · rw [hread, hsome]
        exact ih hmiddle _

theorem restorePersistedNodeBaseBindings_spec {bytes : Bytes} {pos : Nat}
    (hpos : pos ≤ bytes.length) (domain : UiDomain ε φ) :
    restorePersistedNodeBaseBindings loader storage ⟨bytes, pos, true⟩ domain =
      .ok ((boundBindings (bytes.drop pos)).foldl (restoreBinding loader storage) domain) := by
  have hstep : restorePersistedNodeBaseBindings loader storage ⟨bytes, pos, true⟩ domain =
      if bytes.length < pos + 4 then .ok domain
      else (readU32Of ⟨bytes, pos, true⟩).bind fun count =>
        if !count.2.ok then pure domain
        else restoreBindings loader storage count.1.toNat count.2 domain := rfl
  rw [hstep]
  rcases followed_cases follows_readU32Of hpos with
    ⟨hnone, value, after, hread, hmark⟩ | ⟨count, middle, hmiddle, hsome, hread⟩
  · rw [boundBindings, hnone, hread]
    split
    case isTrue => rfl
    case isFalse => exact if_pos (by simp [hmark])
  · have hroom : ¬ bytes.length < pos + 4 := by
      intro hshort
      rw [machineNumber, SuffixReader.andThen, SuffixReader.number, SuffixReader.andThen,
        SuffixReader.take, if_pos (by rw [List.length_drop]; omega)] at hsome
      cases hsome
    rw [if_neg hroom, boundBindings, hsome, hread]
    exact restoreBindings_spec count.toNat hmiddle domain

/-- A loaded Domain before it is sanitized. -/
def restoredDomain (loader : UiLoader ε φ) (storage : UiStorage) (hydrated : UiDomain ε φ)
    (generations : List (ObjId × UInt64)) (bindings : List (ObjId × ObjId)) : UiDomain ε φ :=
  bindings.foldl (restoreBinding loader storage)
    (generations.foldl adoptCheckpointGeneration hydrated)

/-- What is loaded from the parts of a checkpoint and the bytes behind them. -/
def loadCheckpointParts (fuel : Nat) (loader : UiLoader ε φ) (domain : UiDomain ε φ)
    (storage : UiStorage) (parts : PublicationParts) (rest : Bytes) :
    Except LoadFailure (LoadedCheckpoint ε φ) := do
  let stored := storeLayers parts.layers storage
  let ids := noteObjIds parts.layers []
  let hydrated ← hydrateCheckpoint loader stored domain parts.root ids
  pure ⟨stored, sanitizeLoadedPersistentObjPtrs fuel
    (restoredDomain loader stored hydrated parts.generations (boundBindings rest)) parts.root ids⟩

/-- What a load does: it fails if the bytes hold no publication of the root, and otherwise it
loads the publication that they hold and the bindings behind it. -/
theorem load_cases (fuel : Nat) (loader : UiLoader ε φ) (bytes : Bytes) (domain : UiDomain ε φ)
    (storage : UiStorage) (root : ObjId) :
    ((∀ parts rest, publicationParts bytes = some (parts, rest) → parts.root ≠ root) ∧
        ∃ failure, loadPersistentModelSnapshot fuel loader ⟨bytes, 0, true⟩ domain storage root =
          .error failure) ∨
      ∃ parts rest, publicationParts bytes = some (parts, rest) ∧ parts.root = root ∧
        loadPersistentModelSnapshot fuel loader ⟨bytes, 0, true⟩ domain storage root =
          loadCheckpointParts fuel loader domain storage parts rest := by
  have hload : loadPersistentModelSnapshot fuel loader ⟨bytes, 0, true⟩ domain storage root =
      (reading readU32Of .readRootId ⟨bytes, 0, true⟩).bind fun rootId =>
        if rootId.1 ≠ root.id then .error (.stage .readRootId)
        else (readAndInjectPublicationLayers rootId.2 storage).bind fun injected =>
          (hydrateCheckpoint loader injected.storage domain root injected.uniqueObjIds).bind
            fun hydrated => (adoptCheckpointGenerationTable injected.source hydrated).bind
              fun adopted => ((restorePersistedNodeBaseBindings loader injected.storage adopted.1
                adopted.2).mapError fun _ => .readPastEnd).bind fun restored =>
                  pure ⟨injected.storage, sanitizeLoadedPersistentObjPtrs fuel restored root
                    injected.uniqueObjIds⟩ := rfl
  have hstart : bytes = bytes.drop 0 := rfl
  rw [hload]
  rcases reading_cases follows_readU32Of .readRootId (Nat.zero_le bytes.length) with
    ⟨hnone, hread⟩ | ⟨rootId, first, hfirst, hroot, hread⟩
  · rw [← hstart] at hnone
    rw [hread]
    refine Or.inl ⟨fun parts rest hparts => ?_, _, rfl⟩
    obtain ⟨_, hsome, -⟩ := Option.bind_eq_some_iff.mp hparts
    cases hnone.symm.trans hsome
  rw [← hstart] at hroot
  rw [hread, Except.bind]
  by_cases hexpected : rootId = root.id
  · obtain rfl : root = ⟨rootId⟩ := by rw [hexpected]
    rw [if_neg (by simp)]
    rcases readAndInject_cases hfirst storage with
      ⟨hnone, stage, hinject⟩ | ⟨layers, second, hsecond, hlayers, hinject⟩
    · rw [hinject]
      refine Or.inl ⟨fun parts rest hparts => ?_, _, rfl⟩
      obtain ⟨_, hsome, hparts⟩ := Option.bind_eq_some_iff.mp hparts
      cases hroot.symm.trans hsome
      obtain ⟨_, hsome, -⟩ := Option.bind_eq_some_iff.mp hparts
      cases hnone.symm.trans hsome
    rw [hinject, Except.bind]
    have htables : ∀ parts rest, publicationParts bytes = some (parts, rest) →
        ∃ generations, tableOf generationEntry (bytes.drop second) = some (generations, rest) ∧
          parts = ⟨⟨rootId⟩, layers, generations⟩ := by
      intro parts rest hparts
      obtain ⟨_, hsome, hparts⟩ := Option.bind_eq_some_iff.mp hparts
      cases hroot.symm.trans hsome
      obtain ⟨_, hsome, hparts⟩ := Option.bind_eq_some_iff.mp hparts
      cases hlayers.symm.trans hsome
      obtain ⟨⟨generations, after⟩, hsome, hparts⟩ := Option.bind_eq_some_iff.mp hparts
      obtain ⟨rfl, rfl⟩ := Prod.mk.inj (Option.some.inj hparts)
      exact ⟨generations, hsome, rfl⟩
    -- The graph is loaded before the generations are read.
    rcases @adoptCheckpointGenerationTable_cases ε φ bytes second hsecond with
      ⟨hnone, hadopt⟩ | ⟨entries, third, hthird, hsome, hadopt⟩
    · refine Or.inl ⟨fun parts rest hparts => ?_, ?_⟩
      · obtain ⟨_, hsome, -⟩ := htables parts rest hparts
        cases hnone.symm.trans hsome
      · cases hhydrate : hydrateCheckpoint loader (storeLayers layers storage) domain ⟨rootId⟩
            (noteObjIds layers []) with
        | error failure => exact ⟨failure, rfl⟩
        | ok hydrated =>
            obtain ⟨failure, hfails⟩ := hadopt hydrated
            exact ⟨failure, by rw [Except.bind, hfails]; rfl⟩
    · refine Or.inr ⟨⟨⟨rootId⟩, layers, entries⟩, bytes.drop third, ?_, rfl, ?_⟩
      · rw [publicationParts, SuffixReader.andThen, hroot, Option.bind_some,
          SuffixReader.andThen, hlayers, Option.bind_some, SuffixReader.andThen, hsome]
        rfl
      · simp only [hadopt, restorePersistedNodeBaseBindings_spec hthird, Except.mapError,
          Except.bind]
        rfl
  · rw [if_pos hexpected]
    refine Or.inl ⟨fun parts rest hparts => ?_, _, rfl⟩
    obtain ⟨_, hsome, hparts⟩ := Option.bind_eq_some_iff.mp hparts
    cases hroot.symm.trans hsome
    obtain ⟨_, -, hparts⟩ := Option.bind_eq_some_iff.mp hparts
    obtain ⟨_, -, hparts⟩ := Option.bind_eq_some_iff.mp hparts
    obtain ⟨rfl, -⟩ := Prod.mk.inj (Option.some.inj hparts)
    exact fun hsame => hexpected (congrArg ObjId.id hsame)

/-- What a load that succeeded did. -/
theorem load_eq_ok {fuel : Nat} {bytes : Bytes} {domain : UiDomain ε φ} {root : ObjId}
    {loaded : LoadedCheckpoint ε φ}
    (h : loadPersistentModelSnapshot fuel loader ⟨bytes, 0, true⟩ domain storage root =
      .ok loaded) :
    ∃ parts rest hydrated, publicationParts bytes = some (parts, rest) ∧ parts.root = root ∧
      hydrateCheckpoint loader (storeLayers parts.layers storage) domain parts.root
        (noteObjIds parts.layers []) = .ok hydrated ∧
      loaded.domain = sanitizeLoadedPersistentObjPtrs fuel
        (restoredDomain loader (storeLayers parts.layers storage) hydrated parts.generations
          (boundBindings rest)) parts.root (noteObjIds parts.layers []) := by
  rcases load_cases fuel loader bytes domain storage root with
    ⟨-, failure, hfails⟩ | ⟨parts, rest, hparts, hroot, hload⟩
  · rw [hfails] at h
    cases h
  · rw [hload] at h
    obtain ⟨hydrated, hhydrate, h⟩ := except_bind_eq_ok_iff.mp h
    refine ⟨parts, rest, hydrated, hparts, hroot, hhydrate, ?_⟩
    rw [← Except.ok.inj h]

end Reading

section Passes

variable {ε φ : Type}

@[simp] theorem UiObject.mapNode_node (change : UiNode ε → UiNode ε) (object : UiObject ε φ) :
    (object.mapNode change).node = object.node.map change := rfl

/-- Two Domains have the same objects, whatever their fields are. -/
def SameObjects (domain other : UiDomain ε φ) : Prop :=
  ∀ id, (domain id).isSome = (other id).isSome

/-- The base of a Node that has none. -/
def bindBase (base : ObjId) (node : UiNode ε) : UiNode ε :=
  if node.base.isValid then node else { node with base := base }

/-- The loader finds nothing of an object that is not there. -/
def FindsNothing (loader : UiLoader ε φ) (storage : UiStorage) (domain : UiDomain ε φ)
    (id : ObjId) : Prop :=
  domain id = none → loader.loadRoot storage domain id = (domain, false)

variable {loader : UiLoader ε φ} {storage : UiStorage} {domain : UiDomain ε φ}

/-- A Node is bound if its base is there. -/
theorem restoreBinding_eq {binding : ObjId × ObjId}
    (hnothing : FindsNothing loader storage domain binding.2) :
    restoreBinding loader storage domain binding =
      if (domain binding.2).isSome then
        KeyedStore.modify domain binding.1 (UiObject.mapNode (bindBase binding.2))
      else domain := by
  unfold restoreBinding KeyedStore.modify
  cases hobject : domain binding.1 with
  | none => simp
  | some object =>
      have hself : Function.update domain binding.1 (some object) = domain := by
        rw [← hobject, Function.update_eq_self]
      cases hnode : object.node with
      | none =>
          have hsame : object.mapNode (bindBase binding.2) = object := by
            rw [UiObject.mapNode, hnode, Option.map_none, ← hnode]
          simp [hnode, hsame, hself]
      | some node =>
          by_cases hbase : node.base.isValid = true
          · have hsame : object.mapNode (bindBase binding.2) = object := by
              rw [UiObject.mapNode, hnode, Option.map_some, bindBase, if_pos hbase, ← hnode]
            simp [hnode, hbase, hsame, hself]
          · cases hfound : domain binding.2 with
            | none => simp [hnode, hbase, hnothing hfound]
            | some found =>
                simp [hnode, hbase, hobject, UiObject.mapNode, bindBase]

/-- The bindings whose bases are there are restored, one after the other. -/
theorem restoreBindings_eq {bindings : List (ObjId × ObjId)}
    (hnothing : ∀ other, SameObjects other domain → ∀ binding ∈ bindings,
      FindsNothing loader storage other binding.2) :
    bindings.foldl (restoreBinding loader storage) domain =
      KeyedStore.modifyAll (fun base => UiObject.mapNode (bindBase base)) domain
        (bindings.filter fun binding => (domain binding.2).isSome) := by
  suffices h : ∀ other, SameObjects other domain →
      bindings.foldl (restoreBinding loader storage) other =
        KeyedStore.modifyAll (fun base => UiObject.mapNode (bindBase base)) other
          (bindings.filter fun binding => (domain binding.2).isSome) from h domain fun _ => rfl
  induction bindings with
  | nil => exact fun _ _ => rfl
  | cons head tail ih =>
      intro other hother
      have htail := ih fun next hnext binding hbinding =>
        hnothing next hnext binding (List.mem_cons_of_mem _ hbinding)
      rw [List.foldl_cons, restoreBinding_eq (hnothing other hother head List.mem_cons_self),
        List.filter_cons, hother head.2]
      split
      case isTrue =>
        exact htail _ fun id => (KeyedStore.modify_isSome _ _).trans (hother id)
      case isFalse => exact htail other hother

variable {loadedIds : List ObjId}

theorem objPtrReferenceIsStale_congr {other : UiDomain ε φ} (h : SameObjects other domain)
    (id : ObjId) :
    objPtrReferenceIsStale other loadedIds id = objPtrReferenceIsStale domain loadedIds id := by
  unfold objPtrReferenceIsStale
  rw [← Option.not_isSome, ← Option.not_isSome, h id]

theorem clearStaleBase_congr {other : UiDomain ε φ} (h : SameObjects other domain) :
    (clearStaleBase other loadedIds : UiNode ε → UiNode ε) = clearStaleBase domain loadedIds := by
  funext node
  rw [clearStaleBase, objPtrReferenceIsStale_congr h, clearStaleBase]

theorem clearStaleBase_notStale (node : UiNode ε) :
    objPtrReferenceIsStale domain loadedIds (clearStaleBase domain loadedIds node).base =
      false := by
  unfold clearStaleBase
  split
  case isTrue => rfl
  case isFalse hnot => exact Bool.not_eq_true _ ▸ hnot

@[simp] theorem clearStaleBase_journal (node : UiNode ε) :
    (clearStaleBase domain loadedIds node).journal = node.journal := by
  unfold clearStaleBase
  split
  case isTrue => rfl
  case isFalse => rfl

theorem clearStaleBase_of_notStale {node : UiNode ε}
    (h : objPtrReferenceIsStale domain loadedIds node.base = false) :
    clearStaleBase domain loadedIds node = node := by
  rw [clearStaleBase, h]
  rfl

/-- Sanitizing an object again changes nothing. -/
theorem mapNode_clearStaleBase_twice (object : UiObject ε φ) :
    (object.mapNode (clearStaleBase domain loadedIds)).mapNode (clearStaleBase domain loadedIds) =
      object.mapNode (clearStaleBase domain loadedIds) := by
  simp only [UiObject.mapNode, Option.map_map]
  congr 2
  funext node
  exact clearStaleBase_of_notStale (clearStaleBase_notStale node)

/-- The objects that are visited are sanitized, and no others. -/
theorem sanitizeObjects_apply (ids : List ObjId) (id : ObjId) :
    ids.foldl (fun domain id => sanitizePersistentObjPtrFields domain loadedIds id) domain id =
      if id ∈ ids then (domain id).map (UiObject.mapNode (clearStaleBase domain loadedIds))
      else domain id := by
  induction ids generalizing domain with
  | nil => rfl
  | cons head tail ih =>
      have hsame : SameObjects (sanitizePersistentObjPtrFields domain loadedIds head) domain :=
        fun other => KeyedStore.modify_isSome _ _
      rw [List.foldl_cons, ih, clearStaleBase_congr hsame]
      by_cases hid : id = head
      · rw [hid, sanitizePersistentObjPtrFields, KeyedStore.modify_self, Option.map_map,
          if_pos List.mem_cons_self]
        split
        case isTrue =>
          congr 1
          funext object
          exact mapNode_clearStaleBase_twice object
        case isFalse => rfl
      · rw [sanitizePersistentObjPtrFields, KeyedStore.modify_of_ne hid]
        simp [hid]

theorem sanitizeLoaded_same (fuel : Nat) (root : ObjId) :
    SameObjects (sanitizeLoadedPersistentObjPtrs fuel domain root loadedIds) domain := by
  intro id
  rw [sanitizeLoadedPersistentObjPtrs, sanitizeObjects_apply]
  split
  case isTrue => exact Option.isSome_map
  case isFalse => rfl

/-- A Node whose base was loaded is left as it is. -/
theorem sanitizeLoaded_keeps (fuel : Nat) {root id : ObjId} {object : UiObject ε φ}
    (hobject : domain id = some object) {node : UiNode ε} (hnode : object.node = some node)
    (hfresh : objPtrReferenceIsStale domain (root :: loadedIds) node.base = false) :
    sanitizeLoadedPersistentObjPtrs fuel domain root loadedIds id = some object := by
  have hsame : object.mapNode (clearStaleBase domain (root :: loadedIds)) = object := by
    rw [UiObject.mapNode, hnode, Option.map_some, clearStaleBase_of_notStale hfresh, ← hnode]
  rw [sanitizeLoadedPersistentObjPtrs, sanitizeObjects_apply, hobject, Option.map_some, hsame]
  exact ite_self _

end Passes

end AppTraverse
