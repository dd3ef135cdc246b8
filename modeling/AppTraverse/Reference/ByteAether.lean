import AppTraverse.Foundations.BinaryCodec
import AppTraverse.Storage.ClassChains
import AppTraverse.Room.ChatRoom

/-!
# An Aether over byte strings

The model takes Aether as a parameter.  This module builds one: classes form a
tree, an object is stored in one layer for each class of its chain, and the layer
of its own class holds all of its data.  It is lawful, and everything in it
computes, so concrete payloads can be run through the model.
-/

namespace AppTraverse

open Foundations

/-- Registered classes, each with its proper ancestors, the nearest first. -/
structure ClassTree where
  root : ClassId
  ancestors : List (ClassId × List ClassId)
  acyclic : ∀ entry ∈ ancestors, ∀ base ∈ entry.2, ∀ above ∈ ancestors,
    above.1 = base → entry.1 ∉ above.2
  root_top : ∀ entry ∈ ancestors, entry.1 = root → entry.2 = []
  irreflexive : ∀ entry ∈ ancestors, entry.1 ∉ entry.2

namespace ClassTree

/-- The table of a class tree, checked entry by entry. -/
def isTable (root : ClassId) (ancestors : List (ClassId × List ClassId)) : Bool :=
  ancestors.all fun entry =>
    (entry.2.all fun base => ancestors.all fun above =>
      decide (above.1 ≠ base) || decide (entry.1 ∉ above.2)) &&
    (decide (entry.1 ≠ root) || entry.2.isEmpty) && decide (entry.1 ∉ entry.2)

/-- A class tree over a table that passes the check. -/
def ofTable (root : ClassId) (ancestors : List (ClassId × List ClassId))
    (h : isTable root ancestors = true) : ClassTree where
  root := root
  ancestors := ancestors
  acyclic entry hentry base hbase above habove heq := by
    have hall := List.all_eq_true.mp h entry hentry
    simp only [Bool.and_eq_true, Bool.or_eq_true, List.all_eq_true, decide_eq_true_eq]
      at hall
    exact (hall.1.1 base hbase above habove).resolve_left (not_not.mpr heq)
  root_top entry hentry heq := by
    have hall := List.all_eq_true.mp h entry hentry
    simp only [Bool.and_eq_true, Bool.or_eq_true, decide_eq_true_eq, List.isEmpty_iff]
      at hall
    exact hall.1.2.resolve_left (not_not.mpr heq)
  irreflexive entry hentry := by
    have hall := List.all_eq_true.mp h entry hentry
    simp only [Bool.and_eq_true, decide_eq_true_eq] at hall
    exact hall.2

variable (tree : ClassTree)

/-- A class and its proper ancestors. -/
def chain (classId : ClassId) : List ClassId :=
  classId :: (tree.ancestors.lookup classId).getD []

/-- `Registry::GenerationDistance`. -/
def generationDistance (base derived : ClassId) : Int :=
  if base ∈ tree.chain derived then ((tree.chain derived).idxOf base : Int) else -1

theorem derives_iff {base derived : ClassId} :
    0 ≤ tree.generationDistance base derived ↔ base ∈ tree.chain derived := by
  unfold generationDistance
  split
  case isTrue h => exact iff_of_true (Int.natCast_nonneg _) h
  case isFalse h => exact iff_of_false (by decide) h

theorem mem_ancestors_of_lookup {classId : ClassId} {above : List ClassId}
    (h : tree.ancestors.lookup classId = some above) : (classId, above) ∈ tree.ancestors := by
  obtain ⟨before, after, hsplit, -⟩ := List.lookup_eq_some_iff.mp h
  rw [hsplit]
  simp

/-- A proper base of a class is an ancestor of it in the table. -/
theorem exists_of_mem_chain {base derived : ClassId} (h : base ∈ tree.chain derived)
    (hne : base ≠ derived) :
    ∃ above, (derived, above) ∈ tree.ancestors ∧ base ∈ above := by
  rcases List.mem_cons.mp h with heq | hmem
  · exact absurd heq hne
  · cases hlookup : tree.ancestors.lookup derived with
    | none =>
        rw [hlookup] at hmem
        cases hmem
    | some above =>
        rw [hlookup] at hmem
        exact ⟨above, tree.mem_ancestors_of_lookup hlookup, hmem⟩

theorem chain_antisymm {a b : ClassId} (hab : a ∈ tree.chain b) (hba : b ∈ tree.chain a) :
    a = b := by
  by_contra hne
  obtain ⟨above, hentry, hmem⟩ := tree.exists_of_mem_chain hab hne
  obtain ⟨above', hentry', hmem'⟩ := tree.exists_of_mem_chain hba (Ne.symm hne)
  exact tree.acyclic _ hentry a hmem _ hentry' rfl hmem'

theorem eq_root_of_mem_chain {classId : ClassId} (h : classId ∈ tree.chain tree.root) :
    classId = tree.root := by
  by_contra hne
  obtain ⟨above, hentry, hmem⟩ := tree.exists_of_mem_chain h hne
  have hnil : above = [] := tree.root_top _ hentry rfl
  rw [hnil] at hmem
  cases hmem

end ClassTree

section Codecs

/-- An `ObjId`. -/
def objIdCodec : Codec ObjId := Codec.uint32.map ObjId.id ObjId.mk fun _ => rfl

/-- A byte string. -/
def bytesCodec : Codec Bytes := Codec.uint8.list

/-- A reference with the object it was loaded to. -/
def refCodec {τ : Type} (codec : Codec τ) : Codec (Ref τ) :=
  (objIdCodec.pair codec.option).map (fun ref => (ref.id, ref.obj))
    (fun pair => ⟨pair.1, pair.2⟩) fun _ => rfl

def linkCodec : Codec Link :=
  (Codec.uint32.pair (bytesCodec.pair Codec.uint32)).map
    (fun link => (link.classId, link.endpointUid, link.heartbeatIntervalMs))
    (fun spelled => ⟨spelled.1, spelled.2.1, spelled.2.2⟩) fun _ => rfl

def shareCodec : Codec Share :=
  (objIdCodec.pair ((refCodec linkCodec).pair Codec.uint8)).map
    (fun share => (share.shareId, share.link, share.access))
    (fun spelled => ⟨spelled.1, spelled.2.1, spelled.2.2⟩) fun _ => rfl

def sharedEventIdCodec : Codec SharedEventId :=
  (bytesCodec.pair Codec.uint64).map
    (fun identity => (identity.originUid, identity.originSequence))
    (fun spelled => ⟨spelled.1, spelled.2⟩) fun _ => rfl

def sharedNodeEventCodec {ε : Type} (eventCodec : Codec ε) : Codec (SharedNodeEvent ε) :=
  (((refCodec linkCodec).pair Codec.uint8).sum
    (objIdCodec.sum ((objIdCodec.pair Codec.uint8).sum eventCodec))).map
    (fun event => match event with
      | .addShare link access => .inl (link, access)
      | .removeShare shareId => .inr (.inl shareId)
      | .changeShareAccess shareId access => .inr (.inr (.inl (shareId, access)))
      | .app event => .inr (.inr (.inr event)))
    (fun spelled => match spelled with
      | .inl (link, access) => .addShare link access
      | .inr (.inl shareId) => .removeShare shareId
      | .inr (.inr (.inl (shareId, access))) => .changeShareAccess shareId access
      | .inr (.inr (.inr event)) => .app event)
    fun event => by cases event <;> rfl

def recordCodec {ε : Type} (eventCodec : Codec ε) :
    Codec (EventRecord (SharedNodeEvent ε)) :=
  ((refCodec (sharedNodeEventCodec eventCodec)).pair
    (sharedEventIdCodec.pair (Codec.uint64.pair Codec.uint64))).map
    (fun record =>
      (record.event, record.identity, record.order.timestampUs, record.retainedSinceUs))
    (fun spelled => ⟨spelled.1, spelled.2.1, ⟨spelled.2.2.1⟩, spelled.2.2.2⟩) fun _ => rfl

def sharedStateCodec {α : Type} (stateCodec : Codec α) : Codec (SharedState α) :=
  (shareCodec.list.pair stateCodec).map (fun shared => (shared.shares, shared.app))
    (fun spelled => ⟨spelled.1, spelled.2⟩) fun _ => rfl

def initialSyncPhaseCodec : Codec InitialSyncPhase :=
  (Codec.unit.sum (Codec.unit.sum (Codec.unit.sum Codec.uint8))).map
    (fun phase => match phase with
      | .notStarted => .inl ()
      | .pending => .inr (.inl ())
      | .complete => .inr (.inr (.inl ()))
      | .unnamed raw => .inr (.inr (.inr raw)))
    (fun spelled => match spelled with
      | .inl _ => .notStarted
      | .inr (.inl _) => .pending
      | .inr (.inr (.inl _)) => .complete
      | .inr (.inr (.inr raw)) => .unnamed raw)
    fun phase => by cases phase <;> rfl

def linkSyncStateCodec : Codec LinkSyncState :=
  ((objIdCodec.pair objIdCodec).pair (initialSyncPhaseCodec.pair
    ((objIdCodec.pair (bytesCodec.pair objIdCodec)).pair
      ((sharedEventIdCodec.list.pair sharedEventIdCodec.list).pair
        (objIdCodec.pair (sharedEventIdCodec.pair bytesCodec)))))).map
    (fun state =>
      ((state.shareId, state.link), state.initialSyncPhase,
        (state.pendingInitialPacketId, state.pendingInitialPacket,
          state.receivedInitialPacketId),
        (state.pendingInitialCoveredEventIds, state.deliveredEventIds),
        state.pendingEventPacketId, state.pendingEventIdentity, state.pendingEventPacket))
    (fun (relationship, phase, initial, identities, event) =>
      { shareId := relationship.1
        link := relationship.2
        initialSyncPhase := phase
        pendingInitialPacketId := initial.1
        pendingInitialPacket := initial.2.1
        receivedInitialPacketId := initial.2.2
        pendingInitialCoveredEventIds := identities.1
        deliveredEventIds := identities.2
        pendingEventPacketId := event.1
        pendingEventIdentity := event.2.1
        pendingEventPacket := event.2.2 })
    fun _ => rfl

def storedBodyCodec {α ε : Type} (stateCodec : Codec α) (eventCodec : Codec ε) :
    Codec (StoredBody α ε) :=
  (((sharedStateCodec stateCodec).pair objIdCodec.list).sum
    ((bytesCodec.pair Codec.uint32).sum (linkSyncStateCodec.sum
      ((sharedNodeEventCodec eventCodec).sum Codec.unit)))).map
    (fun body => match body with
      | .sharedNode shared states => .inl (shared, states)
      | .link endpointUid interval => .inr (.inl (endpointUid, interval))
      | .linkSyncState state => .inr (.inr (.inl state))
      | .event event => .inr (.inr (.inr (.inl event)))
      | .other => .inr (.inr (.inr (.inr ()))))
    (fun spelled => match spelled with
      | .inl (shared, states) => .sharedNode shared states
      | .inr (.inl (endpointUid, interval)) => .link endpointUid interval
      | .inr (.inr (.inl state)) => .linkSyncState state
      | .inr (.inr (.inr (.inl event))) => .event event
      | .inr (.inr (.inr (.inr _))) => .other)
    fun body => by cases body <;> rfl

def storedObjectCodec {α ε : Type} (stateCodec : Codec α) (eventCodec : Codec ε) :
    Codec (StoredObject α ε) :=
  (Codec.uint32.pair (objIdCodec.pair ((recordCodec eventCodec).list.pair
    ((storedBodyCodec stateCodec eventCodec).pair
      (Codec.uint32.pair objIdCodec).list)))).map
    (fun object =>
      (object.classId, object.base, object.journal, object.body, object.otherRefs))
    (fun spelled =>
      { classId := spelled.1
        base := spelled.2.1
        journal := spelled.2.2.1
        body := spelled.2.2.2.1
        otherRefs := spelled.2.2.2.2 })
    fun _ => rfl

def layersCodec : Codec Layers :=
  (Codec.uint32.pair (Codec.uint8.pair bytesCodec).list).list

/-- A storage map; a repeated key is not read. -/
def storageCodec : Codec RamDomainStorage :=
  ((objIdCodec.pair layersCodec.option).list).restrict
    (fun storage => storage.entries.map fun entry => (entry.1, entry.2))
    (fun spelled =>
      let entries : List (Sigma fun _ : ObjId => Option Layers) :=
        spelled.map fun entry => ⟨entry.1, entry.2⟩
      if h : entries.keys.Nodup then some ⟨entries, h⟩ else none)
    fun storage => by
      have hentries : (storage.entries.map fun entry => (entry.1, entry.2)).map
          (fun entry => (⟨entry.1, entry.2⟩ : Sigma fun _ : ObjId => Option Layers)) =
          storage.entries := by
        rw [List.map_map]
        exact List.map_id _
      simp only [hentries]
      exact dif_pos storage.nodupKeys

end Codecs

section Instance

variable {α ε : Type}

/-- Every class of the layers is a base of this one. -/
def headsLayers (tree : ClassTree) (layers : Layers) (classId : ClassId) : Bool :=
  layers.all fun other => decide (other.1 = tree.root) ||
    decide (0 ≤ tree.generationDistance other.1 classId)

/-- One layer for each class of the chain; the object's own holds the data. -/
def saveInLayers (tree : ClassTree) (codec : Codec (StoredObject α ε))
    (object : StoredObject α ε) : Layers :=
  (tree.chain object.classId).map fun classId =>
    (classId, [(0, if classId = object.classId then codec.encode object else [])])

/-- The object of the most-derived layer. -/
def loadFromLayers (tree : ClassTree) (codec : Codec (StoredObject α ε))
    (layers : Layers) : Option (StoredObject α ε) := do
  let top ← layers.find? fun layer => headsLayers tree layers layer.1
  let version ← top.2.head?
  let (object, rest) ← codec.decode version.2
  if object.classId = top.1 ∧ rest.isEmpty then some object else none

/-- The class ids that synchronization names. -/
structure SharedClassIds where
  node : ClassId
  event : ClassId
  sharedNode : ClassId
  link : ClassId
  linkSyncState : ClassId
  addShareEvent : ClassId
  removeShareEvent : ClassId
  changeShareAccessEvent : ClassId

/-- An Aether over a class tree, the codecs of one application class, and the
concrete classes among those of the tree. -/
def byteAether (tree : ClassTree) (classIds : SharedClassIds) (concrete : List ClassId)
    (stateCodec : Codec α) (eventCodec : Codec ε) : Aether α ε where
  generationDistance := tree.generationDistance
  isExisting classId := (tree.ancestors.lookup classId).isSome
  hasFactory classId := decide (classId ∈ concrete)
  objClassId := tree.root
  nodeClassId := classIds.node
  eventClassId := classIds.event
  sharedNodeClassId := classIds.sharedNode
  linkClassId := classIds.link
  linkSyncStateClassId := classIds.linkSyncState
  addShareEventClassId := classIds.addShareEvent
  removeShareEventClassId := classIds.removeShareEvent
  changeShareAccessEventClassId := classIds.changeShareAccessEvent
  saveState := storageCodec.encode
  loadState := storageCodec.decode
  saveObjId := objIdCodec.encode
  loadObjId := objIdCodec.decode
  saveObject := saveInLayers tree (storedObjectCodec stateCodec eventCodec)
  loadObject := loadFromLayers tree (storedObjectCodec stateCodec eventCodec)

/-- A class heads its own chain. -/
theorem headsLayers_saveInLayers (tree : ClassTree) (codec : Codec (StoredObject α ε))
    (object : StoredObject α ε) :
    headsLayers tree (saveInLayers tree codec object) object.classId = true := by
  rw [headsLayers, List.all_eq_true]
  intro layer hlayer
  obtain ⟨classId, hclass, rfl⟩ := List.mem_map.mp hlayer
  simp [tree.derives_iff.mpr hclass]

/-- What was saved in layers is what is loaded. -/
theorem loadFromLayers_saveInLayers (tree : ClassTree) (codec : Codec (StoredObject α ε))
    (object : StoredObject α ε) :
    loadFromLayers tree codec (saveInLayers tree codec object) = some object := by
  have hheads := headsLayers_saveInLayers tree codec object
  have hfind : (saveInLayers tree codec object).find?
      (fun layer => headsLayers tree (saveInLayers tree codec object) layer.1) =
      some (object.classId, [(0, codec.encode object)]) := by
    have hcons : saveInLayers tree codec object =
        (object.classId, [(0, codec.encode object)]) ::
          (saveInLayers tree codec object).tail := by
      simp [saveInLayers, ClassTree.chain]
    conv_lhs => rw [hcons]
    rw [List.find?_cons_of_pos]
    rw [← hcons]
    exact hheads
  have hdecode := codec.decode_encode object []
  rw [List.append_nil] at hdecode
  simp [loadFromLayers, hfind, hdecode]

theorem byteAether_lawful (tree : ClassTree) (classIds : SharedClassIds)
    (concrete : List ClassId) (stateCodec : Codec α) (eventCodec : Codec ε) :
    (byteAether tree classIds concrete stateCodec eventCodec).Lawful where
  loadState_saveState := storageCodec.decode_encode
  loadObjId_saveObjId := objIdCodec.decode_encode
  loadObject_saveObject :=
    loadFromLayers_saveInLayers tree (storedObjectCodec stateCodec eventCodec)

/-- Only one class of the layers can have all others as bases. -/
theorem loadFromLayers_mostDerived (tree : ClassTree) (codec : Codec (StoredObject α ε))
    {layers : Layers} {object : StoredObject α ε} {top : ClassId}
    (hload : loadFromLayers tree codec layers = some object)
    (hmem : top ∈ layers.map Prod.fst)
    (hall : ∀ classId ∈ layers.map Prod.fst, classId = tree.root ∨
      0 ≤ tree.generationDistance classId top) : object.classId = top := by
  unfold loadFromLayers at hload
  obtain ⟨layer, hfind, hload⟩ := Option.bind_eq_some_iff.mp hload
  obtain ⟨version, -, hload⟩ := Option.bind_eq_some_iff.mp hload
  obtain ⟨⟨read, rest⟩, -, hload⟩ := Option.bind_eq_some_iff.mp hload
  simp only at hload
  split at hload
  case isFalse => cases hload
  case isTrue hclass =>
    cases hload
    rw [hclass.1]
    have hheads := List.find?_some hfind
    rw [headsLayers, List.all_eq_true] at hheads
    obtain ⟨topLayer, htopLayer, htop⟩ := List.mem_map.mp hmem
    have hbelow := hheads topLayer htopLayer
    rw [htop, Bool.or_eq_true, decide_eq_true_eq, decide_eq_true_eq, tree.derives_iff]
      at hbelow
    have habove := hall layer.1
      (List.mem_map_of_mem (List.mem_of_find?_eq_some hfind))
    rw [tree.derives_iff] at habove
    rcases habove with hroot | habove
    · rcases hbelow with hroot' | hbelow
      · rw [hroot, hroot']
      · rw [hroot] at hbelow ⊢
        exact (tree.eq_root_of_mem_chain hbelow).symm
    · rcases hbelow with hroot' | hbelow
      · rw [hroot'] at habove ⊢
        exact tree.eq_root_of_mem_chain habove
      · exact tree.chain_antisymm habove hbelow

end Instance

end AppTraverse
