import AppTraverse.Checkpoint.CheckpointReader
import AppTraverse.Storage.ClosedGraphImport

/-!
# Saved checkpoints

A save leaves the Domain as it found it (`serialize_domain`), and writes a publication of
the graph, as it was while its bases were out, followed by the bindings of the bases
(`serialize_bytes`).

What was written is taken, to its last byte.  A checkpoint that lacks its end is taken
only if the cut is within the number of its bindings (`isTaken_take_iff`).
-/

namespace AppTraverse

open Foundations

section Writing

variable {σ β ε : Type} {saver : CheckpointSaver σ β ε} {domain : ModelDomain σ β ε}
  {root : ObjId}

/-- The publication that is in a checkpoint. -/
def CheckpointSave.parts (save : CheckpointSave σ β ε) (root : ObjId) : PublicationParts :=
  ⟨root, (checkpointObjects save.domain save.scratch).flatMap objectLayers,
    generationsOf save.domain (checkpointObjects save.domain save.scratch)⟩

/-- The bytes of a checkpoint. -/
def checkpointBytes (parts : PublicationParts) (bindings : List (ObjId × ObjId)) : Bytes :=
  publicationBytes parts ++ tableBytes bindingBytes bindings

theorem writePersistentCheckpointScratchLayers_eq (domain : ModelDomain σ β ε)
    (scratch : RamDomainStorage) (out : Bytes) :
    writePersistentCheckpointScratchLayers domain scratch out =
      out ++ (tableBytes layerBytes ((checkpointObjects domain scratch).flatMap objectLayers) ++
        tableBytes generationBytes
          (generationsOf domain (checkpointObjects domain scratch))) := by
  have hlayers := table_written layerBytes
    ((checkpointObjects domain scratch).flatMap objectLayers) out
  rw [List.foldl_flatMap] at hlayers
  rw [writePersistentCheckpointScratchLayers, hlayers, table_written, List.append_assoc]

theorem writePersistentCheckpointNodeBaseBindings_eq (saved : List (ObjId × Ref β))
    (out : Bytes) : writePersistentCheckpointNodeBaseBindings saved out =
      out ++ tableBytes bindingBytes (baseBindings saved) :=
  table_written bindingBytes (baseBindings saved) out

/-- A save writes a publication and the bindings. -/
theorem serialize_bytes (saver : CheckpointSaver σ β ε) (domain : ModelDomain σ β ε)
    (root : ObjId) (out : Bytes) :
    (serializePersistentModelSnapshot saver domain root out).2 =
      out ++ checkpointBytes ((prepareCheckpoint saver domain root).1.parts root)
        (baseBindings (prepareCheckpoint saver domain root).1.bases) := by
  rw [serializePersistentModelSnapshot, writePersistentCheckpointNodeBaseBindings_eq,
    writePersistentCheckpointScratchLayers_eq, checkpointBytes, publicationBytes,
    CheckpointSave.parts]
  simp only [List.append_assoc]

/-- The Nodes that are visited are visited once. -/
theorem nodup_collectReachableNodes (saver : ModelSaver σ β ε) (domain : ModelDomain σ β ε)
    (root : ObjId) : (collectReachableNodes saver domain root).Nodup :=
  (((nodup_live _).filter _).filter _).filter _

/-- A save leaves the Domain as it found it: the bases first and then the journals are put
back where they were. -/
theorem serialize_domain (saver : CheckpointSaver σ β ε) (domain : ModelDomain σ β ε)
    (root : ObjId) (out : Bytes) :
    (serializePersistentModelSnapshot saver domain root out).1 = domain := by
  let visited : ModelDomain σ β ε → List ObjId := fun domain =>
    collectReachableNodes saver.toModelSaver domain root
  let filtered : ModelDomain σ β ε := (KeyedStore.setAside journalRemoval domain
    (visited domain)).1
  have hbases : KeyedStore.restore baseRemoval
      (KeyedStore.setAside baseRemoval filtered (visited filtered)).1
      (KeyedStore.setAside baseRemoval filtered (visited filtered)).2 = filtered :=
    KeyedStore.restore_setAside (nodup_collectReachableNodes _ _ _)
  have hjournals : KeyedStore.restore journalRemoval filtered
      (KeyedStore.setAside journalRemoval domain (visited domain)).2 = domain :=
    KeyedStore.restore_setAside (nodup_collectReachableNodes _ _ _)
  rw [serializePersistentModelSnapshot, prepareCheckpoint,
    clearReachableNodeBaseForCheckpointSave, restoreReachableNodeBase]
  exact (congrArg (fun restored => KeyedStore.restore journalRemoval restored _) hbases).trans
    hjournals

end Writing

section Torn

variable {S : Type}

/-- The numbers of a checkpoint fit their 32 bits. -/
structure CheckpointFits (parts : PublicationParts) (bindings : List (ObjId × ObjId)) :
    Prop where
  layers : FitsIn32Bits parts
  generations : parts.generations.length < 2 ^ 32
  bindings : bindings.length < 2 ^ 32

instance (parts : PublicationParts) (bindings : List (ObjId × ObjId)) :
    Decidable (CheckpointFits parts bindings) :=
  decidable_of_iff (FitsIn32Bits parts ∧ parts.generations.length < 2 ^ 32 ∧
      bindings.length < 2 ^ 32)
    ⟨fun ⟨hlayers, hgenerations, hbindings⟩ => ⟨hlayers, hgenerations, hbindings⟩,
      fun ⟨hlayers, hgenerations, hbindings⟩ => ⟨hlayers, hgenerations, hbindings⟩⟩

variable {parts : PublicationParts} {bindings : List (ObjId × ObjId)}

/-- A publication is read from whatever stands behind it. -/
theorem publicationParts_append (hfits : CheckpointFits parts bindings) (rest : Bytes) :
    publicationParts (publicationBytes parts ++ rest) = some (parts, rest) := by
  have hwhole := publicationParts_written hfits.layers hfits.generations
  rw [(prefixed_publicationParts _ _ _ rest hwhole).1, List.nil_append]

theorem tableOf_bindings (hfits : CheckpointFits parts bindings) :
    tableOf bindingEntry (tableBytes bindingBytes bindings) = some (bindings, []) := by
  have hread := tableOf_written hfits.bindings (fun entry _ => bindingEntry_written entry) []
  rwa [List.append_nil] at hread

theorem four_le_length_tableBytes {τ : Type} (write : τ → Bytes) (entries : List τ) :
    4 ≤ (tableBytes write entries).length := by
  rw [tableBytes, List.length_append, length_nativeU32Bytes]
  omega

/-- A checkpoint is read as it was written, and nothing is left. -/
theorem checkpointReader_written (hfits : CheckpointFits parts bindings) :
    checkpointReader (checkpointBytes parts bindings) = some (parts, []) := by
  have hlength := four_le_length_tableBytes bindingBytes bindings
  rw [checkpointReader, SuffixReader.andThen, checkpointBytes, publicationParts_append hfits,
    Option.bind_some, afterBindings, if_neg (Nat.not_lt.mpr hlength), tableOf_bindings hfits]
  rfl

/-- Bindings that lack their end are passed over only without their number. -/
theorem afterBindings_take_iff (hfits : CheckpointFits parts bindings) {size : Nat}
    (hsize : size ≤ (tableBytes bindingBytes bindings).length) :
    (afterBindings ((tableBytes bindingBytes bindings).take size)).isSome = true ↔
      size < 4 ∨ size = (tableBytes bindingBytes bindings).length := by
  rw [afterBindings, List.length_take, Nat.min_eq_left hsize]
  by_cases hshort : size < 4
  · simp [hshort]
  rw [if_neg hshort, Option.isSome_map]
  constructor
  · intro hread
    right
    by_contra hne
    have hmissing : (tableBytes bindingBytes bindings).drop size ≠ [] := by
      rw [Ne, List.drop_eq_nil_iff]
      omega
    have htorn := SuffixReader.none_of_torn (prefixed_tableOf prefixed_bindingEntry)
      (tableOf_bindings hfits) hmissing (List.take_append_drop size _)
    rw [htorn] at hread
    cases hread
  · rintro (hless | rfl)
    · exact absurd hless hshort
    · rw [List.take_length, tableOf_bindings hfits]
      rfl

/-- A checkpoint that lacks its end is one only if the cut is within the number of its
bindings. -/
theorem checkpointReader_take_iff (hfits : CheckpointFits parts bindings) {size : Nat}
    (hsize : size ≤ (checkpointBytes parts bindings).length) :
    (checkpointReader ((checkpointBytes parts bindings).take size)).isSome = true ↔
      size = (checkpointBytes parts bindings).length ∨
        ((publicationBytes parts).length ≤ size ∧ size < (publicationBytes parts).length + 4) := by
  rw [checkpointBytes, List.length_append] at hsize ⊢
  rw [checkpointReader, SuffixReader.andThen, List.take_append]
  have hlength := four_le_length_tableBytes bindingBytes bindings
  rcases Nat.lt_or_ge size (publicationBytes parts).length with hshort | hlong
  · have hmissing : (publicationBytes parts).drop size ≠ [] := by
      rw [Ne, List.drop_eq_nil_iff]
      omega
    have htorn := torn_noParts hfits.layers hfits.generations hmissing
      (List.take_append_drop size _)
    rw [show size - (publicationBytes parts).length = 0 by omega, List.take_zero,
      List.append_nil, htorn]
    constructor
    · intro h
      cases h
    · omega
  · rw [List.take_of_length_le hlong, publicationParts_append hfits, Option.bind_some,
      Option.isSome_map, afterBindings_take_iff hfits (by omega)]
    omega

/-- A checkpoint without its end has the parts of the whole, if it has any. -/
theorem parts_of_torn (hfits : CheckpointFits parts bindings) {size : Nat}
    {torn : PublicationParts} {rest : Bytes}
    (h : checkpointReader ((checkpointBytes parts bindings).take size) = some (torn, rest)) :
    torn = parts := by
  obtain ⟨⟨torn', middle⟩, hparts, hafter⟩ := Option.bind_eq_some_iff.mp h
  obtain ⟨_, -, hsame⟩ := Option.map_eq_some_iff.mp hafter
  obtain ⟨rfl, rfl⟩ := Prod.mk.inj hsame
  have hwhole := (prefixed_publicationParts _ _ _
    ((checkpointBytes parts bindings).drop size) hparts).1
  rw [List.take_append_drop, checkpointBytes, publicationParts_append hfits] at hwhole
  exact (congrArg Prod.fst (Option.some.inj hwhole)).symm

/-- Fewer bytes have fewer entries at their front. -/
theorem readableEntries_take_prefix {τ : Type} {entry : SuffixReader τ} (hentry : Prefixed entry)
    (count size : Nat) (input : Bytes) :
    readableEntries entry count (input.take size) <+: readableEntries entry count input := by
  induction count generalizing input size with
  | zero => exact List.prefix_refl _
  | succ count ih =>
      cases htorn : entry (input.take size) with
      | none =>
          rw [readableEntries, htorn]
          exact List.nil_prefix
      | some read =>
          -- The entry is read from the whole input, too, and more is left of it.
          obtain ⟨hwhole, -⟩ := hentry (input.take size) read.1 read.2 (input.drop size) htorn
          rw [List.take_append_drop] at hwhole
          rw [readableEntries, readableEntries, htorn, hwhole]
          have hrest := ih read.2.length (read.2 ++ input.drop size)
          rw [List.take_left] at hrest
          exact List.cons_prefix_cons.mpr ⟨rfl, hrest⟩

theorem offeredLayers_take_prefix (expectedRootId : UInt32) (size : Nat) (input : Bytes) :
    offeredLayers expectedRootId (input.take size) <+: offeredLayers expectedRootId input := by
  have hnumber := prefixed_machineNumber 4 UInt32.ofNat
  unfold offeredLayers
  cases hroot : machineNumber 4 UInt32.ofNat (input.take size) with
  | none => exact List.nil_prefix
  | some root =>
      have hwhole := (hnumber _ root.1 root.2 (input.drop size) hroot).1
      rw [List.take_append_drop] at hwhole
      rw [hwhole]
      dsimp only
      split
      case isTrue => exact List.nil_prefix
      case isFalse =>
        cases hcount : machineNumber 4 UInt32.ofNat root.2 with
        | none => exact List.nil_prefix
        | some count =>
            rw [(hnumber _ count.1 count.2 (input.drop size) hcount).1]
            have hrest := readableEntries_take_prefix prefixed_layerEntry count.1.toNat
              count.2.length (count.2 ++ input.drop size)
            rwa [List.take_left] at hrest

end Torn

section Written

variable {S : Type} {parts : PublicationParts} {bindings : List (ObjId × ObjId)}

/-- What was written is taken if the storage takes its layers, and it is read to its last
byte. -/
theorem inject_written (store : LayerStore S) (storage : S)
    (hfits : CheckpointFits parts bindings) :
    ∃ injection, injectPersistentModelSnapshotToStorage store
        ⟨checkpointBytes parts bindings, 0, true⟩ storage parts.root.id = .ok injection ∧
      (injection.storage, injection.accepted) = storeWhile store storage parts.layers := by
  obtain ⟨injection, hinject, hinjects⟩ := injectPersistentModelSnapshot_spec store
    (checkpointBytes parts bindings) storage parts.root.id
  have hread := checkpointReader_written hfits
  refine ⟨injection, hinject, Prod.ext ?_ ?_⟩
  · rw [hinjects.storage_eq, offeredLayers_of_reader hread]
  · rw [Bool.eq_iff_iff, hinjects.accepted_iff]
    constructor
    · rintro ⟨parts', rest, hread', -, hstored⟩
      cases hread.symm.trans hread'
      exact hstored
    · intro hstored
      exact ⟨parts, [], hread, rfl, hstored⟩

end Written

section Pages

/-- A storage in memory takes every layer. -/
def memoryStore : LayerStore UiStorage := fun storage query data =>
  (storage.insert query data, true)

/-- A page at its second generation, over a base, with an Event and a record without one. -/
def pageDomain : ModelDomain Unit Unit Unit := fun id =>
  if id = ⟨7⟩ then
    some (.node { objId := ⟨7⟩, classId := 0x302e84de, base := ⟨⟨5⟩, some ()⟩,
                  journal := [{ event := ⟨⟨20⟩, some ()⟩ }, { event := .empty }],
                  fields := (), generation := 2 })
  else if id = ⟨5⟩ then
    some (.node { objId := ⟨5⟩, classId := 0x302e84de, base := .empty, journal := [],
                  fields := () })
  else none

/-- What a page stores: the id of its base, and the number of its records. -/
def pageLayers : ModelObject Unit Unit Unit → Layers
  | .node node => [(0x302e84de, [(0, [node.base.id.id.toUInt8, UInt8.ofNat node.journal.length])])]
  | .other => [(0x0f06f801, [(0, [4])])]

/-- One object goes into the scratch storage. -/
def savePage (domain : ModelDomain Unit Unit Unit) (id : ObjId) (scratch : RamDomainStorage) :
    RamDomainStorage :=
  match domain id with
  | none => scratch
  | some object => scratch.insert id (some (pageLayers object))

/-- A page and its base. -/
def savePages (domain : ModelDomain Unit Unit Unit) (root : ObjId) (scratch : RamDomainStorage) :
    RamDomainStorage :=
  match domain.node? root with
  | none => savePage domain root scratch
  | some node => savePage domain node.base.id (savePage domain root scratch)

theorem wellStored_pageLayers (object : ModelObject Unit Unit Unit) :
    WellStored (pageLayers object) := by
  cases object with
  | node node => exact ⟨by simp [pageLayers], by simp [pageLayers], by simp [pageLayers]⟩
  | other => exact ⟨by simp [pageLayers], by simp [pageLayers], by simp [pageLayers]⟩

theorem wellStored_savePage {domain : ModelDomain Unit Unit Unit} {id : ObjId}
    {scratch : RamDomainStorage} (h : ∀ object ∈ scratch.live, WellStored object.2) :
    ∀ object ∈ (savePage domain id scratch).live, WellStored object.2 := by
  unfold savePage
  split
  case h_1 => exact h
  case h_2 found hfound =>
    rintro ⟨key, layers⟩ hobject
    rw [RamDomainStorage.mem_live_iff, RamDomainStorage.layers?] at hobject
    by_cases hkey : key = id
    · rw [hkey, AList.lookup_insert] at hobject
      cases hobject
      exact wellStored_pageLayers found
    · rw [AList.lookup_insert_ne hkey] at hobject
      exact h (key, layers) (RamDomainStorage.mem_live_iff.mpr hobject)

/-- The save of a Domain of pages. -/
def pageSaver : CheckpointSaver Unit Unit Unit where
  savePersistent domain root := savePages domain root ∅
  saveMaterialized domain root := savePage domain root ∅
  wellStored _ _ := wellStored_savePage (by simp [RamDomainStorage.live])
  saveInto := savePages
  saveInto_empty _ _ := rfl

/-- What is written of the page. -/
def savedPage : CheckpointSave Unit Unit Unit := (prepareCheckpoint pageSaver pageDomain ⟨7⟩).1

end Pages

section Guarantees

variable {σ β ε S : Type}

/-- A save leaves the Domain as it found it.  If the sidecar is written, and the numbers
fit their 32 bits, the storage is offered exactly the layers of the checkpoint, and the
save succeeds if it takes them. -/
theorem save_isInvisible (saver : CheckpointSaver σ β ε) (store : LayerStore S)
    (domain : ModelDomain σ β ε) (root : ObjId) (storage : S)
    (writeSidecar : Option (Bytes → Bool)) :
    ∃ stored accepted, savePersistentModelSnapshotToStorage saver store domain root storage
        writeSidecar = .ok (domain, stored, accepted) ∧
      ((∀ write, writeSidecar = some write →
          write (serializePersistentModelSnapshot saver domain root []).2 = true) →
        CheckpointFits ((prepareCheckpoint saver domain root).1.parts root)
          (baseBindings (prepareCheckpoint saver domain root).1.bases) →
        (stored, accepted) = storeWhile store storage
          ((prepareCheckpoint saver domain root).1.parts root).layers) := by
  have hdomain := serialize_domain saver domain root []
  have hbytes := serialize_bytes saver domain root []
  rw [List.nil_append] at hbytes
  unfold savePersistentModelSnapshotToStorage
  by_cases hsidecar : (writeSidecar.any fun write =>
      !write (serializePersistentModelSnapshot saver domain root []).2) = true
  · refine ⟨storage, false, (if_pos hsidecar).trans (by rw [hdomain]; rfl), fun hwritten => ?_⟩
    cases writeSidecar with
    | none => cases hsidecar
    | some write => simp [hwritten write rfl] at hsidecar
  · simp only [hsidecar, Bool.false_eq_true, if_false, hdomain]
    obtain ⟨injection, hinject, -⟩ := injectPersistentModelSnapshot_spec store
      (serializePersistentModelSnapshot saver domain root []).2 storage root.id
    rw [hinject]
    refine ⟨injection.storage, injection.accepted, rfl, fun _ hfits => ?_⟩
    obtain ⟨written, hinject', heq⟩ := inject_written store storage hfits
    rw [hbytes] at hinject
    cases hinject.symm.trans hinject'
    exact heq

/-- The page is as it was.  It is stored without its base and without the empty record. -/
theorem page_isSaved :
    ∃ stored, savePersistentModelSnapshotToStorage pageSaver memoryStore pageDomain ⟨7⟩ ∅ none =
        .ok (pageDomain, stored, true) ∧
      stored.lookup ⟨⟨7⟩, 0x302e84de, 0⟩ = some [0, 1] := by
  have hfits : CheckpointFits (savedPage.parts ⟨7⟩) (baseBindings savedPage.bases) := by
    decide +kernel
  have hlayers : (storeWhile memoryStore ∅ (savedPage.parts ⟨7⟩).layers).2 = true ∧
      (storeWhile memoryStore ∅ (savedPage.parts ⟨7⟩).layers).1.lookup ⟨⟨7⟩, 0x302e84de, 0⟩ =
        some [0, 1] := by
    decide +kernel
  obtain ⟨stored, accepted, hsave, hstored⟩ := save_isInvisible pageSaver memoryStore pageDomain
    ⟨7⟩ ∅ none
  have heq : (stored, accepted) = storeWhile memoryStore ∅ (savedPage.parts ⟨7⟩).layers :=
    hstored (by simp) hfits
  rw [← heq] at hlayers
  obtain ⟨rfl, hlookup⟩ := hlayers
  exact ⟨stored, hsave, hlookup⟩

/-- A checkpoint that lacks its end is taken if and only if the cut is within the number of
its bindings; then all of its layers are stored.  Otherwise the storage was offered some
of the layers, from the front. -/
theorem tornCheckpoint_isTaken_iff {parts : PublicationParts} {bindings : List (ObjId × ObjId)}
    (store : LayerStore S) (storage : S) (hfits : CheckpointFits parts bindings)
    (htakes : (storeWhile store storage parts.layers).2 = true) {size : Nat}
    (hsize : size ≤ (checkpointBytes parts bindings).length) :
    ∃ injection, injectPersistentModelSnapshotToStorage store
        ⟨(checkpointBytes parts bindings).take size, 0, true⟩ storage parts.root.id =
          .ok injection ∧
      (injection.accepted = true ↔ size = (checkpointBytes parts bindings).length ∨
        ((publicationBytes parts).length ≤ size ∧
          size < (publicationBytes parts).length + 4)) ∧
      (injection.accepted = true →
        injection.storage = (storeWhile store storage parts.layers).1) ∧
      ∃ count, injection.storage = (storeWhile store storage (parts.layers.take count)).1 := by
  obtain ⟨injection, hinject, hinjects⟩ := injectPersistentModelSnapshot_spec store
    ((checkpointBytes parts bindings).take size) storage parts.root.id
  have hoffered := offeredLayers_take_prefix parts.root.id size (checkpointBytes parts bindings)
  rw [offeredLayers_of_reader (checkpointReader_written hfits)] at hoffered
  have htaken : IsTaken store storage parts.root.id
      ((checkpointBytes parts bindings).take size) ↔
      (checkpointReader ((checkpointBytes parts bindings).take size)).isSome = true := by
    rw [Option.isSome_iff_exists]
    constructor
    · rintro ⟨torn, rest, hread, -⟩
      exact ⟨_, hread⟩
    · rintro ⟨⟨torn, rest⟩, hread⟩
      obtain rfl := parts_of_torn hfits hread
      exact ⟨torn, rest, hread, rfl, htakes⟩
  refine ⟨injection, hinject, ?_, fun haccepted => ?_, ?_⟩
  · rw [hinjects.accepted_iff, htaken, checkpointReader_take_iff hfits hsize]
  · obtain ⟨torn, rest, hread, -⟩ := hinjects.accepted_iff.mp haccepted
    obtain rfl := parts_of_torn hfits hread
    rw [hinjects.storage_eq, offeredLayers_of_reader hread]
  · refine ⟨(offeredLayers parts.root.id ((checkpointBytes parts bindings).take size)).length, ?_⟩
    rw [hinjects.storage_eq, ← List.prefix_iff_eq_take.mp hoffered]

/-- The page's checkpoint is taken without its bindings, cut within their number. -/
theorem tornPage_isTaken :
    ∃ injection, injectPersistentModelSnapshotToStorage memoryStore
        ⟨(checkpointBytes (savedPage.parts ⟨7⟩) [(⟨7⟩, ⟨5⟩)]).take
          ((publicationBytes (savedPage.parts ⟨7⟩)).length + 2), 0, true⟩ ∅ 7 = .ok injection ∧
      baseBindings savedPage.bases = [(⟨7⟩, ⟨5⟩)] ∧ injection.accepted = true := by
  have hfits : CheckpointFits (savedPage.parts ⟨7⟩) [(⟨7⟩, ⟨5⟩)] := by decide +kernel
  have hsize : (publicationBytes (savedPage.parts ⟨7⟩)).length + 2 ≤
      (checkpointBytes (savedPage.parts ⟨7⟩) [(⟨7⟩, ⟨5⟩)]).length := by decide +kernel
  obtain ⟨injection, hinject, haccepted, -⟩ := tornCheckpoint_isTaken_iff memoryStore ∅ hfits
    (by decide +kernel) hsize
  exact ⟨injection, hinject, by decide +kernel, haccepted.mpr (Or.inr (by omega))⟩

/-- Whatever the bytes are, an injection takes none outside them.  It offers the storage the
layers that can be read from the front until one is refused, and it succeeds if and only if
the bytes hold a checkpoint of the expected root and all of its layers were stored.  Bytes
of another root leave the storage as it was. -/
theorem injection_isExact (store : LayerStore S) (bytes : Bytes) (storage : S)
    (expectedRootId : UInt32) :
    ∃ injection, injectPersistentModelSnapshotToStorage store ⟨bytes, 0, true⟩ storage
        expectedRootId = .ok injection ∧
      injection.storage =
        (storeWhile store storage (offeredLayers expectedRootId bytes)).1 ∧
      (injection.accepted = true ↔ IsTaken store storage expectedRootId bytes) ∧
      ∀ rootId rest, machineNumber 4 UInt32.ofNat bytes = some (rootId, rest) →
        rootId ≠ expectedRootId → injection.storage = storage ∧ injection.accepted = false := by
  obtain ⟨injection, hinject, hinjects⟩ := injectPersistentModelSnapshot_spec store bytes storage
    expectedRootId
  refine ⟨injection, hinject, hinjects.storage_eq, hinjects.accepted_iff,
    fun rootId rest hroot hother => ⟨?_, ?_⟩⟩
  · rw [hinjects.storage_eq, offeredLayers, hroot]
    simp [hother, storeWhile]
  · rw [← Bool.not_eq_true, hinjects.accepted_iff]
    intro htaken
    obtain ⟨_, _, _, _, _, hroot', -⟩ := exists_parts_of_isTaken htaken
    cases hroot.symm.trans hroot'
    exact hother rfl

end Guarantees

end AppTraverse
