import AppTraverse.Presentation.ShellCreation

/-!
# Publications and the shells they need

A publication of `UiMirror::Publish` gives the GUI the objects of the model exactly if its
sizes fit and every shell that is needed is of a Node whose class has the greatest id among
its layers.  The ids are hashes of the class names, so nothing makes a derived class the
greatest: a chat room's shell is created as a shared node.
-/

namespace AppTraverse

open Foundations

section Sizes

theorem length_le_flatMap {τ : Type} (write : τ → Bytes) {entries : List τ} {entry : τ}
    (h : entry ∈ entries) : (write entry).length ≤ (entries.flatMap write).length :=
  (List.sublist_flatten_of_mem (List.mem_map_of_mem h)).length_le

theorem count_le_flatMap {τ : Type} {write : τ → Bytes}
    (hwrite : ∀ entry, 1 ≤ (write entry).length) (entries : List τ) :
    entries.length ≤ (entries.flatMap write).length := by
  induction entries with
  | nil => exact Nat.zero_le _
  | cons head tail ih =>
      have hhead := hwrite head
      rw [List.flatMap_cons, List.length_append, List.length_cons]
      omega

theorem length_layerBytes (layer : PublishedLayer) :
    (layerBytes layer).length = 13 + layer.data.length := by
  simp only [layerBytes, List.length_append, length_nativeU32Bytes, length_toBytes]

theorem one_le_layerBytes (layer : PublishedLayer) : 1 ≤ (layerBytes layer).length := by
  rw [length_layerBytes]
  omega

theorem one_le_generationBytes (entry : ObjId × UInt64) : 1 ≤ (generationBytes entry).length := by
  rw [generationBytes, List.length_append, length_nativeU32Bytes]
  omega

end Sizes

section Written

variable {σ β ε : Type} {saver : ModelSaver σ β ε} {model : ModelDomain σ β ε}
  {classOf : ObjId → ClassId}

/-- What the model side relies on for a changed Node: the layers of an object are stored in
the order of their classes, and the Node is stored with a layer of its own class. -/
structure SavesNode (saver : ModelSaver σ β ε) (model : ModelDomain σ β ε)
    (classOf : ObjId → ClassId) (node : Node σ β ε) : Prop where
  ordered : ∀ object ∈ (saver.saveMaterialized model node.objId).live,
    (object.2.map Prod.fst).Pairwise (· < ·)
  ownLayer : classOf node.objId ∈
    classesOf (publishedLayers model (saver.saveMaterialized model node.objId)) node.objId

theorem recordOf_payload (saver : ModelSaver σ β ε) (model : ModelDomain σ β ε)
    (node : Node σ β ε) : (recordOf saver model node).payload =
      tableBytes layerBytes (publishedLayers model (saver.saveMaterialized model node.objId)) ++
        tableBytes generationBytes
          (publishedGenerations model (saver.saveMaterialized model node.objId)) :=
  serializeObjectGraphToBuffer_eq model (saver.saveMaterialized model node.objId) []

/-- A payload of fewer than 2^32 bytes is read as the two tables that were written. -/
theorem recordOf_tables {node : Node σ β ε}
    (hsize : (recordOf saver model node).payload.length < 2 ^ 32) :
    WellFormedRecord (recordOf saver model node) ∧
      recordLayers (recordOf saver model node) =
        publishedLayers model (saver.saveMaterialized model node.objId) := by
  rw [recordOf_payload, List.length_append] at hsize
  simp only [tableBytes, List.length_append, length_nativeU32Bytes] at hsize
  have hlayerCount : (publishedLayers model
      (saver.saveMaterialized model node.objId)).length < 2 ^ 32 := by
    have hle := count_le_flatMap one_le_layerBytes
      (publishedLayers model (saver.saveMaterialized model node.objId))
    omega
  have hgenerationCount : (publishedGenerations model
      (saver.saveMaterialized model node.objId)).length < 2 ^ 32 := by
    have hle := count_le_flatMap one_le_generationBytes
      (publishedGenerations model (saver.saveMaterialized model node.objId))
    omega
  have hlayers : ∀ layer ∈ publishedLayers model (saver.saveMaterialized model node.objId),
      ∀ rest, layerEntry (layerBytes layer ++ rest) = some (layer, rest) := by
    intro layer hlayer rest
    have hle := length_le_flatMap layerBytes hlayer
    rw [length_layerBytes] at hle
    exact layerEntry_written (by omega) rest
  have hread := tableOf_written hlayerCount hlayers (tableBytes generationBytes
    (publishedGenerations model (saver.saveMaterialized model node.objId)))
  have hreadGenerations := tableOf_written hgenerationCount
    (fun entry _ => generationEntry_written entry) []
  rw [List.append_nil] at hreadGenerations
  rw [← recordOf_payload] at hread
  have hsame : recordLayers (recordOf saver model node) =
      publishedLayers model (saver.saveMaterialized model node.objId) := by
    rw [recordLayers, hread]
    rfl
  exact ⟨⟨_, _, by rw [hsame]; exact hread, hreadGenerations⟩, hsame⟩

/-- The layers of one object stand in the order of their classes. -/
theorem ordered_classesOf {scratch : RamDomainStorage} {id : ObjId}
    (hordered : ∀ object ∈ scratch.live, (object.2.map Prod.fst).Pairwise (· < ·)) :
    (classesOf (publishedLayers model scratch) id).Pairwise (· ≤ ·) := by
  have hlayers : (publishedLayers model scratch).Pairwise fun a b =>
      a.query.id = b.query.id → a.query.classId ≤ b.query.classId := by
    rw [publishedLayers, List.pairwise_flatMap]
    constructor
    · intro object hobject
      rw [objectLayers, List.pairwise_flatMap]
      constructor
      · intro entry _
        rw [List.pairwise_map]
        exact List.pairwise_of_forall fun _ _ _ => UInt32.le_refl _
      · have hclasses := List.pairwise_map.mp
          (hordered object (List.mem_of_mem_filter hobject))
        apply hclasses.imp
        intro a b hab x hx y hy _
        obtain ⟨_, -, rfl⟩ := List.mem_map.mp hx
        obtain ⟨_, -, rfl⟩ := List.mem_map.mp hy
        exact UInt32.le_of_lt hab
    · have hids : (publishedObjects model scratch).Pairwise fun a b => a.1 ≠ b.1 :=
        List.pairwise_map.mp (nodup_publishedObjects model scratch)
      apply hids.imp
      intro a b hab x hx y hy hsame
      obtain ⟨_, -, hx⟩ := List.mem_flatMap.mp hx
      obtain ⟨_, -, rfl⟩ := List.mem_map.mp hx
      obtain ⟨_, -, hy⟩ := List.mem_flatMap.mp hy
      obtain ⟨_, -, rfl⟩ := List.mem_map.mp hy
      exact absurd hsame hab
  rw [classesOf, List.pairwise_map]
  have hfiltered := hlayers.filter fun layer => decide (layer.query.id = id)
  apply hfiltered.imp_of_mem
  intro a b ha hb hle
  have hida := of_decide_eq_true (List.mem_filter.mp ha).2
  have hidb := of_decide_eq_true (List.mem_filter.mp hb).2
  exact hle (hida.trans hidb.symm)

/-- The record of a Node that is saved is the record of a Node. -/
theorem nodeRecord_of_saves {node : Node σ β ε} (hsaves : SavesNode saver model classOf node)
    (hsize : (recordOf saver model node).payload.length < 2 ^ 32) :
    NodeRecord classOf (recordOf saver model node) := by
  obtain ⟨hform, hlayers⟩ := recordOf_tables hsize
  refine ⟨hform, ?_, ?_⟩
  · rw [hlayers]
    exact ordered_classesOf hsaves.ordered
  · rw [hlayers]
    exact hsaves.ownLayer

end Written

section Publications

variable {ε : Type} {aether : ShellAether ε} {nodeClassId : ClassId} {classOf : ObjId → ClassId}
  {written : List PublishedRecord} {root : ObjId}

/-- `ApplyPublished` returns, has read what was written and applied each record once, and
all that the records store is in the GUI, every object with its class. -/
def MirrorsPublication (aether : ShellAether ε) (nodeClassId : ClassId)
    (classOf : ObjId → ClassId) (root : ObjId) (written : List PublishedRecord) (bytes : Bytes)
    (storage : UiStorage) (domain : ShellDomain ε) : Prop :=
  ∃ applied, applyPublished aether nodeClassId root bytes storage domain = .ok applied ∧
    applied.records = written ∧
    applied.ui.changedObjIds.Perm (written.map PublishedRecord.objId) ∧
    ∀ record ∈ written, ∀ id, StoresObject record id →
      classAt applied.ui.domain id = some (classOf id)

/-- The sizes fit their 32 bits, the GUI objects that are there have their classes, and the
shells that are needed are right. -/
structure ShellsInferred (aether : ShellAether ε) (nodeClassId : ClassId)
    (classOf : ObjId → ClassId) (written : List PublishedRecord) (domain : ShellDomain ε) :
    Prop where
  recordCount : written.length < 2 ^ 32
  payloadSizes : ∀ record ∈ written, record.payload.length < 2 ^ 32
  present : ∀ record ∈ written, RightFor classOf record domain
  shells : ShellsRight aether nodeClassId classOf
    (Mirrored (fun id => (classAt domain id).isSome) written) written

theorem avoids_checked {ρ : Type} (parser : SourceReader ρ) (source : ByteSource) :
    Avoids .stillRunning (checked parser source) := by
  rw [checked]
  split
  · simp [Avoids]
  · split <;> simp [Avoids]

theorem avoids_readRecords (count : Nat) (source : ByteSource) :
    Avoids .stillRunning (readRecords count source) := by
  induction count generalizing source with
  | zero => simp [readRecords, Avoids]
  | succ count ih =>
      rw [readRecords]
      apply (avoids_checked _ _).bind
      intro read
      dsimp only
      split
      · simp [Avoids]
      · split
        · simp [Avoids]
        · apply (ih _).bind
          simp [Avoids, pure, Except.pure]

theorem avoids_preferLayers (nodeClassId : ClassId) (wantId : ObjId) (count : Nat)
    (source : ByteSource) (first derived : ClassId) :
    Avoids .stillRunning (preferLayers nodeClassId wantId count source first derived) := by
  induction count generalizing source first derived with
  | zero => simp [preferLayers, Avoids]
  | succ count ih =>
      rw [preferLayers]
      split
      · simp [Avoids]
      · split
        · simp [Avoids]
        · split
          · simp [Avoids]
          · split <;> exact ih _ _ _

theorem avoids_preferredClassIdFor (nodeClassId : ClassId) (payload : Bytes) (wantId : ObjId) :
    Avoids .stillRunning (preferredClassIdFor nodeClassId payload wantId) := by
  rw [preferredClassIdFor]
  split
  · simp [Avoids]
  · apply (avoids_preferLayers _ _ _ _ _ _).bind
    simp [Avoids, pure, Except.pure]

theorem avoids_createShells (aether : ShellAether ε) (nodeClassId : ClassId)
    (records : List PublishedRecord) (ui : UiState ε) :
    Avoids .stillRunning (createShells aether nodeClassId records ui) := by
  induction records generalizing ui with
  | nil => simp [createShells, Avoids]
  | cons record rest ih =>
      rw [createShells]
      split
      · exact ih ui
      · apply (avoids_preferredClassIdFor _ _ _).bind
        intro classId
        split
        · simp [Avoids]
        · apply (avoids_applyExisting _ _ _).bind
          intro outcome
          split
          · simp [Avoids]
          · exact ih _

/-- The loop that applies records ends, whatever was published. -/
theorem avoids_applyPublished (aether : ShellAether ε) (nodeClassId : ClassId) (root : ObjId)
    (bytes : Bytes) (storage : UiStorage) (domain : ShellDomain ε) :
    Avoids .stillRunning (applyPublished aether nodeClassId root bytes storage domain) := by
  rw [applyPublished]
  apply (avoids_checked _ _).bind
  intro count
  apply (avoids_readRecords _ _).bind
  intro records
  apply Avoids.bind
  · apply avoids_progressLoop
    exact Nat.lt_succ_of_le List.countP_le_length
  · intro existing
    apply (avoids_createShells _ _ _ _).bind
    simp [Avoids, pure, Except.pure]

/-- What `ApplyPublished` does with the records that it reads. -/
theorem applyPublished_eq {bytes : Bytes} {records : List PublishedRecord} {rest : Bytes}
    (hread : tableOf recordEntry bytes = some (records, rest)) (storage : UiStorage)
    (domain : ShellDomain ε) :
    applyPublished aether nodeClassId root bytes storage domain =
      (progressLoop aether.loader root (records.length + 1) records
        ⟨storage, domain, []⟩).bind fun existing =>
          (createShells aether nodeClassId existing.records existing.ui).bind fun ui =>
            .ok ⟨records, ui⟩ := by
  obtain ⟨read, hcount, hmany⟩ := Option.bind_eq_some_iff.mp hread
  have hstep : applyPublished aether nodeClassId root bytes storage domain =
      (checked readU32Of ⟨bytes, 0, true⟩).bind fun count =>
        (readRecords count.1.toNat count.2).bind fun records =>
          (progressLoop aether.loader root (records.length + 1) records
            ⟨storage, domain, []⟩).bind fun existing =>
              (createShells aether nodeClassId existing.records existing.ui).bind fun ui =>
                .ok ⟨records, ui⟩ := rfl
  rw [hstep]
  rcases checked_cases follows_readU32Of (Nat.zero_le bytes.length) with
    ⟨hnone, -⟩ | ⟨count, after, hafter, hsome, hchecked⟩
  · rw [List.drop_zero, hcount] at hnone
    cases hnone
  rw [List.drop_zero, hcount] at hsome
  obtain rfl := Option.some.inj hsome
  change SuffixReader.many recordEntry count.toNat (bytes.drop after) = _ at hmany
  rw [hchecked, Except.bind]
  rcases readRecords_cases count.toNat hafter with ⟨hnone, -⟩ | ⟨found, left, hfound, hloop⟩
  · rw [hmany] at hnone
    cases hnone
  · rw [hmany] at hfound
    obtain ⟨rfl, -⟩ := Prod.mk.inj (Option.some.inj hfound)
    rw [hloop, Except.bind]

/-- The records that are read are the entries of a table. -/
theorem records_of_applyPublished {bytes : Bytes} {storage : UiStorage}
    {domain : ShellDomain ε} {applied : AppliedPublication ε}
    (h : applyPublished aether nodeClassId root bytes storage domain = .ok applied) :
    ∃ rest, tableOf recordEntry bytes = some (applied.records, rest) := by
  obtain ⟨count, hcount, h⟩ := except_bind_eq_ok_iff.mp h
  obtain ⟨records, hrecords, h⟩ := except_bind_eq_ok_iff.mp h
  obtain ⟨existing, -, h⟩ := except_bind_eq_ok_iff.mp h
  obtain ⟨ui, -, h⟩ := except_bind_eq_ok_iff.mp h
  obtain rfl := Except.ok.inj h
  rcases checked_cases follows_readU32Of (Nat.zero_le bytes.length) with
    ⟨-, hfails⟩ | ⟨value, after, hafter, hsome, hchecked⟩
  · rw [hfails] at hcount
    cases hcount
  rw [hchecked] at hcount
  obtain rfl := Except.ok.inj hcount
  rcases readRecords_cases value.toNat hafter with
    ⟨-, hfails⟩ | ⟨found, left, hfound, hloop⟩
  · rw [hfails] at hrecords
    cases hrecords
  · rw [hloop] at hrecords
    obtain rfl := Except.ok.inj hrecords
    refine ⟨left, ?_⟩
    rw [List.drop_zero] at hsome
    rw [tableOf, SuffixReader.andThen, hsome, Option.bind_some, hfound]

/-- Marks do not matter for the shells that are needed. -/
theorem shellsRight_unmarked (aether : ShellAether ε) (nodeClassId : ClassId)
    (classOf : ObjId → ClassId) (records : List PublishedRecord) (present : ObjId → Prop) :
    ShellsRight aether nodeClassId classOf present (unmarked records) ↔
      ShellsRight aether nodeClassId classOf present records := by
  induction records generalizing present with
  | nil => exact Iff.rfl
  | cons record rest ih =>
      have hhead : ShellIsRight aether nodeClassId classOf { record with applied := false } ↔
          ShellIsRight aether nodeClassId classOf record :=
        ⟨fun h => ⟨h.nonzero, h.factory, h.greatest⟩, fun h => ⟨h.nonzero, h.factory, h.greatest⟩⟩
      exact and_congr (imp_congr Iff.rfl hhead) (ih _)

/-- Applying a publication keeps the classes of the GUI. -/
theorem classAt_of_applyPublished (hkeeps : KeepsClasses aether.loader) {bytes : Bytes}
    {storage : UiStorage} {domain : ShellDomain ε} {applied : AppliedPublication ε}
    (h : applyPublished aether nodeClassId root bytes storage domain = .ok applied) {id : ObjId}
    {classId : ClassId} (hclass : classAt domain id = some classId) :
    classAt applied.ui.domain id = some classId := by
  obtain ⟨count, -, h⟩ := except_bind_eq_ok_iff.mp h
  obtain ⟨records, -, h⟩ := except_bind_eq_ok_iff.mp h
  obtain ⟨existing, hexisting, h⟩ := except_bind_eq_ok_iff.mp h
  obtain ⟨ui, hui, h⟩ := except_bind_eq_ok_iff.mp h
  obtain rfl := Except.ok.inj h
  exact createShells_keeps hkeeps hui (progressLoop_keeps hkeeps hexisting hclass)

/-- A GUI that is right so far gets the objects of a publication exactly if the shells that
are needed are right. -/
theorem mirrorsPublication_iff_shells (hpublication : LoadsPublication aether classOf written)
    (hrecords : ∀ record ∈ written, NodeRecord classOf record)
    (hnew : ∀ record ∈ written, record.applied = false) {bytes rest : Bytes}
    (hread : tableOf recordEntry bytes = some (written, rest)) {storage : UiStorage}
    {domain : ShellDomain ε} (hright : ∀ record ∈ written, RightFor classOf record domain) :
    MirrorsPublication aether nodeClassId classOf root written bytes storage domain ↔
      ShellsRight aether nodeClassId classOf
        (Mirrored (fun id => (classAt domain id).isSome) written) written := by
  have hsame : unmarked written = written := by
    rw [unmarked]
    apply (List.map_congr_left fun record hrecord => ?_).trans (List.map_id written)
    show { record with applied := false } = record
    rw [← hnew record hrecord]
  have hstart : Progressed classOf (fun id => (classAt domain id).isSome) written written
      domain :=
    { same := hsame
      right := hright
      brought := fun record hrecord happlied => by
        rw [hnew record hrecord] at happlied
        cases happlied
      reached := fun _ hid => Mirrored.present hid
      kept := fun _ hid => hid }
  have hfuel : unapplied written < written.length + 1 :=
    Nat.lt_succ_of_le List.countP_le_length
  obtain ⟨existing, hexisting, hprogressed, hdone⟩ := progressLoop_progressed root
    hpublication hrecords (written.length + 1) ⟨storage, domain, []⟩ hfuel hstart
  have hthere := isSome_iff_mirrored hprogressed hdone
  have hshelling : Shelling classOf (Mirrored (fun id => (classAt domain id).isSome) written)
      written existing.records existing.ui.domain :=
    { right := hprogressed.right
      there := hthere
      brought := fun record hrecord happlied id hid =>
        (hthere id).mp (hprogressed.brought record hrecord happlied id hid)
      same := fun _ hrecord => mem_written hprogressed.same hrecord }
  have hshells := createShells_iff nodeClassId hpublication hrecords
    existing.records hshelling
  have hmarked : ShellsRight aether nodeClassId classOf
      (Mirrored (fun id => (classAt domain id).isSome) written) existing.records ↔
      ShellsRight aether nodeClassId classOf
        (Mirrored (fun id => (classAt domain id).isSome) written) written := by
    have hiff := shellsRight_unmarked aether nodeClassId classOf existing.records
      (Mirrored (fun id => (classAt domain id).isSome) written)
    rw [hprogressed.same] at hiff
    exact hiff.symm
  have hrun : applyPublished aether nodeClassId root bytes storage domain =
      (createShells aether nodeClassId existing.records existing.ui).bind fun ui =>
        .ok ⟨written, ui⟩ := by
    rw [applyPublished_eq hread, hexisting]
    rfl
  -- A record stores the same objects whether it is marked or not.
  have hstored : ∀ final : UiState ε, (∀ record ∈ written, ∀ id, StoresObject record id →
        classAt final.domain id = some (classOf id)) ↔
      ∀ record ∈ existing.records, ∀ id, StoresObject record id →
        classAt final.domain id = some (classOf id) := by
    intro final
    constructor
    · intro h record hrecord
      exact h { record with applied := false } (mem_written hprogressed.same hrecord)
    · intro h record hrecord
      rw [← hprogressed.same] at hrecord
      obtain ⟨marked, hmarkedMem, rfl⟩ := List.mem_map.mp hrecord
      exact h marked hmarkedMem
  rw [← hmarked, ← hshells]
  constructor
  · rintro ⟨applied, happlied, -, -, hall⟩
    rw [hrun] at happlied
    obtain ⟨final, hfinal, happlied⟩ := except_bind_eq_ok_iff.mp happlied
    obtain rfl := Except.ok.inj happlied
    exact ⟨final, hfinal, (hstored final).mp hall⟩
  · rintro ⟨final, hfinal, hall⟩
    have hdone : applyPublished aether nodeClassId root bytes storage domain =
        .ok ⟨written, final⟩ := by
      rw [hrun, hfinal]
      rfl
    exact ⟨⟨written, final⟩, hdone, rfl, changed_of_applyPublished hnew hdone,
      (hstored final).mpr hall⟩

end Publications

section Publishing

variable {σ β ε : Type}

/-- For every publication of changed Nodes and every GUI Domain, the loop of
`ApplyPublished` ends; and every record is applied once and brings its objects with their
classes exactly if the sizes fit, the objects that were there have their classes, and every
shell that is needed is of a Node whose class has the greatest id among its layers. -/
theorem applyPublished_mirrors_iff (aether : ShellAether ε) (nodeClassId : ClassId)
    (classOf : ObjId → ClassId) (saver : ModelSaver σ β ε) (model : ModelDomain σ β ε)
    (changed : List (Node σ β ε)) (root : ObjId) (bytes : Bytes) (storage : UiStorage)
    (domain : ShellDomain ε)
    (hwritten : publicationOf saver model changed = some bytes)
    (hsaves : ∀ node ∈ changed, SavesNode saver model classOf node)
    (hpublication : LoadsPublication aether classOf (changed.map (recordOf saver model))) :
    Avoids .stillRunning (applyPublished aether nodeClassId root bytes storage domain) ∧
      (MirrorsPublication aether nodeClassId classOf root
          (changed.map (recordOf saver model)) bytes storage domain ↔
        ShellsInferred aether nodeClassId classOf (changed.map (recordOf saver model))
          domain) := by
  refine ⟨avoids_applyPublished aether nodeClassId root bytes storage domain, ?_⟩
  have hnew : ∀ record ∈ changed.map (recordOf saver model), record.applied = false := by
    intro record hrecord
    obtain ⟨node, -, rfl⟩ := List.mem_map.mp hrecord
    rfl
  have hbytes := publicationOf_eq hwritten
  have hrecords : (∀ record ∈ changed.map (recordOf saver model),
      record.payload.length < 2 ^ 32) →
      ∀ record ∈ changed.map (recordOf saver model), NodeRecord classOf record := by
    intro hsizes record hrecord
    have hsize := hsizes record hrecord
    obtain ⟨node, hnode, rfl⟩ := List.mem_map.mp hrecord
    exact nodeRecord_of_saves (hsaves node hnode) hsize
  constructor
  · intro hmirrors
    obtain ⟨applied, happlied, hread, honce, hclasses⟩ := hmirrors
    obtain ⟨rest, htable⟩ := records_of_applyPublished happlied
    rw [hread] at htable
    have hcount := tableOf_short htable
    have hsizes : ∀ record ∈ changed.map (recordOf saver model),
        record.payload.length < 2 ^ 32 := by
      obtain ⟨count, -, hmany⟩ := Option.bind_eq_some_iff.mp htable
      exact SuffixReader.forall_of_many (fun _ _ _ => recordEntry_short) hmany
    have hright : ∀ record ∈ changed.map (recordOf saver model),
        RightFor classOf record domain := by
      intro record hrecord id hid classId hclass
      have hkept := classAt_of_applyPublished hpublication.keeps happlied hclass
      rw [hclasses record hrecord id hid] at hkept
      exact (Option.some.inj hkept).symm
    exact ⟨hcount, hsizes, hright, (mirrorsPublication_iff_shells hpublication
      (hrecords hsizes) hnew htable hright).mp ⟨applied, happlied, hread, honce,
        hclasses⟩⟩
  · intro hinferred
    have htable := tableOf_written hinferred.recordCount (fun record hrecord =>
      recordEntry_written (hnew record hrecord) (hinferred.payloadSizes record hrecord)) []
    rw [List.append_nil, ← hbytes] at htable
    exact (mirrorsPublication_iff_shells hpublication (hrecords hinferred.payloadSizes) hnew
      htable hinferred.present).mpr hinferred.shells

end Publishing

section Shells

/-- `Node::kClassId`. -/
def kNodeClassId : ClassId := 0x302e84de

/-- A Node without children and without Events. -/
def loneNode : Node Unit Unit Unit where
  objId := ⟨7⟩
  classId := 0
  base := .empty
  journal := []
  fields := ()
  generation := 3

def loneDomain : ModelDomain Unit Unit Unit := fun id =>
  if id = ⟨7⟩ then some (.node loneNode) else none

/-- The save of the lone Node, with these layers. -/
def loneScratch (layers : Layers) : RamDomainStorage :=
  (∅ : RamDomainStorage).insert ⟨7⟩ (some layers)

def loneSaver (layers : Layers) (hlayers : WellStored layers) : ModelSaver Unit Unit Unit where
  savePersistent _ _ := loneScratch layers
  saveMaterialized _ _ := loneScratch layers
  wellStored _ _ object hobject := by
    have hlive : (loneScratch layers).live = [(⟨7⟩, layers)] := rfl
    rw [hlive] at hobject
    rw [List.mem_singleton.mp hobject]
    exact hlayers

/-- An Aether that has all classes; a Node without children is loaded into itself. -/
def shellAether : ShellAether Unit where
  loader :=
    { loadRoot := fun _ domain _ => (domain, false)
      loadObject := fun _ domain _ => (domain, true) }
  create classId := some ⟨classId, some {}⟩
  create_fields := by
    intro classId object h
    rw [← Option.some.inj h]

theorem shellAether_loads (classOf : ObjId → ClassId) {written : List PublishedRecord}
    (hstored : ∀ record ∈ written, ∀ id, StoresObject record id → id = record.objId) :
    LoadsPublication shellAether classOf written where
  keeps := fun _ _ _ _ _ h => h
  loads := fun record hrecord =>
    { root := fun storage domain _ hright hthere id => by
        refine ⟨fun hid => ?_, fun _ => rfl⟩
        have hown := hstored record hrecord id hid
        subst hown
        obtain ⟨classId, hclass⟩ := Option.isSome_iff_exists.mp hthere
        rw [← hright record.objId hid classId hclass]
        exact hclass
      again := fun _ _ _ _ _ _ _ => rfl }

/-- The layers of a link, in the order of the class ids of `Node` and `Link`. -/
def linkLayers : Layers := [(0x302e84de, [(0, [1])]), (0x83fdf56a, [(0, [2])])]

theorem linkLayers_wellStored : WellStored linkLayers := ⟨by decide, by decide, by decide⟩

def linkRecord : PublishedRecord :=
  recordOf (loneSaver linkLayers linkLayers_wellStored) loneDomain loneNode

def linkPublication : Bytes :=
  [loneNode].foldl (writeRecord (loneSaver linkLayers linkLayers_wellStored) loneDomain)
    (nativeU32Bytes 1)

theorem linkRecord_layers : recordLayers linkRecord =
    [⟨⟨⟨7⟩, 0x302e84de, 0⟩, [1]⟩, ⟨⟨⟨7⟩, 0x83fdf56a, 0⟩, [2]⟩] :=
  (recordOf_tables (by decide)).2

theorem linkRecord_stores (id : ObjId) (h : StoresObject linkRecord id) :
    id = linkRecord.objId := by
  obtain ⟨layer, hlayer, rfl⟩ := h
  rw [linkRecord_layers] at hlayer
  rcases List.mem_pair.mp hlayer with rfl | rfl <;> rfl

theorem linkNode_saves : SavesNode (loneSaver linkLayers linkLayers_wellStored) loneDomain
    (fun _ => 0x83fdf56a) loneNode := by
  constructor
  · intro object hobject
    have hlive : (loneScratch linkLayers).live = [(⟨7⟩, linkLayers)] := rfl
    change object ∈ (loneScratch linkLayers).live at hobject
    rw [hlive] at hobject
    rw [List.mem_singleton.mp hobject]
    decide
  · decide

/-- A link is mirrored: `Link` has a greater class id than `Node`. -/
theorem link_mirrored : MirrorsPublication shellAether kNodeClassId (fun _ => 0x83fdf56a) ⟨7⟩
    [linkRecord] linkPublication ∅ (fun _ => none) :=
  (applyPublished_mirrors_iff shellAether kNodeClassId (fun _ => 0x83fdf56a)
    (loneSaver linkLayers linkLayers_wellStored) loneDomain [loneNode] ⟨7⟩ linkPublication ∅
    (fun _ => none) rfl
    (fun node hnode => by rw [List.mem_singleton.mp hnode]; exact linkNode_saves)
    (shellAether_loads _ fun record hrecord => by
      rw [List.mem_singleton.mp hrecord]
      exact linkRecord_stores)).2.mpr
    { recordCount := by decide
      payloadSizes := by decide
      present := fun _ _ _ _ _ h => by cases h
      shells := by
        refine ⟨fun _ => ⟨by decide, rfl, ?_⟩, trivial⟩
        intro layer hlayer _ _
        change layer ∈ recordLayers linkRecord at hlayer
        rw [linkRecord_layers] at hlayer
        rcases List.mem_pair.mp hlayer with rfl | rfl <;> decide }

/-- The layers of a chat room, in the order of the class ids of `ChatRoom`, `Node` and
`SharedNode`. -/
def roomLayers : Layers :=
  [(0x05b24e44, [(0, [3])]), (0x302e84de, [(0, [1])]), (0xd53ceb85, [(0, [2])])]

theorem roomLayers_wellStored : WellStored roomLayers := ⟨by decide, by decide, by decide⟩

def roomRecord : PublishedRecord :=
  recordOf (loneSaver roomLayers roomLayers_wellStored) loneDomain loneNode

def roomPublication : Bytes :=
  [loneNode].foldl (writeRecord (loneSaver roomLayers roomLayers_wellStored) loneDomain)
    (nativeU32Bytes 1)

theorem roomRecord_layers : recordLayers roomRecord =
    [⟨⟨⟨7⟩, 0x05b24e44, 0⟩, [3]⟩, ⟨⟨⟨7⟩, 0x302e84de, 0⟩, [1]⟩, ⟨⟨⟨7⟩, 0xd53ceb85, 0⟩, [2]⟩] :=
  (recordOf_tables (by decide)).2

theorem roomNode_saves : SavesNode (loneSaver roomLayers roomLayers_wellStored) loneDomain
    (fun _ => 0x05b24e44) loneNode := by
  constructor
  · intro object hobject
    have hlive : (loneScratch roomLayers).live = [(⟨7⟩, roomLayers)] := rfl
    change object ∈ (loneScratch roomLayers).live at hobject
    rw [hlive] at hobject
    rw [List.mem_singleton.mp hobject]
    decide
  · decide

theorem roomRecord_stores (id : ObjId) (h : StoresObject roomRecord id) :
    id = roomRecord.objId := by
  obtain ⟨layer, hlayer, rfl⟩ := h
  rw [roomRecord_layers] at hlayer
  simp only [List.mem_cons, List.not_mem_nil, or_false] at hlayer
  rcases hlayer with rfl | rfl | rfl <;> rfl

/-- A chat room that the GUI does not have is published, and its shell is a shared node. -/
theorem room_notMirrored :
    publicationOf (loneSaver roomLayers roomLayers_wellStored) loneDomain [loneNode] =
        some roomPublication ∧
      LoadsPublication shellAether (fun _ => 0x05b24e44) [roomRecord] ∧
      preferredClassIdFor kNodeClassId roomRecord.payload ⟨7⟩ = .ok 0xd53ceb85 ∧
      ¬MirrorsPublication shellAether kNodeClassId (fun _ => 0x05b24e44) ⟨7⟩ [roomRecord]
        roomPublication ∅ (fun _ => none) := by
  have hloads : LoadsPublication shellAether (fun _ => 0x05b24e44) [roomRecord] := by
    apply shellAether_loads
    intro record hrecord
    rw [List.mem_singleton.mp hrecord]
    exact roomRecord_stores
  have hrecord : NodeRecord (fun _ => 0x05b24e44) roomRecord :=
    nodeRecord_of_saves roomNode_saves (by decide)
  have hbytes : roomPublication = tableBytes recordBytes [roomRecord] :=
    @publicationOf_eq Unit Unit Unit (loneSaver roomLayers roomLayers_wellStored) loneDomain
      [loneNode] roomPublication rfl
  have htable : tableOf recordEntry roomPublication = some ([roomRecord], []) := by
    have hentry : ∀ record ∈ [roomRecord], ∀ rest,
        recordEntry (recordBytes record ++ rest) = some (record, rest) := by
      intro record hmem
      rw [List.mem_singleton.mp hmem]
      exact recordEntry_written rfl (by decide)
    have hcount : [roomRecord].length < 2 ^ 32 := by decide
    have hread := tableOf_written hcount hentry []
    rw [hbytes]
    rw [List.append_nil] at hread
    exact hread
  refine ⟨rfl, hloads, ?_, ?_⟩
  · obtain ⟨rest, generations, hlayers, -⟩ := hrecord.wellFormed
    rw [preferredClassIdFor_eq kNodeClassId ⟨7⟩ hlayers, roomRecord_layers]
    decide
  · intro hmirrors
    have hshells := (mirrorsPublication_iff_shells hloads
      (fun record hmem => by rw [List.mem_singleton.mp hmem]; exact hrecord)
      (fun record hmem => by rw [List.mem_singleton.mp hmem]; rfl) htable
      (fun _ _ _ _ _ h => by cases h)).mp hmirrors
    have hmissing : ∀ id, ¬Mirrored (fun id => (classAt (fun _ => none : ShellDomain Unit)
        id).isSome) [roomRecord] id := by
      intro id hid
      induction hid with
      | present hpresent => cases hpresent
      | stored _ _ _ ih => exact ih
    have hright := hshells.1 (hmissing ⟨7⟩)
    have hgreatest := hright.greatest ⟨⟨⟨7⟩, 0xd53ceb85, 0⟩, [2]⟩
      (by rw [roomRecord_layers]; decide) rfl (by decide)
    exact absurd hgreatest (by decide)

end Shells

end AppTraverse
