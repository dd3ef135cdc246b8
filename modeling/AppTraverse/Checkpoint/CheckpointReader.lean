import AppTraverse.Checkpoint.PersistentCheckpoint
import AppTraverse.Presentation.PublicationRoundTrip

/-!
# What a storage takes from a checkpoint

`checkpointReader` says which bytes are a checkpoint.  The binding table may be missing:
up to three bytes after the generations are passed over.

`offeredLayers` are the layers that can be read from the front of any bytes, up to the
number that the bytes announce.  They are offered to the storage one by one while they are
read, so a load that is refused has stored the layers before the one that it failed at
(`inject_spec`).
-/

namespace AppTraverse

open Foundations

section Readers

/-- An entry of the binding table, from the bytes that are left. -/
def bindingEntry : SuffixReader (ObjId × ObjId) :=
  SuffixReader.andThen (machineNumber 4 UInt32.ofNat) fun nodeId =>
  SuffixReader.andThen (machineNumber 4 UInt32.ofNat) fun baseId =>
  SuffixReader.done (⟨nodeId⟩, ⟨baseId⟩)

theorem follows_readBindingEntry : Follows readBindingEntry bindingEntry :=
  follows_readU32Of.bind fun _ => follows_readU32Of.bind fun _ => Follows.pure _

theorem prefixed_bindingEntry : Prefixed bindingEntry :=
  SuffixReader.prefixed_andThen (prefixed_machineNumber 4 _) fun _ =>
    SuffixReader.prefixed_andThen (prefixed_machineNumber 4 _) fun _ =>
      SuffixReader.prefixed_done _

theorem bindingEntry_written (entry : ObjId × ObjId) (rest : Bytes) :
    bindingEntry (bindingBytes entry ++ rest) = some (entry, rest) := by
  rw [bindingBytes, List.append_assoc, bindingEntry, SuffixReader.andThen,
    machineNumber_nativeU32Bytes, Option.bind_some, SuffixReader.andThen,
    machineNumber_nativeU32Bytes, Option.bind_some]
  rfl

/-- What is left after the bindings, if there is room for their number. -/
def afterBindings (input : Bytes) : Option Bytes :=
  if input.length < 4 then some input else (tableOf bindingEntry input).map Prod.snd

/-- A checkpoint, from the bytes that are left. -/
def checkpointReader : SuffixReader PublicationParts :=
  SuffixReader.andThen publicationParts fun parts input =>
    (afterBindings input).map fun rest => (parts, rest)

/-- A checkpoint is a root id, two tables, and what is passed over. -/
theorem checkpointReader_eq_some_iff {input rest : Bytes} {parts : PublicationParts} :
    checkpointReader input = some (parts, rest) ↔
      ∃ afterRoot afterLayers afterGenerations,
        machineNumber 4 UInt32.ofNat input = some (parts.root.id, afterRoot) ∧
        tableOf layerEntry afterRoot = some (parts.layers, afterLayers) ∧
        tableOf generationEntry afterLayers = some (parts.generations, afterGenerations) ∧
        afterBindings afterGenerations = some rest := by
  constructor
  · intro h
    obtain ⟨⟨parts', afterGenerations⟩, hparts, h⟩ := Option.bind_eq_some_iff.mp h
    obtain ⟨rest', hafter, h⟩ := Option.map_eq_some_iff.mp h
    obtain ⟨rfl, rfl⟩ := Prod.mk.inj h
    obtain ⟨⟨rootId, afterRoot⟩, hroot, hparts⟩ := Option.bind_eq_some_iff.mp hparts
    obtain ⟨⟨layers, afterLayers⟩, hlayers, hparts⟩ := Option.bind_eq_some_iff.mp hparts
    obtain ⟨⟨generations, last⟩, hgenerations, hparts⟩ := Option.bind_eq_some_iff.mp hparts
    obtain ⟨rfl, rfl⟩ := Prod.mk.inj (Option.some.inj hparts)
    exact ⟨afterRoot, afterLayers, last, hroot, hlayers, hgenerations, hafter⟩
  · rintro ⟨afterRoot, afterLayers, afterGenerations, hroot, hlayers, hgenerations, hafter⟩
    rw [checkpointReader, SuffixReader.andThen, publicationParts, SuffixReader.andThen, hroot,
      Option.bind_some, SuffixReader.andThen, hlayers, Option.bind_some, SuffixReader.andThen,
      hgenerations, Option.bind_some, SuffixReader.done, Option.bind_some, hafter]
    rfl

/-- The entries at the front of some bytes, up to a number of them. -/
def readableEntries {τ : Type} (entry : SuffixReader τ) : Nat → Bytes → List τ
  | 0, _ => []
  | count + 1, input =>
      match entry input with
      | none => []
      | some (value, rest) => value :: readableEntries entry count rest

/-- The layers that some bytes offer to a storage. -/
def offeredLayers (expectedRootId : UInt32) (input : Bytes) : List PublishedLayer :=
  match machineNumber 4 UInt32.ofNat input with
  | none => []
  | some (rootId, afterRoot) =>
      if rootId ≠ expectedRootId then []
      else
        match machineNumber 4 UInt32.ofNat afterRoot with
        | none => []
        | some (count, afterCount) => readableEntries layerEntry count.toNat afterCount

theorem readableEntries_of_many {τ : Type} {entry : SuffixReader τ} {count : Nat}
    {input rest : Bytes} {entries : List τ}
    (h : SuffixReader.many entry count input = some (entries, rest)) :
    readableEntries entry count input = entries := by
  induction count generalizing input entries with
  | zero =>
      obtain ⟨rfl, rfl⟩ := Prod.mk.inj (Option.some.inj h)
      rfl
  | succ count ih =>
      obtain ⟨⟨head, middle⟩, hhead, h⟩ := Option.bind_eq_some_iff.mp h
      obtain ⟨⟨tail, rest'⟩, htail, h⟩ := Option.bind_eq_some_iff.mp h
      obtain ⟨rfl, rfl⟩ := Prod.mk.inj (Option.some.inj h)
      rw [readableEntries, hhead]
      exact congrArg _ (ih htail)

/-- A checkpoint of the expected root offers its layers. -/
theorem offeredLayers_of_reader {input rest : Bytes} {parts : PublicationParts}
    (h : checkpointReader input = some (parts, rest)) :
    offeredLayers parts.root.id input = parts.layers := by
  obtain ⟨afterRoot, afterLayers, _, hroot, hlayers, -, -⟩ := checkpointReader_eq_some_iff.mp h
  obtain ⟨⟨count, afterCount⟩, hcount, hmany⟩ := Option.bind_eq_some_iff.mp hlayers
  simp only [offeredLayers, hroot, hcount, ne_eq, not_true_eq_false, if_false]
  exact readableEntries_of_many hmany

end Readers

section Stores

variable {S τ : Type}

/-- Layers are stored one by one, until one is refused. -/
def storeWhile (store : LayerStore S) (storage : S) : List PublishedLayer → S × Bool
  | [] => (storage, true)
  | layer :: rest =>
      let stored := store storage layer.query layer.data
      if stored.2 then storeWhile store stored.1 rest else (stored.1, false)

variable {store : LayerStore S}

/-- A read of a source is where its reader is. -/
theorem followed_cases {parser : SourceReader τ} {reader : SuffixReader τ}
    (hfollows : Follows parser reader) {bytes : Bytes} {pos : Nat} (hpos : pos ≤ bytes.length) :
    (reader (bytes.drop pos) = none ∧
      ∃ value after, parser ⟨bytes, pos, true⟩ = .ok (value, after) ∧ after.ok = false) ∨
    ∃ value after, after ≤ bytes.length ∧
      reader (bytes.drop pos) = some (value, bytes.drop after) ∧
      parser ⟨bytes, pos, true⟩ = .ok (value, ⟨bytes, after, true⟩) :=
  hfollows.reads bytes pos hpos

/-- The layer loop stores the layers that can be read, and goes on if all of them could be
read and were stored. -/
theorem injectCheckpointLayers_spec (count : Nat) {bytes : Bytes} {pos : Nat}
    (hpos : pos ≤ bytes.length) (storage : S) :
    ∃ injection, injectCheckpointLayers store count ⟨bytes, pos, true⟩ storage = .ok injection ∧
      injection.storage =
        (storeWhile store storage (readableEntries layerEntry count (bytes.drop pos))).1 ∧
      (injection.accepted = true →
        (storeWhile store storage (readableEntries layerEntry count (bytes.drop pos))).2 = true ∧
        ∃ after, after ≤ bytes.length ∧ injection.source = ⟨bytes, after, true⟩ ∧
          SuffixReader.many layerEntry count (bytes.drop pos) =
            some (readableEntries layerEntry count (bytes.drop pos), bytes.drop after)) ∧
      (injection.accepted = false →
        SuffixReader.many layerEntry count (bytes.drop pos) = none ∨
        (storeWhile store storage
          (readableEntries layerEntry count (bytes.drop pos))).2 = false) := by
  induction count generalizing pos storage with
  | zero => exact ⟨_, rfl, rfl, fun _ => ⟨rfl, pos, hpos, rfl, rfl⟩, by simp⟩
  | succ count ih =>
      have hstep : injectCheckpointLayers store (count + 1) ⟨bytes, pos, true⟩ storage =
          (readLayerHeader ⟨bytes, pos, true⟩).bind _ := rfl
      rw [hstep]
      rcases followed_cases follows_readLayerHeader hpos with
        ⟨hnone, value, after, hread, hmark⟩ | ⟨header, middle, hmiddle, hsome, hread⟩
      · have hentry : layerEntry (bytes.drop pos) = none := by
          rw [layerEntry, SuffixReader.andThen, hnone]
          rfl
        rw [hread]
        simp only [Except.bind, hmark, Bool.not_false, Bool.true_or, if_true, readableEntries,
          hentry]
        exact ⟨_, rfl, rfl, by simp, fun _ => Or.inl (SuffixReader.many_succ_none hentry count)⟩
      have hentry := layerEntry_of_header hsome
      have hlength : (bytes.drop middle).length = bytes.length - middle := List.length_drop
      rw [hread, Except.bind]
      by_cases hshort : bytes.length < middle + header.size.toNat
      · rw [if_pos (by omega)] at hentry
        simp only [hshort, decide_true, Bool.or_true, if_true, readableEntries, hentry]
        exact ⟨_, rfl, rfl, by simp, fun _ => Or.inl (SuffixReader.many_succ_none hentry count)⟩
      · rw [if_neg (by omega), List.drop_drop] at hentry
        have hbytes : Cursor.bytesAt bytes middle header.size.toNat =
            .ok ((bytes.drop middle).take header.size.toNat) := if_pos (by omega)
        have hnext : middle + header.size.toNat ≤ bytes.length := by omega
        rw [SuffixReader.many_succ_some hentry]
        simp only [hshort, decide_false, Bool.not_true, Bool.or_false, Bool.false_eq_true,
          if_false, hbytes, readableEntries, hentry, storeWhile]
        show ∃ injection, (if (!(store storage header.query _).2) = true then _ else _) = _ ∧ _
        cases hstored : (store storage header.query
            ((bytes.drop middle).take header.size.toNat)).2 with
        | false =>
            refine ⟨_, if_pos (by simp), ?_, by simp, fun _ => Or.inr ?_⟩
            · simp
            · simp
        | true =>
            simp only [Bool.not_true, Bool.false_eq_true, if_false, if_true]
            obtain ⟨injection, hloop, hstorage, haccepted, hrefused⟩ := ih hnext
              (store storage header.query ((bytes.drop middle).take header.size.toNat)).1
            refine ⟨injection, hloop, hstorage, fun h => ?_, fun h => ?_⟩
            · obtain ⟨hall, after, hafter, hsource, hmany⟩ := haccepted h
              exact ⟨hall, after, hafter, hsource, by rw [hmany]; rfl⟩
            · rcases hrefused h with hnone | hfailed
              · exact Or.inl (by rw [hnone]; rfl)
              · exact Or.inr hfailed

/-- A loop that skips entries goes on where the reader reads them. -/
theorem skipEntries_spec {parser : SourceReader τ} {reader : SuffixReader τ}
    (hfollows : Follows parser reader) (count : Nat) {bytes : Bytes} {pos : Nat}
    (hpos : pos ≤ bytes.length) :
    (SuffixReader.many reader count (bytes.drop pos) = none ∧
      ∃ after, skipEntries parser count ⟨bytes, pos, true⟩ = .ok (after, false)) ∨
    ∃ entries after, after ≤ bytes.length ∧
      SuffixReader.many reader count (bytes.drop pos) = some (entries, bytes.drop after) ∧
      skipEntries parser count ⟨bytes, pos, true⟩ = .ok (⟨bytes, after, true⟩, true) := by
  induction count generalizing pos with
  | zero => exact Or.inr ⟨[], pos, hpos, rfl, rfl⟩
  | succ count ih =>
      have hstep : skipEntries parser (count + 1) ⟨bytes, pos, true⟩ =
          (parser ⟨bytes, pos, true⟩).bind fun read =>
            if !read.2.ok then pure (read.2, false)
            else skipEntries parser count read.2 := rfl
      rw [hstep]
      rcases followed_cases hfollows hpos with
        ⟨hnone, value, after, hread, hmark⟩ | ⟨value, middle, hmiddle, hsome, hread⟩
      · rw [hread]
        exact Or.inl ⟨SuffixReader.many_succ_none hnone count, after, if_pos (by simp [hmark])⟩
      · rw [hread, SuffixReader.many_succ_some hsome]
        rcases ih hmiddle with ⟨hnone, after, hloop⟩ | ⟨entries, after, hafter, hrest, hloop⟩
        · exact Or.inl ⟨by rw [hnone]; rfl, after, hloop⟩
        · exact Or.inr ⟨value :: entries, after, hafter, by rw [hrest]; rfl, hloop⟩

theorem skipTable_spec {parser : SourceReader τ} {reader : SuffixReader τ}
    (hfollows : Follows parser reader) {bytes : Bytes} {pos : Nat} (hpos : pos ≤ bytes.length) :
    (tableOf reader (bytes.drop pos) = none ∧
      ∃ after, skipTable parser ⟨bytes, pos, true⟩ = .ok (after, false)) ∨
    ∃ entries after, after ≤ bytes.length ∧
      tableOf reader (bytes.drop pos) = some (entries, bytes.drop after) ∧
      skipTable parser ⟨bytes, pos, true⟩ = .ok (⟨bytes, after, true⟩, true) := by
  have hstep : skipTable parser ⟨bytes, pos, true⟩ =
      (readU32Of ⟨bytes, pos, true⟩).bind fun count =>
        if !count.2.ok then pure (count.2, false)
        else skipEntries parser count.1.toNat count.2 := rfl
  rw [hstep, tableOf, SuffixReader.andThen]
  rcases followed_cases follows_readU32Of hpos with
    ⟨hnone, value, after, hread, hmark⟩ | ⟨count, middle, hmiddle, hsome, hread⟩
  · rw [hnone, hread]
    exact Or.inl ⟨rfl, after, if_pos (by simp [hmark])⟩
  · rw [hsome, hread]
    exact skipEntries_spec hfollows count.toNat hmiddle

theorem skipBindings_spec {bytes : Bytes} {pos : Nat} (hpos : pos ≤ bytes.length) :
    (afterBindings (bytes.drop pos) = none ∧ ∃ after,
      skipPersistentCheckpointNodeBaseBindings ⟨bytes, pos, true⟩ = .ok (after, false)) ∨
    ∃ after, after ≤ bytes.length ∧ afterBindings (bytes.drop pos) = some (bytes.drop after) ∧
      skipPersistentCheckpointNodeBaseBindings ⟨bytes, pos, true⟩ =
        .ok (⟨bytes, after, true⟩, true) := by
  rw [afterBindings, skipPersistentCheckpointNodeBaseBindings, List.length_drop]
  by_cases hroom : bytes.length < pos + 4
  · rw [if_pos (by omega), if_pos hroom]
    exact Or.inr ⟨pos, hpos, rfl, rfl⟩
  · rw [if_neg (by omega), if_neg hroom]
    rcases skipTable_spec follows_readBindingEntry hpos with
      ⟨hnone, after, hskip⟩ | ⟨entries, after, hafter, hsome, hskip⟩
    · exact Or.inl ⟨by rw [hnone]; rfl, after, hskip⟩
    · exact Or.inr ⟨after, hafter, by rw [hsome]; rfl, hskip⟩

/-- The tables after the layers are read together. -/
theorem skipCheckpointTables_spec {bytes : Bytes} {pos : Nat} (hpos : pos ≤ bytes.length) :
    (((tableOf generationEntry (bytes.drop pos)).bind fun read => afterBindings read.2) = none ∧
      ∃ after, skipCheckpointTables ⟨bytes, pos, true⟩ = .ok (after, false)) ∨
    ∃ generations middle after, after ≤ bytes.length ∧
      tableOf generationEntry (bytes.drop pos) = some (generations, middle) ∧
      afterBindings middle = some (bytes.drop after) ∧
      skipCheckpointTables ⟨bytes, pos, true⟩ = .ok (⟨bytes, after, true⟩, true) := by
  have hskip : skipCheckpointTables ⟨bytes, pos, true⟩ =
      (skipTable readGenerationEntry ⟨bytes, pos, true⟩).bind fun generations =>
        if !generations.2 then pure generations
        else skipPersistentCheckpointNodeBaseBindings generations.1 := rfl
  rw [hskip]
  rcases skipTable_spec follows_readGenerationEntry hpos with
    ⟨hnone, after, htable⟩ | ⟨generations, middle, hmiddle, hsome, htable⟩
  · rw [hnone, htable]
    exact Or.inl ⟨rfl, after, rfl⟩
  · rw [hsome, htable]
    rcases skipBindings_spec hmiddle with
      ⟨hnone, after, hbindings⟩ | ⟨after, hafter, hsome', hbindings⟩
    · exact Or.inl ⟨hnone, after, hbindings⟩
    · exact Or.inr ⟨generations, bytes.drop middle, after, hafter, rfl, hsome', hbindings⟩

/-- The bytes hold a checkpoint of this root, and the storage takes its layers. -/
def IsTaken (store : LayerStore S) (storage : S) (expectedRootId : UInt32) (bytes : Bytes) :
    Prop :=
  ∃ parts rest, checkpointReader bytes = some (parts, rest) ∧ parts.root.id = expectedRootId ∧
    (storeWhile store storage parts.layers).2 = true

/-- Bytes that are taken have their parts in these places. -/
theorem exists_parts_of_isTaken {storage : S} {expectedRootId : UInt32} {bytes : Bytes}
    (h : IsTaken store storage expectedRootId bytes) :
    ∃ layers afterRoot afterLayers generations rest,
      machineNumber 4 UInt32.ofNat bytes = some (expectedRootId, afterRoot) ∧
      tableOf layerEntry afterRoot = some (layers, afterLayers) ∧
      (storeWhile store storage layers).2 = true ∧
      tableOf generationEntry afterLayers = some generations ∧
      afterBindings generations.2 = some rest := by
  obtain ⟨parts, rest, hreader, rfl, hstored⟩ := h
  obtain ⟨afterRoot, afterLayers, afterGenerations, hroot, hlayers, hgenerations, hafter⟩ :=
    checkpointReader_eq_some_iff.mp hreader
  exact ⟨parts.layers, afterRoot, afterLayers, (parts.generations, afterGenerations), rest,
    hroot, hlayers, hstored, hgenerations, hafter⟩

/-- What an injection does with any bytes: it offers the storage the layers that can be
read until one is refused, and it succeeds if the bytes are a checkpoint of the expected
root whose layers were all stored. -/
structure Injects (store : LayerStore S) (storage : S) (expectedRootId : UInt32) (bytes : Bytes)
    (injection : CheckpointInjection S) : Prop where
  storage_eq : injection.storage =
    (storeWhile store storage (offeredLayers expectedRootId bytes)).1
  accepted_iff : injection.accepted = true ↔ IsTaken store storage expectedRootId bytes
  rest_eq : injection.accepted = true → ∃ parts,
    checkpointReader bytes = some (parts, injection.source.data.drop injection.source.pos)

theorem injects_refused {storage : S} {expectedRootId : UInt32} {bytes : Bytes}
    {injection : CheckpointInjection S} (hrefused : injection.accepted = false)
    (hstorage : injection.storage =
      (storeWhile store storage (offeredLayers expectedRootId bytes)).1)
    (hnot : ¬ IsTaken store storage expectedRootId bytes) :
    Injects store storage expectedRootId bytes injection where
  storage_eq := hstorage
  accepted_iff := by simp [hrefused, hnot]
  rest_eq := by simp [hrefused]

/-- The tables of a checkpoint, after the id of its root. -/
theorem injectCheckpointTables_spec {bytes : Bytes} {first : Nat} {rootId : UInt32}
    (hfirst : first ≤ bytes.length)
    (hroot : machineNumber 4 UInt32.ofNat bytes = some (rootId, bytes.drop first)) (storage : S) :
    ∃ injection, injectCheckpointTables store ⟨bytes, first, true⟩ storage = .ok injection ∧
      Injects store storage rootId bytes injection := by
  have hinject : injectCheckpointTables store ⟨bytes, first, true⟩ storage =
      (readU32Of ⟨bytes, first, true⟩).bind _ := rfl
  rw [hinject]
  rcases followed_cases follows_readU32Of hfirst with
    ⟨hnone, value, after, hread, hmark⟩ | ⟨count, second, hsecond, hcount, hread⟩
  · rw [hread, Except.bind]
    refine ⟨⟨after, storage, false⟩, if_pos (by simp [hmark]), injects_refused rfl
      (by simp [offeredLayers, hroot, hnone, storeWhile]) fun htaken => ?_⟩
    obtain ⟨_, _, _, _, _, hroot', hlayers, -⟩ := exists_parts_of_isTaken htaken
    cases hroot.symm.trans hroot'
    obtain ⟨_, hcount, -⟩ := Option.bind_eq_some_iff.mp hlayers
    cases hnone.symm.trans hcount
  have hoffered : offeredLayers rootId bytes =
      readableEntries layerEntry count.toNat (bytes.drop second) := by
    simp [offeredLayers, hroot, hcount]
  have htable : tableOf layerEntry (bytes.drop first) =
      SuffixReader.many layerEntry count.toNat (bytes.drop second) := by
    rw [tableOf, SuffixReader.andThen, hcount, Option.bind_some]
  obtain ⟨injected, hinjected, hstorage, haccepted, hrefused⟩ :=
    injectCheckpointLayers_spec count.toNat hsecond storage
  rw [← hoffered] at hstorage haccepted hrefused
  rw [hread, Except.bind]
  simp only [Bool.not_true, Bool.false_eq_true, if_false]
  rw [hinjected]
  change ∃ injection, (if !injected.accepted then _ else _) = _ ∧ _
  cases hlayers : injected.accepted with
  | false =>
      refine ⟨injected, rfl, injects_refused hlayers hstorage fun htaken => ?_⟩
      obtain ⟨layers, afterRoot, afterLayers, _, _, hroot', htaken, hstored, -⟩ :=
        exists_parts_of_isTaken htaken
      cases hroot.symm.trans hroot'
      rw [htable] at htaken
      rw [hoffered, readableEntries_of_many htaken] at hrefused
      rcases hrefused hlayers with hnone | hfailed
      · cases hnone.symm.trans htaken
      · cases hfailed.symm.trans hstored
  | true =>
      obtain ⟨hstored, third, hthird, hsource, hmany⟩ := haccepted hlayers
      rw [hsource]
      rcases skipCheckpointTables_spec hthird with
        ⟨hnone, after, hskip⟩ | ⟨generations, middle, fourth, -, hgenerations, hafter, hskip⟩
      · rw [hskip]
        refine ⟨⟨after, injected.storage, false⟩, rfl, injects_refused rfl hstorage
          fun htaken => ?_⟩
        obtain ⟨_, _, _, _, _, hroot', htaken, -, hgenerations, hafter⟩ :=
          exists_parts_of_isTaken htaken
        cases hroot.symm.trans hroot'
        cases (htable.trans hmany).symm.trans htaken
        rw [hgenerations, Option.bind_some] at hnone
        cases hnone.symm.trans hafter
      · rw [hskip]
        have hreader : checkpointReader bytes = some
            (⟨⟨rootId⟩, offeredLayers rootId bytes, generations⟩, bytes.drop fourth) :=
          checkpointReader_eq_some_iff.mpr ⟨bytes.drop first, bytes.drop third, middle, hroot,
            htable.trans hmany, hgenerations, hafter⟩
        exact ⟨⟨⟨bytes, fourth, true⟩, injected.storage, true⟩, rfl, hstorage,
          iff_of_true rfl ⟨_, _, hreader, rfl, hstored⟩, fun _ => ⟨_, hreader⟩⟩

/-- An injection takes no byte outside its input, whatever the input is. -/
theorem injectPersistentModelSnapshot_spec (store : LayerStore S) (bytes : Bytes) (storage : S)
    (expectedRootId : UInt32) :
    ∃ injection, injectPersistentModelSnapshotToStorage store ⟨bytes, 0, true⟩ storage
        expectedRootId = .ok injection ∧
      Injects store storage expectedRootId bytes injection := by
  have hinject : injectPersistentModelSnapshotToStorage store ⟨bytes, 0, true⟩ storage
      expectedRootId = (readU32Of ⟨bytes, 0, true⟩).bind fun rootId =>
        if !rootId.2.ok || decide (rootId.1 ≠ expectedRootId) then
          pure ⟨rootId.2, storage, false⟩
        else injectCheckpointTables store rootId.2 storage := rfl
  rw [hinject]
  rcases followed_cases follows_readU32Of (Nat.zero_le bytes.length) with
    ⟨hnone, value, after, hread, hmark⟩ | ⟨rootId, first, hfirst, hroot, hread⟩
  · rw [List.drop_zero] at hnone
    rw [hread]
    refine ⟨⟨after, storage, false⟩, if_pos (by simp [hmark]), injects_refused rfl
      (by simp [offeredLayers, hnone, storeWhile]) fun htaken => ?_⟩
    obtain ⟨_, _, _, _, _, hroot, -⟩ := exists_parts_of_isTaken htaken
    cases hnone.symm.trans hroot
  rw [List.drop_zero] at hroot
  rw [hread]
  by_cases hexpected : rootId = expectedRootId
  · subst hexpected
    obtain ⟨injection, htables, hinjects⟩ := injectCheckpointTables_spec hfirst
      hroot storage
    exact ⟨injection, (if_neg (by simp)).trans htables, hinjects⟩
  · refine ⟨⟨⟨bytes, first, true⟩, storage, false⟩, if_pos (by simp [hexpected]),
      injects_refused rfl (by simp [offeredLayers, hroot, hexpected, storeWhile])
        fun htaken => ?_⟩
    obtain ⟨_, _, _, _, _, hroot', -⟩ := exists_parts_of_isTaken htaken
    cases hroot.symm.trans hroot'
    exact hexpected rfl

end Stores

end AppTraverse
