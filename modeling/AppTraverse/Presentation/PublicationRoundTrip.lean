import AppTraverse.Foundations.EffectLog
import AppTraverse.Presentation.InitialPublication

/-!
# Reading an initial publication back

The reader of the bytes that are left says what the input contains: a root, a table of
layers and a table of generations.  The loader of `InitialPublication` reads exactly this,
from any input, and between the two tables it loads the graph.  What was written is read
back when every count and every size fits its 32 bits.
-/

namespace AppTraverse

open Foundations

/-- What an initial publication contains. -/
structure PublicationParts where
  root : ObjId
  layers : List PublishedLayer
  generations : List (ObjId × UInt64)
  deriving DecidableEq, Repr

/-- An initial publication, from the bytes that are left. -/
def publicationParts : SuffixReader PublicationParts :=
  SuffixReader.andThen (machineNumber 4 UInt32.ofNat) fun rootId =>
  SuffixReader.andThen (tableOf layerEntry) fun layers =>
  SuffixReader.andThen (tableOf generationEntry) fun generations =>
  SuffixReader.done ⟨⟨rootId⟩, layers, generations⟩

theorem prefixed_publicationParts : Prefixed publicationParts :=
  SuffixReader.prefixed_andThen (prefixed_machineNumber 4 _) fun _ =>
    SuffixReader.prefixed_andThen (prefixed_tableOf prefixed_layerEntry) fun _ =>
      SuffixReader.prefixed_andThen (prefixed_tableOf prefixed_generationEntry) fun _ =>
        SuffixReader.prefixed_done _

section Injection

/-- One `Store` after another. -/
def storeLayers (layers : List PublishedLayer) (storage : UiStorage) : UiStorage :=
  layers.foldl (fun storage layer => storage.insert layer.query layer.data) storage

/-- `unique_obj_ids` after some layers. -/
def noteObjIds (layers : List PublishedLayer) (ids : List ObjId) : List ObjId :=
  layers.foldl (fun ids layer => noteObjId ids layer.query.id) ids

theorem mem_noteObjIds {layers : List PublishedLayer} {ids : List ObjId} {id : ObjId} :
    id ∈ noteObjIds layers ids ↔ id ∈ ids ∨ ∃ layer ∈ layers, layer.query.id = id := by
  induction layers generalizing ids with
  | nil => simp [noteObjIds]
  | cons head tail ih =>
      have hnote : id ∈ noteObjId ids head.query.id ↔ id ∈ ids ∨ head.query.id = id := by
        rw [noteObjId]
        split
        case isTrue hmem =>
          constructor
          · exact Or.inl
          · rintro (hid | rfl)
            · exact hid
            · exact hmem
        case isFalse => simp [eq_comm]
      show id ∈ noteObjIds tail (noteObjId ids head.query.id) ↔ _
      rw [ih, hnote]
      simp only [List.mem_cons, exists_eq_or_imp]
      exact or_assoc

/-- What is stored was stored before or is one of the layers. -/
theorem lookup_storeLayers {layers : List PublishedLayer} {storage : UiStorage}
    {query : DomainQuery} {data : Bytes}
    (h : (storeLayers layers storage).lookup query = some data) :
    (⟨query, data⟩ : PublishedLayer) ∈ layers ∨ storage.lookup query = some data := by
  induction layers generalizing storage with
  | nil => exact Or.inr h
  | cons head tail ih =>
      rcases ih h with hmem | hlookup
      · exact Or.inl (List.mem_cons_of_mem _ hmem)
      · by_cases hquery : query = head.query
        · rw [hquery, AList.lookup_insert] at hlookup
          have hhead : (⟨query, data⟩ : PublishedLayer) = head := by
            rw [hquery, ← Option.some.inj hlookup]
          exact Or.inl (hhead ▸ List.mem_cons_self ..)
        · rw [AList.lookup_insert_ne hquery] at hlookup
          exact Or.inr hlookup

theorem lookup_storeLayers_of_not_mem {layers : List PublishedLayer} {storage : UiStorage}
    {query : DomainQuery} (h : query ∉ layers.map PublishedLayer.query) :
    (storeLayers layers storage).lookup query = storage.lookup query := by
  induction layers generalizing storage with
  | nil => rfl
  | cons head tail ih =>
      rw [List.map_cons, List.mem_cons, not_or] at h
      show (storeLayers tail (storage.insert head.query head.data)).lookup query = _
      rw [ih h.2, AList.lookup_insert_ne h.1]

/-- A layer is not overwritten by layers of other queries. -/
theorem lookup_storeLayers_of_mem {layers : List PublishedLayer} {storage : UiStorage}
    (hdistinct : (layers.map PublishedLayer.query).Nodup) {layer : PublishedLayer}
    (h : layer ∈ layers) : (storeLayers layers storage).lookup layer.query = some layer.data := by
  induction layers generalizing storage with
  | nil => cases h
  | cons head tail ih =>
      rw [List.map_cons, List.nodup_cons] at hdistinct
      show (storeLayers tail (storage.insert head.query head.data)).lookup layer.query = _
      rcases List.mem_cons.mp h with rfl | htail
      · rw [lookup_storeLayers_of_not_mem hdistinct.1, AList.lookup_insert]
      · exact ih hdistinct.2 htail

end Injection

section Reading

variable {ρ ε φ : Type}

/-- A checked sequence of reads returns what the reader reads, or names its stage. -/
theorem reading_cases {parser : SourceReader ρ} {reader : SuffixReader ρ}
    (hfollows : Follows parser reader) (stage : InitialPublicationLoadStage) {bytes : Bytes}
    {pos : Nat} (hpos : pos ≤ bytes.length) :
    (reader (bytes.drop pos) = none ∧ reading parser stage ⟨bytes, pos, true⟩ =
        .error (.stage stage)) ∨
      ∃ value after, after ≤ bytes.length ∧
        reader (bytes.drop pos) = some (value, bytes.drop after) ∧
        reading parser stage ⟨bytes, pos, true⟩ = .ok (value, ⟨bytes, after, true⟩) := by
  rcases hfollows.reads bytes pos hpos with ⟨hnone, value, after, hparser, hmark⟩ |
    ⟨value, after, hafter, hsome, hparser⟩
  · refine Or.inl ⟨hnone, ?_⟩
    rw [reading, hparser]
    simp [hmark]
  · refine Or.inr ⟨value, after, hafter, hsome, ?_⟩
    rw [reading, hparser]
    rfl

/-- The layer loop stores the layers that the reader reads, in order. -/
theorem injectLayers_cases (count : Nat) {bytes : Bytes} {pos : Nat} (hpos : pos ≤ bytes.length)
    (storage : UiStorage) (ids : List ObjId) :
    (SuffixReader.many layerEntry count (bytes.drop pos) = none ∧
        ∃ stage, injectLayers count ⟨⟨bytes, pos, true⟩, storage, ids⟩ =
          .error (.stage stage)) ∨
      ∃ layers after, after ≤ bytes.length ∧
        SuffixReader.many layerEntry count (bytes.drop pos) = some (layers, bytes.drop after) ∧
        injectLayers count ⟨⟨bytes, pos, true⟩, storage, ids⟩ =
          .ok ⟨⟨bytes, after, true⟩, storeLayers layers storage, noteObjIds layers ids⟩ := by
  induction count generalizing pos storage ids with
  | zero => exact Or.inr ⟨[], pos, hpos, rfl, rfl⟩
  | succ count ih =>
      have hstep : injectLayers (count + 1) ⟨⟨bytes, pos, true⟩, storage, ids⟩ =
          (reading readLayerHeader .readLayerHeader ⟨bytes, pos, true⟩).bind _ := rfl
      rw [hstep]
      rcases reading_cases follows_readLayerHeader .readLayerHeader hpos with
        ⟨hnone, hread⟩ | ⟨header, middle, hmiddle, hsome, hread⟩
      · have hentry : layerEntry (bytes.drop pos) = none := by
          rw [layerEntry, SuffixReader.andThen, hnone]
          rfl
        rw [hread]
        exact Or.inl ⟨SuffixReader.many_succ_none hentry count, _, rfl⟩
      have hentry := layerEntry_of_header hsome
      have hlength : (bytes.drop middle).length = bytes.length - middle := List.length_drop
      rw [hread, Except.bind]
      by_cases hshort : bytes.length < middle + header.size.toNat
      · rw [if_pos (by omega)] at hentry
        exact Or.inl ⟨SuffixReader.many_succ_none hentry count, _, if_pos hshort⟩
      · rw [if_neg (by omega), List.drop_drop] at hentry
        have hbytes : Cursor.bytesAt bytes middle header.size.toNat =
            .ok ((bytes.drop middle).take header.size.toNat) := if_pos (by omega)
        have hnext : middle + header.size.toNat ≤ bytes.length := by omega
        simp only [if_neg hshort, hbytes, injectObjectBytes]
        rw [SuffixReader.many_succ_some hentry]
        rcases ih hnext
            (storage.insert header.query ((bytes.drop middle).take header.size.toNat))
            (noteObjId ids header.query.id) with
          ⟨hnone, stage, hloop⟩ | ⟨layers, after, hafter, hrest, hloop⟩
        · exact Or.inl ⟨by rw [hnone]; rfl, stage, hloop⟩
        · refine Or.inr ⟨⟨header.query, _⟩ :: layers, after, hafter, ?_, hloop⟩
          rw [hrest]
          rfl

/-- The layer table is read as a table. -/
theorem readAndInject_cases {bytes : Bytes} {pos : Nat} (hpos : pos ≤ bytes.length)
    (storage : UiStorage) :
    (tableOf layerEntry (bytes.drop pos) = none ∧
        ∃ stage, readAndInjectPublicationLayers ⟨bytes, pos, true⟩ storage =
          .error (.stage stage)) ∨
      ∃ layers after, after ≤ bytes.length ∧
        tableOf layerEntry (bytes.drop pos) = some (layers, bytes.drop after) ∧
        readAndInjectPublicationLayers ⟨bytes, pos, true⟩ storage =
          .ok ⟨⟨bytes, after, true⟩, storeLayers layers storage, noteObjIds layers []⟩ := by
  have hstep : readAndInjectPublicationLayers ⟨bytes, pos, true⟩ storage =
      (reading readU32Of .readLayerCount ⟨bytes, pos, true⟩).bind fun read =>
        injectLayers read.1.toNat ⟨read.2, storage, []⟩ := rfl
  rw [hstep, tableOf, SuffixReader.andThen]
  rcases reading_cases follows_readU32Of .readLayerCount hpos with
    ⟨hnone, hread⟩ | ⟨count, middle, hmiddle, hsome, hread⟩
  · rw [hnone, hread]
    exact Or.inl ⟨rfl, _, rfl⟩
  · rw [hsome, hread]
    exact injectLayers_cases count.toNat hmiddle storage []

/-- The generation loop adopts the entries that the reader reads, in order, whatever the
Domain holds. -/
theorem adoptGenerations_cases (count : Nat) {bytes : Bytes} {pos : Nat}
    (hpos : pos ≤ bytes.length) :
    (SuffixReader.many generationEntry count (bytes.drop pos) = none ∧
        ∀ domain : UiDomain ε φ, ∃ stage,
          adoptGenerations count ⟨bytes, pos, true⟩ domain = .error (.stage stage)) ∨
      ∃ entries after, after ≤ bytes.length ∧
        SuffixReader.many generationEntry count (bytes.drop pos) =
          some (entries, bytes.drop after) ∧
        ∀ domain : UiDomain ε φ, adoptGenerations count ⟨bytes, pos, true⟩ domain =
          .ok (⟨bytes, after, true⟩, entries.foldl adoptGeneration domain) := by
  induction count generalizing pos with
  | zero => exact Or.inr ⟨[], pos, hpos, rfl, fun _ => rfl⟩
  | succ count ih =>
      have hstep : ∀ domain : UiDomain ε φ,
          adoptGenerations (count + 1) ⟨bytes, pos, true⟩ domain =
          (reading readGenerationEntry .readGenerationEntry ⟨bytes, pos, true⟩).bind
            fun read => adoptGenerations count read.2 (adoptGeneration domain read.1) :=
        fun _ => rfl
      rcases reading_cases follows_readGenerationEntry .readGenerationEntry hpos with
        ⟨hnone, hread⟩ | ⟨entry, middle, hmiddle, hsome, hread⟩
      · exact Or.inl ⟨SuffixReader.many_succ_none hnone count, fun domain =>
          ⟨_, by rw [hstep, hread]; rfl⟩⟩
      rw [SuffixReader.many_succ_some hsome]
      rcases ih hmiddle with ⟨hnone, hloop⟩ | ⟨entries, after, hafter, hrest, hloop⟩
      · left
        refine ⟨by rw [hnone]; rfl, fun domain => ?_⟩
        obtain ⟨stage, hfails⟩ := hloop (adoptGeneration domain entry)
        exact ⟨stage, by rw [hstep, hread, Except.bind, hfails]⟩
      · right
        refine ⟨entry :: entries, after, hafter, by rw [hrest]; rfl, fun domain => ?_⟩
        rw [hstep, hread, Except.bind, hloop]
        rfl

/-- The generation table is read as a table. -/
theorem adoptGenerationTable_cases {bytes : Bytes} {pos : Nat} (hpos : pos ≤ bytes.length) :
    (tableOf generationEntry (bytes.drop pos) = none ∧
        ∀ domain : UiDomain ε φ, ∃ stage,
          adoptGenerationTable ⟨bytes, pos, true⟩ domain = .error (.stage stage)) ∨
      ∃ entries after, after ≤ bytes.length ∧
        tableOf generationEntry (bytes.drop pos) = some (entries, bytes.drop after) ∧
        ∀ domain : UiDomain ε φ, adoptGenerationTable ⟨bytes, pos, true⟩ domain =
          .ok (⟨bytes, after, true⟩, entries.foldl adoptGeneration domain) := by
  have hstep : ∀ domain : UiDomain ε φ, adoptGenerationTable ⟨bytes, pos, true⟩ domain =
      (reading readU32Of .readGenerationCount ⟨bytes, pos, true⟩).bind fun read =>
        adoptGenerations read.1.toNat read.2 domain := fun _ => rfl
  simp only [hstep]
  rw [tableOf, SuffixReader.andThen]
  rcases reading_cases follows_readU32Of .readGenerationCount hpos with
    ⟨hnone, hread⟩ | ⟨count, middle, hmiddle, hsome, hread⟩
  · rw [hnone, hread]
    exact Or.inl ⟨rfl, fun _ => ⟨_, rfl⟩⟩
  · rw [hsome, hread]
    exact adoptGenerations_cases count.toNat hmiddle

/-- What is loaded from the parts of a publication, when the source is read up to `source`. -/
def loadParts (loader : UiLoader ε φ) (domain : UiDomain ε φ) (storage : UiStorage)
    (parts : PublicationParts) (source : ByteSource) :
    Except LoadFailure (LoadedPublication ε φ) := do
  let stored := storeLayers parts.layers storage
  let hydrated ← hydrateInjectedPublicationGraph loader stored domain parts.root
    (noteObjIds parts.layers [])
  findUiRoot loader stored parts.root source (parts.generations.foldl adoptGeneration hydrated)

/-- Loading the graph takes no bytes of the input. -/
theorem hydrate_withinInput (loader : UiLoader ε φ) (storage : UiStorage)
    (domain : UiDomain ε φ) (root : ObjId) (ids : List ObjId) :
    Avoids .readPastEnd (hydrateInjectedPublicationGraph loader storage domain root ids) := by
  have hreload : ∀ domain id,
      Avoids .readPastEnd (reloadObject loader storage domain id) := by
    intro domain id
    unfold reloadObject Avoids
    dsimp only
    split_ifs <;> simp
  rw [hydrateInjectedPublicationGraph]
  dsimp only
  split
  case isTrue =>
    intro hbad
    cases hbad
  case isFalse =>
    exact (Avoids.foldlM hreload _ _).bind fun _ =>
      (Avoids.foldlM hreload _ _).bind fun _ => Avoids.foldlM hreload _ _

/-- What a load does: it names a stage if the input holds no publication, and otherwise
loads the publication that it holds. -/
theorem tryLoad_cases (loader : UiLoader ε φ) (bytes : Bytes) (domain : UiDomain ε φ)
    (storage : UiStorage) :
    (publicationParts bytes = none ∧ ∃ stage,
        tryLoadInitialPublication loader ⟨bytes, 0, true⟩ domain storage =
          .error (.stage stage)) ∨
      ∃ parts after, after ≤ bytes.length ∧
        publicationParts bytes = some (parts, bytes.drop after) ∧
        tryLoadInitialPublication loader ⟨bytes, 0, true⟩ domain storage =
          loadParts loader domain storage parts ⟨bytes, after, true⟩ := by
  have hstart : bytes = bytes.drop 0 := rfl
  have hload : tryLoadInitialPublication loader ⟨bytes, 0, true⟩ domain storage =
      (reading readU32Of .readRootId ⟨bytes, 0, true⟩).bind fun read =>
        (readAndInjectPublicationLayers read.2 storage).bind fun injected =>
          (hydrateInjectedPublicationGraph loader injected.storage domain ⟨read.1⟩
            injected.uniqueObjIds).bind fun hydrated =>
              (adoptGenerationTable injected.source hydrated).bind fun adopted =>
                findUiRoot loader injected.storage ⟨read.1⟩ adopted.1 adopted.2 := rfl
  rw [hload, publicationParts, SuffixReader.andThen]
  rcases reading_cases follows_readU32Of .readRootId (Nat.zero_le bytes.length) with
    ⟨hnone, hread⟩ | ⟨rootId, first, hfirst, hsome, hread⟩
  · rw [← hstart] at hnone
    rw [hnone, hread]
    exact Or.inl ⟨rfl, _, rfl⟩
  rw [← hstart] at hsome
  rw [hsome, hread, Option.bind_some, Except.bind, SuffixReader.andThen]
  rcases readAndInject_cases hfirst storage with
    ⟨hnone, stage, hinject⟩ | ⟨layers, second, hsecond, hsome, hinject⟩
  · rw [hnone, hinject]
    exact Or.inl ⟨rfl, stage, rfl⟩
  rw [hsome, hinject, Option.bind_some, Except.bind, SuffixReader.andThen]
  -- The graph is loaded before the generations are read, and takes no bytes.
  have hwithin := hydrate_withinInput loader (storeLayers layers storage) domain ⟨rootId⟩
    (noteObjIds layers [])
  rcases @adoptGenerationTable_cases ε φ bytes second hsecond with
    ⟨hnone, hadopt⟩ | ⟨entries, third, hthird, hsome, hadopt⟩
  · left
    refine ⟨by rw [hnone]; rfl, ?_⟩
    cases hhydrate : hydrateInjectedPublicationGraph loader (storeLayers layers storage) domain
        ⟨rootId⟩ (noteObjIds layers []) with
    | error failure =>
        cases failure with
        | readPastEnd => exact absurd hhydrate hwithin
        | stage stage => exact ⟨stage, rfl⟩
    | ok hydrated =>
        obtain ⟨stage, hfails⟩ := hadopt hydrated
        exact ⟨stage, by rw [Except.bind, hfails]; rfl⟩
  · right
    refine ⟨⟨⟨rootId⟩, layers, entries⟩, third, hthird, by rw [hsome]; rfl, ?_⟩
    simp only [hadopt]
    rfl

/-- A load accesses nothing outside its input, whatever the input is. -/
theorem tryLoad_withinInput (loader : UiLoader ε φ) (bytes : Bytes) (domain : UiDomain ε φ)
    (storage : UiStorage) :
    Avoids .readPastEnd (tryLoadInitialPublication loader ⟨bytes, 0, true⟩ domain storage) := by
  rcases tryLoad_cases loader bytes domain storage with
    ⟨-, stage, hload⟩ | ⟨parts, after, -, -, hload⟩
  · rw [hload]
    intro hbad
    cases hbad
  · rw [hload, loadParts]
    apply (hydrate_withinInput loader _ domain parts.root _).bind
    intro hydrated
    rw [findUiRoot]
    split_ifs <;> simp [Avoids]

end Reading

section Writing

variable {σ β ε : Type}

/-- The bytes of an initial publication. -/
def publicationBytes (parts : PublicationParts) : Bytes :=
  nativeU32Bytes parts.root.id ++ (tableBytes layerBytes parts.layers ++
    tableBytes generationBytes parts.generations)

/-- What the writer publishes of a Domain and a scratch storage. -/
def partsOf (domain : ModelDomain σ β ε) (scratch : RamDomainStorage) (root : ObjId) :
    PublicationParts :=
  ⟨root, publishedLayers domain scratch, publishedGenerations domain scratch⟩

/-- The counts and the sizes that are written fit their 32 bits. -/
structure FitsIn32Bits (parts : PublicationParts) : Prop where
  layerCount : parts.layers.length < 2 ^ 32
  layerSizes : ∀ layer ∈ parts.layers, layer.data.length < 2 ^ 32

instance (parts : PublicationParts) : Decidable (FitsIn32Bits parts) :=
  decidable_of_iff (parts.layers.length < 2 ^ 32 ∧
    ∀ layer ∈ parts.layers, layer.data.length < 2 ^ 32)
    ⟨fun h => ⟨h.1, h.2⟩, fun h => ⟨h.1, h.2⟩⟩

/-- What was written is read, and nothing is left. -/
theorem publicationParts_written {parts : PublicationParts} (hfits : FitsIn32Bits parts)
    (hgenerations : parts.generations.length < 2 ^ 32) :
    publicationParts (publicationBytes parts) = some (parts, []) := by
  have hlayers := tableOf_written hfits.layerCount
    (fun layer hlayer => layerEntry_written (hfits.layerSizes layer hlayer))
    (tableBytes generationBytes parts.generations)
  have hentries := tableOf_written hgenerations
    (fun entry _ => generationEntry_written entry) []
  rw [List.append_nil] at hentries
  rw [publicationBytes, publicationParts, SuffixReader.andThen, machineNumber_nativeU32Bytes,
    Option.bind_some, SuffixReader.andThen, hlayers, Option.bind_some, SuffixReader.andThen,
    hentries, Option.bind_some]
  rfl

/-- A part of a publication that lacks its end is no publication. -/
theorem torn_noParts {parts : PublicationParts} (hfits : FitsIn32Bits parts)
    (hgenerations : parts.generations.length < 2 ^ 32) {torn missing : Bytes}
    (hmissing : missing ≠ []) (hbytes : torn ++ missing = publicationBytes parts) :
    publicationParts torn = none := by
  cases htorn : publicationParts torn with
  | none => rfl
  | some read =>
      have hwhole := (prefixed_publicationParts torn read.1 read.2 missing htorn).1
      rw [hbytes, publicationParts_written hfits hgenerations] at hwhole
      have hrest : [] = read.2 ++ missing := congrArg Prod.snd (Option.some.inj hwhole)
      exact absurd (List.append_eq_nil_iff.mp hrest.symm).2 hmissing

/-- Whatever the input, the parts that are read fit in 32 bits. -/
theorem publicationParts_fit {input rest : Bytes} {parts : PublicationParts}
    (h : publicationParts input = some (parts, rest)) : FitsIn32Bits parts := by
  obtain ⟨rootId, -, h⟩ := Option.bind_eq_some_iff.mp h
  obtain ⟨layers, hlayers, h⟩ := Option.bind_eq_some_iff.mp h
  obtain ⟨generations, -, h⟩ := Option.bind_eq_some_iff.mp h
  obtain ⟨rfl, -⟩ := Prod.mk.inj (Option.some.inj h)
  refine ⟨tableOf_short hlayers, ?_⟩
  obtain ⟨count, -, hmany⟩ := Option.bind_eq_some_iff.mp hlayers
  exact SuffixReader.forall_of_many (fun _ _ _ => layerEntry_short) hmany

/-- The layers of one stored object have different queries. -/
theorem nodup_objectLayers {object : ObjId × Layers} (hstored : WellStored object.2) :
    ((objectLayers object).map PublishedLayer.query).Nodup := by
  have hclasses := hstored.classes
  have hversions := hstored.versions
  rw [objectLayers, List.map_flatMap, List.nodup_flatMap]
  constructor
  · intro entry hentry
    have hmap : (entry.2.map fun saved =>
        (⟨⟨object.1, entry.1, saved.1⟩, saved.2⟩ : PublishedLayer)).map PublishedLayer.query =
        (entry.2.map Prod.fst).map fun version => ⟨object.1, entry.1, version⟩ := by
      simp
    rw [hmap]
    apply (hversions entry hentry).map
    intro a b hab
    exact congrArg DomainQuery.version hab
  · have hpairs : object.2.Pairwise fun a b => a.1 ≠ b.1 := List.pairwise_map.mp hclasses
    apply hpairs.imp
    intro a b hab
    simp only [Function.onFun, List.disjoint_left]
    intro query ha hb
    simp only [List.mem_map, exists_exists_and_eq_and] at ha hb
    obtain ⟨_, -, rfl⟩ := ha
    obtain ⟨_, -, hquery⟩ := hb
    exact hab (congrArg DomainQuery.classId hquery).symm

end Writing

end AppTraverse
