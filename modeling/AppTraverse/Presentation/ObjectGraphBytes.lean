import AppTraverse.Foundations.StickySource
import AppTraverse.Journal.Node
import AppTraverse.Storage.ObjectGraph

/-!
# The bytes of a materialized object graph

`SerializeObjectGraphToBuffer` saves the objects that are reachable from a root into a
scratch storage and writes two tables: the layers of the stored objects, and the
generations of the Nodes among them.  Each table starts with its number of entries, which
the writer fills in when it has written them.

Both tables leave out the bases that `CaptureBaseState` distilled: a Node is published
without its history.
-/

namespace AppTraverse

open Foundations

/-- An object of the model Domain.  `cls` of the functions below says what the Nodes do,
whatever their classes. -/
inductive ModelObject (σ β ε : Type) where
  | node (node : Node σ β ε)
  | other

/-- `ae::Domain::Find`. -/
abbrev ModelDomain (σ β ε : Type) := ObjId → Option (ModelObject σ β ε)

/-- `AsObjOf<Node>` of what a Domain finds. -/
def ModelDomain.node? {σ β ε : Type} (domain : ModelDomain σ β ε) (id : ObjId) :
    Option (Node σ β ε) :=
  match domain id with
  | some (.node node) => some node
  | _ => none

/-- `ae::DomainQuery`. -/
structure DomainQuery where
  id : ObjId
  classId : ClassId
  version : Version
  deriving DecidableEq, Repr

/-- A layer of a stored object, with what it is a layer of. -/
structure PublishedLayer where
  query : DomainQuery
  data : Bytes
  deriving DecidableEq, Repr

section Numbers

/-- The bytes of a `std::uint32_t`. -/
def nativeU32Bytes (value : UInt32) : Bytes := toBytes 4 value.toNat

/-- The bytes of a `std::uint64_t`. -/
def nativeU64Bytes (value : UInt64) : Bytes := toBytes 8 value.toNat

@[simp] theorem length_nativeU32Bytes (value : UInt32) : (nativeU32Bytes value).length = 4 :=
  length_toBytes 4 value.toNat

def readU8Of : SourceReader UInt8 := do
  let value ← ByteSource.readNumber 1
  pure (UInt8.ofNat value)

def readU32Of : SourceReader UInt32 := do
  let value ← ByteSource.readNumber 4
  pure (UInt32.ofNat value)

def readU64Of : SourceReader UInt64 := do
  let value ← ByteSource.readNumber 8
  pure (UInt64.ofNat value)

/-- A number of so many bytes, taken for a machine integer. -/
def machineNumber {ρ : Type} (width : Nat) (ofNat : Nat → ρ) : SuffixReader ρ :=
  SuffixReader.andThen (SuffixReader.number width) fun value => SuffixReader.done (ofNat value)

theorem prefixed_machineNumber {ρ : Type} (width : Nat) (ofNat : Nat → ρ) :
    Prefixed (machineNumber width ofNat) :=
  SuffixReader.prefixed_andThen (SuffixReader.prefixed_number width) fun value =>
    SuffixReader.prefixed_done (ofNat value)

theorem machineNumber_toBytes {ρ : Type} {width value : Nat} {ofNat : Nat → ρ} {rest : Bytes}
    (hvalue : value < 256 ^ width) :
    machineNumber width ofNat (toBytes width value ++ rest) = some (ofNat value, rest) := by
  rw [machineNumber, SuffixReader.andThen, SuffixReader.number_toBytes, Option.bind_some,
    Nat.mod_eq_of_lt hvalue]
  rfl

theorem follows_readU8Of : Follows readU8Of (machineNumber 1 UInt8.ofNat) :=
  (follows_readNumber 1).bind fun value => Follows.pure (UInt8.ofNat value)

theorem follows_readU32Of : Follows readU32Of (machineNumber 4 UInt32.ofNat) :=
  (follows_readNumber 4).bind fun value => Follows.pure (UInt32.ofNat value)

theorem follows_readU64Of : Follows readU64Of (machineNumber 8 UInt64.ofNat) :=
  (follows_readNumber 8).bind fun value => Follows.pure (UInt64.ofNat value)

theorem machineNumber_nativeU32Bytes (value : UInt32) (rest : Bytes) :
    machineNumber 4 UInt32.ofNat (nativeU32Bytes value ++ rest) = some (value, rest) := by
  rw [nativeU32Bytes, machineNumber_toBytes value.toNat_lt, UInt32.ofNat_toNat]

theorem machineNumber_nativeU64Bytes (value : UInt64) (rest : Bytes) :
    machineNumber 8 UInt64.ofNat (nativeU64Bytes value ++ rest) = some (value, rest) := by
  rw [nativeU64Bytes, machineNumber_toBytes value.toNat_lt, UInt64.ofNat_toNat]

end Numbers

section Writer

variable {σ β ε : Type}

/-- The ids of the bases of the Nodes among some objects. -/
def distilledBaseIds (domain : ModelDomain σ β ε) (ids : List ObjId) : List ObjId :=
  ids.filterMap fun id =>
    match domain.node? id with
    | none => none
    | some node => if node.base.isValid then some node.base.id else none

/-- `std::memcpy` into bytes that are already written. -/
def overwrite (bytes : Bytes) (position : Nat) (value : Bytes) : Bytes :=
  bytes.take position ++ value ++ bytes.drop (position + value.length)

/-- One entry of the layer table. -/
def layerBytes (layer : PublishedLayer) : Bytes :=
  nativeU32Bytes layer.query.id.id ++ nativeU32Bytes layer.query.classId ++
    toBytes 1 layer.query.version.toNat ++ nativeU32Bytes (UInt32.ofNat layer.data.length) ++
    layer.data

/-- One entry of the generation table. -/
def generationBytes (entry : ObjId × UInt64) : Bytes :=
  nativeU32Bytes entry.1.id ++ nativeU64Bytes entry.2

/-- An entry goes to the end, and `++count`. -/
def writeEntry {τ : Type} (write : τ → Bytes) (written : Bytes × UInt32) (entry : τ) :
    Bytes × UInt32 :=
  (written.1 ++ write entry, written.2 + 1)

/-- The versions of the classes of one stored object. -/
def objectLayers (object : ObjId × Layers) : List PublishedLayer :=
  object.2.flatMap fun entry =>
    entry.2.map fun saved => ⟨⟨object.1, entry.1, saved.1⟩, saved.2⟩

/-- The stored objects that are not distilled bases. -/
def publishedObjects (domain : ModelDomain σ β ε) (scratch : RamDomainStorage) :
    List (ObjId × Layers) :=
  scratch.live.filter fun object =>
    decide (object.1 ∉ distilledBaseIds domain (scratch.live.map Prod.fst))

/-- The Nodes among the objects, with their generations. -/
def generationsOf (domain : ModelDomain σ β ε) (objects : List (ObjId × Layers)) :
    List (ObjId × UInt64) :=
  objects.filterMap fun object =>
    (domain.node? object.1).map fun node => (object.1, UInt64.ofNat node.generation)

/-- `SerializeObjectGraphToBuffer`, after the save into `scratch`. -/
def serializeObjectGraphToBuffer (domain : ModelDomain σ β ε) (scratch : RamDomainStorage)
    (out : Bytes) : Bytes :=
  let objects := publishedObjects domain scratch
  let layers := objects.foldl
    (fun written object => (objectLayers object).foldl (writeEntry layerBytes) written)
    (out ++ nativeU32Bytes 0, 0)
  let out' := overwrite layers.1 out.length (nativeU32Bytes layers.2)
  let generations := (generationsOf domain objects).foldl (writeEntry generationBytes)
    (out' ++ nativeU32Bytes 0, 0)
  overwrite generations.1 out'.length (nativeU32Bytes generations.2)

/-- The layers that are written. -/
def publishedLayers (domain : ModelDomain σ β ε) (scratch : RamDomainStorage) :
    List PublishedLayer :=
  (publishedObjects domain scratch).flatMap objectLayers

/-- The generations that are written. -/
def publishedGenerations (domain : ModelDomain σ β ε) (scratch : RamDomainStorage) :
    List (ObjId × UInt64) :=
  generationsOf domain (publishedObjects domain scratch)

/-- A table: the number of its entries, and the entries. -/
def tableBytes {τ : Type} (write : τ → Bytes) (entries : List τ) : Bytes :=
  nativeU32Bytes (UInt32.ofNat entries.length) ++ entries.flatMap write

theorem foldl_writeEntry {τ : Type} (write : τ → Bytes) (entries : List τ)
    (written : Bytes × UInt32) :
    entries.foldl (writeEntry write) written =
      (written.1 ++ entries.flatMap write, written.2 + UInt32.ofNat entries.length) := by
  induction entries generalizing written with
  | nil => simp
  | cons head tail ih =>
      have hcount : written.2 + 1 + UInt32.ofNat tail.length =
          written.2 + UInt32.ofNat (tail.length + 1) := by
        rw [UInt32.ofNat_add, UInt32.add_assoc, UInt32.add_comm 1]
        rfl
      rw [List.foldl_cons, ih, writeEntry, List.flatMap_cons, List.append_assoc, hcount]
      rfl

/-- The count that is filled in at the end stands before the entries. -/
theorem overwrite_count (out entries : Bytes) (count : UInt32) :
    overwrite (out ++ nativeU32Bytes 0 ++ entries) out.length (nativeU32Bytes count) =
      out ++ (nativeU32Bytes count ++ entries) := by
  have hdrop : (out ++ nativeU32Bytes 0 ++ entries).drop
      (out.length + (nativeU32Bytes count).length) = entries := by
    apply List.drop_left'
    simp
  rw [overwrite, hdrop, List.append_assoc out, List.take_left, List.append_assoc]

/-- What a table's loop writes after its placeholder is the table. -/
theorem table_written {τ : Type} (write : τ → Bytes) (entries : List τ) (out : Bytes) :
    overwrite (entries.foldl (writeEntry write) (out ++ nativeU32Bytes 0, 0)).1 out.length
        (nativeU32Bytes (entries.foldl (writeEntry write) (out ++ nativeU32Bytes 0, 0)).2) =
      out ++ tableBytes write entries := by
  rw [foldl_writeEntry, overwrite_count, UInt32.zero_add, tableBytes]

/-- The writer writes a table of the layers and a table of the generations. -/
theorem serializeObjectGraphToBuffer_eq (domain : ModelDomain σ β ε)
    (scratch : RamDomainStorage) (out : Bytes) :
    serializeObjectGraphToBuffer domain scratch out =
      out ++ (tableBytes layerBytes (publishedLayers domain scratch) ++
        tableBytes generationBytes (publishedGenerations domain scratch)) := by
  have hlayers := table_written layerBytes (publishedLayers domain scratch) out
  rw [publishedLayers, List.foldl_flatMap] at hlayers
  rw [serializeObjectGraphToBuffer, hlayers, table_written, List.append_assoc]
  rfl

end Writer

section Reader

/-- What stands before the bytes of a layer. -/
structure LayerHeader where
  query : DomainQuery
  size : UInt32
  deriving DecidableEq, Repr

/-- The four reads of a layer's header. -/
def readLayerHeader : SourceReader LayerHeader := do
  let objId ← readU32Of
  let classId ← readU32Of
  let version ← readU8Of
  let size ← readU32Of
  pure ⟨⟨⟨objId⟩, classId, version⟩, size⟩

/-- The header of a layer, from the bytes that are left. -/
def layerHeader : SuffixReader LayerHeader :=
  SuffixReader.andThen (machineNumber 4 UInt32.ofNat) fun objId =>
  SuffixReader.andThen (machineNumber 4 UInt32.ofNat) fun classId =>
  SuffixReader.andThen (machineNumber 1 UInt8.ofNat) fun version =>
  SuffixReader.andThen (machineNumber 4 UInt32.ofNat) fun size =>
  SuffixReader.done ⟨⟨⟨objId⟩, classId, version⟩, size⟩

theorem follows_readLayerHeader : Follows readLayerHeader layerHeader :=
  follows_readU32Of.bind fun _ => follows_readU32Of.bind fun _ =>
    follows_readU8Of.bind fun _ => follows_readU32Of.bind fun _ => Follows.pure _

theorem prefixed_layerHeader : Prefixed layerHeader :=
  SuffixReader.prefixed_andThen (prefixed_machineNumber 4 _) fun _ =>
    SuffixReader.prefixed_andThen (prefixed_machineNumber 4 _) fun _ =>
      SuffixReader.prefixed_andThen (prefixed_machineNumber 1 _) fun _ =>
        SuffixReader.prefixed_andThen (prefixed_machineNumber 4 _) fun _ =>
          SuffixReader.prefixed_done _

/-- The two reads of an entry of the generation table. -/
def readGenerationEntry : SourceReader (ObjId × UInt64) := do
  let objId ← readU32Of
  let generation ← readU64Of
  pure (⟨objId⟩, generation)

/-- An entry of the generation table, from the bytes that are left. -/
def generationEntry : SuffixReader (ObjId × UInt64) :=
  SuffixReader.andThen (machineNumber 4 UInt32.ofNat) fun objId =>
  SuffixReader.andThen (machineNumber 8 UInt64.ofNat) fun generation =>
  SuffixReader.done (⟨objId⟩, generation)

theorem follows_readGenerationEntry : Follows readGenerationEntry generationEntry :=
  follows_readU32Of.bind fun _ => follows_readU64Of.bind fun _ => Follows.pure _

theorem prefixed_generationEntry : Prefixed generationEntry :=
  SuffixReader.prefixed_andThen (prefixed_machineNumber 4 _) fun _ =>
    SuffixReader.prefixed_andThen (prefixed_machineNumber 8 _) fun _ =>
      SuffixReader.prefixed_done _

theorem generationEntry_written (entry : ObjId × UInt64) (rest : Bytes) :
    generationEntry (generationBytes entry ++ rest) = some (entry, rest) := by
  rw [generationBytes, List.append_assoc, generationEntry, SuffixReader.andThen,
    machineNumber_nativeU32Bytes, Option.bind_some, SuffixReader.andThen,
    machineNumber_nativeU64Bytes, Option.bind_some]
  rfl

theorem layerHeader_written (layer : PublishedLayer) (rest : Bytes) :
    layerHeader (layerBytes layer ++ rest) =
      some (⟨layer.query, UInt32.ofNat layer.data.length⟩, layer.data ++ rest) := by
  have hversion : layer.query.version.toNat < 256 ^ 1 := layer.query.version.toNat_lt
  simp only [layerBytes, List.append_assoc, layerHeader]
  rw [SuffixReader.andThen, machineNumber_nativeU32Bytes, Option.bind_some, SuffixReader.andThen,
    machineNumber_nativeU32Bytes, Option.bind_some, SuffixReader.andThen,
    machineNumber_toBytes hversion, Option.bind_some, SuffixReader.andThen,
    machineNumber_nativeU32Bytes, Option.bind_some, UInt8.ofNat_toNat]
  rfl

/-- A layer, from the bytes that are left. -/
def layerEntry : SuffixReader PublishedLayer :=
  SuffixReader.andThen layerHeader fun header =>
  SuffixReader.andThen (SuffixReader.take header.size.toNat) fun data =>
  SuffixReader.done ⟨header.query, data⟩

/-- After its header, a layer is as many bytes as the header says. -/
theorem layerEntry_of_header {input rest : Bytes} {header : LayerHeader}
    (h : layerHeader input = some (header, rest)) :
    layerEntry input = if rest.length < header.size.toNat then none
      else some (⟨header.query, rest.take header.size.toNat⟩, rest.drop header.size.toNat) := by
  rw [layerEntry, SuffixReader.andThen, h, Option.bind_some, SuffixReader.andThen,
    SuffixReader.take]
  split
  case isTrue => rfl
  case isFalse => rfl

theorem prefixed_layerEntry : Prefixed layerEntry :=
  SuffixReader.prefixed_andThen prefixed_layerHeader fun header =>
    SuffixReader.prefixed_andThen (SuffixReader.prefixed_take header.size.toNat) fun _ =>
      SuffixReader.prefixed_done _

/-- A layer of fewer than 2^32 bytes is read as it was written. -/
theorem layerEntry_written {layer : PublishedLayer} (hsize : layer.data.length < 2 ^ 32)
    (rest : Bytes) : layerEntry (layerBytes layer ++ rest) = some (layer, rest) := by
  have hnat : (UInt32.ofNat layer.data.length).toNat = layer.data.length :=
    UInt32.toNat_ofNat_of_lt' hsize
  rw [layerEntry, SuffixReader.andThen, layerHeader_written, Option.bind_some,
    SuffixReader.andThen, hnat, SuffixReader.take,
    if_neg (by rw [List.length_append]; omega), List.take_left, List.drop_left]
  rfl

/-- Whatever the input, a layer that is read is of fewer than 2^32 bytes. -/
theorem layerEntry_short {input rest : Bytes} {layer : PublishedLayer}
    (h : layerEntry input = some (layer, rest)) : layer.data.length < 2 ^ 32 := by
  obtain ⟨header, -, h⟩ := Option.bind_eq_some_iff.mp h
  obtain ⟨data, hdata, h⟩ := Option.bind_eq_some_iff.mp h
  obtain ⟨rfl, rfl⟩ := Prod.mk.inj (Option.some.inj h)
  have hsize := header.1.size.toNat_lt
  rw [SuffixReader.take] at hdata
  split at hdata
  case isTrue => cases hdata
  case isFalse hlong =>
    obtain ⟨hdata, -⟩ := Prod.mk.inj (Option.some.inj hdata)
    rw [← hdata]
    show (header.2.take header.1.size.toNat).length < 2 ^ 32
    rw [List.length_take]
    omega

/-- A table, from the bytes that are left. -/
def tableOf {τ : Type} (entry : SuffixReader τ) : SuffixReader (List τ) :=
  SuffixReader.andThen (machineNumber 4 UInt32.ofNat) fun count =>
    SuffixReader.many entry count.toNat

theorem prefixed_tableOf {τ : Type} {entry : SuffixReader τ} (hentry : Prefixed entry) :
    Prefixed (tableOf entry) :=
  SuffixReader.prefixed_andThen (prefixed_machineNumber 4 _) fun count =>
    SuffixReader.prefixed_many hentry count.toNat

/-- A table of fewer than 2^32 entries is read as it was written. -/
theorem tableOf_written {τ : Type} {entry : SuffixReader τ} {write : τ → Bytes}
    {entries : List τ} (hcount : entries.length < 2 ^ 32)
    (hreads : ∀ value ∈ entries, ∀ rest, entry (write value ++ rest) = some (value, rest))
    (rest : Bytes) : tableOf entry (tableBytes write entries ++ rest) = some (entries, rest) := by
  have hnat : (UInt32.ofNat entries.length).toNat = entries.length :=
    UInt32.toNat_ofNat_of_lt' hcount
  rw [tableOf, tableBytes, List.append_assoc, SuffixReader.andThen, machineNumber_nativeU32Bytes,
    Option.bind_some, hnat, SuffixReader.many_flatMap hreads]

/-- Whatever the input, a table that is read is of fewer than 2^32 entries. -/
theorem tableOf_short {τ : Type} {entry : SuffixReader τ} {input rest : Bytes}
    {entries : List τ} (h : tableOf entry input = some (entries, rest)) :
    entries.length < 2 ^ 32 := by
  obtain ⟨count, -, h⟩ := Option.bind_eq_some_iff.mp h
  rw [SuffixReader.length_of_many h]
  exact count.1.toNat_lt

end Reader

end AppTraverse
