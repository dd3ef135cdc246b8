import AppTraverse.Presentation.InitialPublication

/-!
# Publishing changed Nodes to the GUI

`UiMirror::Publish` writes one record for every changed Node: its id, its generation and
the bytes of its graph.  `ApplyPublished` first applies the records whose objects the GUI
Domain has, again and again, since applying one may bring the object of another.  For each
record that is left it creates an empty object, a shell, of the class that it infers from
the payload.

Of the fields of a GUI object only the class matters here, so the class stands for them.
-/

namespace AppTraverse

open Foundations

section Writer

variable {σ β ε : Type}

/-- `PublishedRecord`. -/
structure PublishedRecord where
  objId : ObjId
  generation : UInt64
  payload : Bytes
  applied : Bool := false
  deriving DecidableEq, Repr

/-- The loop body of `UiMirror::Publish`.  The size of the payload is filled in after it. -/
def writeRecord (saver : ModelSaver σ β ε) (domain : ModelDomain σ β ε) (out : Bytes)
    (node : Node σ β ε) : Bytes :=
  let headed := out ++ nativeU32Bytes node.objId.id ++
    nativeU64Bytes (UInt64.ofNat node.generation)
  let sized := headed ++ nativeU32Bytes 0
  let written := serializeObjectGraphToBuffer domain
    (saver.saveMaterialized domain node.objId) sized
  overwrite written headed.length
    (nativeU32Bytes (UInt32.ofNat (written.length - sized.length)))

/-- What `UiMirror::Publish` writes to an empty buffer; nothing if no Node changed. -/
def publicationOf (saver : ModelSaver σ β ε) (domain : ModelDomain σ β ε)
    (changed : List (Node σ β ε)) : Option Bytes :=
  if changed.isEmpty then none
  else some (changed.foldl (writeRecord saver domain)
    (nativeU32Bytes (UInt32.ofNat changed.length)))

/-- The record of a changed Node. -/
def recordOf (saver : ModelSaver σ β ε) (domain : ModelDomain σ β ε) (node : Node σ β ε) :
    PublishedRecord where
  objId := node.objId
  generation := UInt64.ofNat node.generation
  payload := serializeObjectGraphToBuffer domain (saver.saveMaterialized domain node.objId) []

/-- The bytes of a record. -/
def recordBytes (record : PublishedRecord) : Bytes :=
  nativeU32Bytes record.objId.id ++ nativeU64Bytes record.generation ++
    (nativeU32Bytes (UInt32.ofNat record.payload.length) ++ record.payload)

theorem serializeObjectGraphToBuffer_append (domain : ModelDomain σ β ε)
    (scratch : RamDomainStorage) (out : Bytes) :
    serializeObjectGraphToBuffer domain scratch out =
      out ++ serializeObjectGraphToBuffer domain scratch [] := by
  rw [serializeObjectGraphToBuffer_eq, serializeObjectGraphToBuffer_eq, List.nil_append]

theorem writeRecord_eq (saver : ModelSaver σ β ε) (domain : ModelDomain σ β ε) (out : Bytes)
    (node : Node σ β ε) :
    writeRecord saver domain out node = out ++ recordBytes (recordOf saver domain node) := by
  have hsize : ∀ sized payload : Bytes,
      (sized ++ payload).length - sized.length = payload.length := by
    intro sized payload
    rw [List.length_append, Nat.add_sub_cancel_left]
  rw [writeRecord, serializeObjectGraphToBuffer_append, hsize, overwrite_count]
  simp only [recordBytes, recordOf, List.append_assoc]

/-- A publication is a table of the records of the changed Nodes. -/
theorem publicationOf_eq {saver : ModelSaver σ β ε} {domain : ModelDomain σ β ε}
    {changed : List (Node σ β ε)} {bytes : Bytes}
    (h : publicationOf saver domain changed = some bytes) :
    bytes = tableBytes recordBytes (changed.map (recordOf saver domain)) := by
  have hfold : ∀ (nodes : List (Node σ β ε)) (out : Bytes),
      nodes.foldl (writeRecord saver domain) out =
        out ++ (nodes.map (recordOf saver domain)).flatMap recordBytes := by
    intro nodes
    induction nodes with
    | nil => simp
    | cons head tail ih =>
        intro out
        rw [List.foldl_cons, ih, writeRecord_eq, List.map_cons, List.flatMap_cons,
          List.append_assoc]
  rw [publicationOf] at h
  split at h
  case isTrue => cases h
  case isFalse => rw [← Option.some.inj h, hfold, tableBytes, List.length_map]

end Writer

section Reader

/-- Why `ApplyPublished` does not return. -/
inductive ApplyFailure where
  | readPastEnd
  | assertFailed
  | stillRunning
  deriving DecidableEq, Repr

variable {ρ ε : Type}

/-- A GUI Domain whose objects keep their class. -/
abbrev ShellDomain (ε : Type) := UiDomain ε ClassId

/-- The part of Aether that `ApplyPublished` uses: loading into an object that is there,
and the factories by class. -/
structure ShellAether (ε : Type) where
  loader : UiLoader ε ClassId
  create : ClassId → Option (UiObject ε ClassId)
  create_fields : ∀ classId object, create classId = some object → object.fields = classId

/-- Some reads, and `assert(in.ok)`. -/
def checked (parser : SourceReader ρ) (source : ByteSource) :
    Except ApplyFailure (ρ × ByteSource) :=
  match parser source with
  | .error _ => .error .readPastEnd
  | .ok (value, after) => if after.ok then .ok (value, after) else .error .assertFailed

/-- A loop of the initial publication with assertions in the place of its null results. -/
def asserting (result : Except LoadFailure ρ) : Except ApplyFailure ρ :=
  match result with
  | .ok value => .ok value
  | .error .readPastEnd => .error .readPastEnd
  | .error (.stage _) => .error .assertFailed

/-- The loop of `PreferredClassIdFor`: the first class of the object, and the last one that
is not `Node`. -/
def preferLayers (nodeClassId : ClassId) (wantId : ObjId) :
    Nat → ByteSource → ClassId → ClassId → Except ApplyFailure (ClassId × ClassId)
  | 0, _, first, derived => .ok (first, derived)
  | count + 1, source, first, derived =>
      if !source.ok then
        .ok (first, derived)
      else
        match readLayerHeader source with
        | .error _ => .error .readPastEnd
        | .ok (header, after) =>
            if !after.ok || decide (after.data.length < after.pos + header.size.toNat) then
              .ok (first, derived)
            else if header.query.id ≠ wantId then
              preferLayers nodeClassId wantId count
                { after with pos := after.pos + header.size.toNat } first derived
            else
              preferLayers nodeClassId wantId count
                { after with pos := after.pos + header.size.toNat }
                (if first = 0 then header.query.classId else first)
                (if header.query.classId ≠ nodeClassId then header.query.classId else derived)

/-- `PreferredClassIdFor`. -/
def preferredClassIdFor (nodeClassId : ClassId) (payload : Bytes) (wantId : ObjId) :
    Except ApplyFailure ClassId :=
  match readU32Of ⟨payload, 0, true⟩ with
  | .error _ => .error .readPastEnd
  | .ok (count, source) => do
      let found ← preferLayers nodeClassId wantId count.toNat source 0 0
      pure (if found.2 ≠ 0 then found.2 else found.1)

/-- `CreateUiShell`. -/
def createUiShell (aether : ShellAether ε) (domain : ShellDomain ε) (id : ObjId)
    (classId : ClassId) : Option (ShellDomain ε) :=
  if (domain id).isSome then
    some domain
  else if classId = 0 then
    none
  else
    (aether.create classId).map fun object => Function.update domain id (some object)

/-- The storage and the Domain of the GUI, and `UiApplyResult::changed_obj_ids`. -/
structure UiState (ε : Type) where
  storage : UiStorage
  domain : ShellDomain ε
  changedObjIds : List ObjId := []

/-- `LoadExistingObjectUnchecked` of an object if the Domain has it. -/
def refreshObject (loader : UiLoader ε ClassId) (storage : UiStorage)
    (domain : ShellDomain ε) (id : ObjId) : ShellDomain ε :=
  if (domain id).isSome then (loader.loadObject storage domain id).1 else domain

/-- `DeserializeObjectGraphFromBuffer`. -/
def deserializeObjectGraphFromBuffer (loader : UiLoader ε ClassId) (root : ObjId)
    (payload : Bytes) (storage : UiStorage) (domain : ShellDomain ε) :
    Except ApplyFailure (UiStorage × ShellDomain ε) := do
  let injected ← asserting (readAndInjectPublicationLayers ⟨payload, 0, true⟩ storage)
  let loaded := (loader.loadObject injected.storage domain root).1
  let refreshed := injected.uniqueObjIds.foldl (refreshObject loader injected.storage) loaded
  let adopted ← asserting (adoptGenerationTable injected.source refreshed)
  pure (injected.storage, adopted.2)

/-- `apply_existing` of `ApplyPublished`; nothing if the record is not applied now. -/
def applyExisting (loader : UiLoader ε ClassId) (record : PublishedRecord)
    (ui : UiState ε) : Except ApplyFailure (Option (UiState ε)) :=
  if record.applied || (ui.domain record.objId).isNone then
    .ok none
  else do
    let read ← deserializeObjectGraphFromBuffer loader record.objId record.payload ui.storage
      ui.domain
    pure (some
      { storage := read.1
        domain := adoptGeneration read.2 (record.objId, record.generation)
        changedObjIds := ui.changedObjIds ++ [record.objId] })

/-- The records and the GUI after a loop over the records, and its `progress`. -/
structure Pass (ε : Type) where
  records : List PublishedRecord
  ui : UiState ε
  progress : Bool := false

/-- The condition of a loop, and `apply_existing`. -/
def applySelected (loader : UiLoader ε ClassId) (select : PublishedRecord → Bool)
    (record : PublishedRecord) (ui : UiState ε) : Except ApplyFailure (Option (UiState ε)) :=
  if select record then applyExisting loader record ui else .ok none

/-- A loop of `apply_existing` over the selected records. -/
def applyPass (loader : UiLoader ε ClassId) (select : PublishedRecord → Bool) :
    List PublishedRecord → UiState ε → Except ApplyFailure (Pass ε)
  | [], ui => .ok ⟨[], ui, false⟩
  | record :: rest, ui => do
      let outcome ← applySelected loader select record ui
      let later ← applyPass loader select rest (outcome.getD ui)
      pure ⟨{ record with applied := record.applied || outcome.isSome } :: later.records,
        later.ui, outcome.isSome || later.progress⟩

/-- `while (progress)`, at most so many times. -/
def progressLoop (loader : UiLoader ε ClassId) (root : ObjId) :
    Nat → List PublishedRecord → UiState ε → Except ApplyFailure (Pass ε)
  | 0, _, _ => .error .stillRunning
  | fuel + 1, records, ui => do
      let first ← applyPass loader (fun record => decide (record.objId = root)) records ui
      let second ← applyPass loader (fun _ => true) first.records first.ui
      if first.progress || second.progress then
        progressLoop loader root fuel second.records second.ui
      else
        pure second

/-- The loop of `ApplyPublished` that creates the shells. -/
def createShells (aether : ShellAether ε) (nodeClassId : ClassId) :
    List PublishedRecord → UiState ε → Except ApplyFailure (UiState ε)
  | [], ui => .ok ui
  | record :: rest, ui =>
      if record.applied then
        createShells aether nodeClassId rest ui
      else do
        let classId ← preferredClassIdFor nodeClassId record.payload record.objId
        match createUiShell aether ui.domain record.objId classId with
        | none => .error .assertFailed
        | some domain => do
            let outcome ← applyExisting aether.loader record { ui with domain := domain }
            match outcome with
            | none => .error .assertFailed
            | some next => createShells aether nodeClassId rest next

/-- The three reads before a payload. -/
def readRecordHeader : SourceReader (ObjId × UInt64 × UInt32) := do
  let objId ← readU32Of
  let generation ← readU64Of
  let payloadSize ← readU32Of
  pure (⟨objId⟩, generation, payloadSize)

/-- The loop of `ApplyPublished` that reads the records. -/
def readRecords : Nat → ByteSource → Except ApplyFailure (List PublishedRecord)
  | 0, _ => .ok []
  | count + 1, source => do
      let read ← checked readRecordHeader source
      let size := read.1.2.2.toNat
      if read.2.data.length < read.2.pos + size then
        .error .assertFailed
      else
        match Cursor.bytesAt read.2.data read.2.pos size with
        | .error _ => .error .readPastEnd
        | .ok payload => do
            let rest ← readRecords count { read.2 with pos := read.2.pos + size }
            pure (⟨read.1.1, read.1.2.1, payload, false⟩ :: rest)

/-- What `ApplyPublished` read, and the GUI after it. -/
structure AppliedPublication (ε : Type) where
  records : List PublishedRecord
  ui : UiState ε

/-- `UiMirror::ApplyPublished` of the bytes that it takes from the channel. -/
def applyPublished (aether : ShellAether ε) (nodeClassId : ClassId) (root : ObjId)
    (bytes : Bytes) (storage : UiStorage) (domain : ShellDomain ε) :
    Except ApplyFailure (AppliedPublication ε) := do
  let count ← checked readU32Of ⟨bytes, 0, true⟩
  let records ← readRecords count.1.toNat count.2
  let existing ← progressLoop aether.loader root (records.length + 1) records
    { storage := storage, domain := domain }
  let ui ← createShells aether nodeClassId existing.records existing.ui
  pure ⟨records, ui⟩

end Reader

end AppTraverse
