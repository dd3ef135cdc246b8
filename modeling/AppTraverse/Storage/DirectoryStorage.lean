import Mathlib.Data.List.AList
import Mathlib.Data.List.Sort
import AppTraverse.Presentation.ObjectGraphBytes

/-!
# Directory storage

`DirectoryDomainStorage` keeps a layer in a file: a directory of the root for the object, one in
it for the class, and in that a file for the version.  The names are the decimals of the numbers,
so that a directory is known by its number.  A file whose name ends in `.tmp` is one that is being
written.

Any one step that creates, writes, flushes or renames may fail in a commit.  Reading and removing
do not fail.
-/

namespace AppTraverse

/-- The name of a file of a class directory. -/
inductive LayerFileName where
  | version (version : Version)
  | temporary (version : Version)
  deriving DecidableEq, Repr

/-- The files of a class. -/
abbrev ClassDirectory := AList fun _ : LayerFileName => Bytes

/-- The class directories of an object. -/
abbrev ObjectDirectory := AList fun _ : ClassId => ClassDirectory

/-- What is on the disk under the root, and whether the root is there. -/
structure DirectoryTree where
  rootExists : Bool := true
  objects : AList fun _ : ObjId => ObjectDirectory := ∅
  deriving DecidableEq

/-- The steps that may fail. -/
inductive FileStep where
  | createRoot
  | createObjectDirectory
  | createClassDirectory
  | openTemporary
  | write
  | flush
  | rename
  deriving DecidableEq, Repr

/-- `ae::DomainLoad`. -/
inductive DomainLoad where
  | empty
  | removed
  | loaded (bytes : Bytes)
  deriving DecidableEq, Repr

namespace DirectoryTree

variable (tree : DirectoryTree)

/-- There is a directory for the object. -/
def hasObject (id : ObjId) : Bool :=
  (tree.objects.lookup id).isSome

/-- The directory of a class. -/
def classDirectory (id : ObjId) (classId : ClassId) : Option ClassDirectory :=
  (tree.objects.lookup id).bind fun object => object.lookup classId

/-- There is a directory for the class. -/
def hasClass (id : ObjId) (classId : ClassId) : Bool :=
  (tree.classDirectory id classId).isSome

/-- What a file holds. -/
def fileAt (id : ObjId) (classId : ClassId) (name : LayerFileName) : Option Bytes :=
  (tree.classDirectory id classId).bind fun files => files.lookup name

/-- `std::filesystem::create_directories` of the root. -/
def createRoot (fault : Option FileStep) : Except DirectoryTree DirectoryTree :=
  if tree.rootExists then .ok tree
  else if fault = some .createRoot then .error tree
  else .ok { tree with rootExists := true }

/-- `std::filesystem::create_directories` of the directory of an object. -/
def createObjectDirectory (fault : Option FileStep) (id : ObjId) :
    Except DirectoryTree DirectoryTree :=
  if tree.hasObject id then .ok tree
  else if fault = some .createObjectDirectory then .error tree
  else .ok { tree with objects := tree.objects.insert id ∅ }

/-- What is in the directory of an object is changed. -/
def modifyObject (id : ObjId) (change : ObjectDirectory → ObjectDirectory) : DirectoryTree :=
  match tree.objects.lookup id with
  | none => tree
  | some object => { tree with objects := tree.objects.insert id (change object) }

/-- What is in the directory of a class is changed. -/
def modifyClass (id : ObjId) (classId : ClassId) (change : ClassDirectory → ClassDirectory) :
    DirectoryTree :=
  tree.modifyObject id fun object =>
    match object.lookup classId with
    | none => object
    | some files => object.insert classId (change files)

/-- `std::filesystem::create_directories` of the directory of a class. -/
def createClassDirectory (fault : Option FileStep) (query : DomainQuery) :
    Except DirectoryTree DirectoryTree :=
  if tree.hasClass query.id query.classId then .ok tree
  else if fault = some .createClassDirectory then .error tree
  else .ok (tree.modifyObject query.id fun object => object.insert query.classId ∅)

/-- The temporary file has these bytes. -/
def putTemporary (query : DomainQuery) (bytes : Bytes) : DirectoryTree :=
  tree.modifyClass query.id query.classId fun files =>
    files.insert (.temporary query.version) bytes

/-- `std::filesystem::remove` of the temporary file. -/
def removeTemporary (query : DomainQuery) : DirectoryTree :=
  tree.modifyClass query.id query.classId fun files => files.erase (.temporary query.version)

/-- `std::ofstream` with `std::ios::trunc`. -/
def openTemporary (fault : Option FileStep) (query : DomainQuery) :
    Except DirectoryTree DirectoryTree :=
  if fault = some .openTemporary then .error tree
  else .ok (tree.putTemporary query [])

/-- `out.write`, unless there is nothing to write. -/
def writeTemporary (fault : Option FileStep) (query : DomainQuery) (bytes : Bytes) :
    Except DirectoryTree DirectoryTree :=
  if bytes.isEmpty then .ok tree
  else if fault = some .write then .error (tree.removeTemporary query)
  else .ok (tree.putTemporary query bytes)

/-- `out.flush`. -/
def flushTemporary (fault : Option FileStep) (query : DomainQuery) :
    Except DirectoryTree DirectoryTree :=
  if fault = some .flush then .error (tree.removeTemporary query)
  else .ok tree

/-- `std::filesystem::rename`. -/
def renameTemporary (fault : Option FileStep) (query : DomainQuery) (bytes : Bytes) :
    Except DirectoryTree DirectoryTree :=
  if fault = some .rename then .error (tree.removeTemporary query)
  else
    .ok (tree.modifyClass query.id query.classId fun files =>
      (files.erase (.temporary query.version)).insert (.version query.version) bytes)

/-- `ReplaceLayerFile`.  An error carries what is on the disk then. -/
def replaceLayerFile (fault : Option FileStep) (query : DomainQuery) (bytes : Bytes) :
    Except DirectoryTree DirectoryTree := do
  let tree ← tree.createRoot fault
  let tree ← tree.createObjectDirectory fault query.id
  let tree ← tree.createClassDirectory fault query
  let tree ← tree.openTemporary fault query
  let tree ← tree.writeTemporary fault query bytes
  let tree ← tree.flushTemporary fault query
  tree.renameTemporary fault query bytes

/-- `ReadExistingLayerFile`. -/
def readExistingLayerFile (query : DomainQuery) : Option Bytes :=
  tree.fileAt query.id query.classId (.version query.version)

/-- `DirectoryDomainStorage::Enumerate`. -/
def enumerate (id : ObjId) : List ClassId :=
  match tree.objects.lookup id with
  | none => []
  | some object => object.keys.insertionSort (· ≤ ·)

/-- `DirectoryDomainStorage::Load`. -/
def load (query : DomainQuery) : DomainLoad :=
  match tree.objects.lookup query.id with
  | none => .empty
  | some object =>
      if object.entries.isEmpty then .removed
      else
        match (object.lookup query.classId).bind fun files =>
            files.lookup (.version query.version) with
        | none => .empty
        | some bytes => .loaded bytes

/-- `Remove` throws: the object has no directory, and it cannot be created. -/
def removeThrows (fault : Option FileStep) (id : ObjId) : Bool :=
  !tree.hasObject id && (!tree.rootExists || decide (fault = some .createObjectDirectory))

/-- `DirectoryDomainStorage::Remove`.  The directory of the object stays, or is made, and is
empty. -/
def remove (fault : Option FileStep) (id : ObjId) : DirectoryTree :=
  if tree.removeThrows fault id then tree
  else { tree with objects := tree.objects.insert id ∅ }

/-- `DirectoryDomainStorage::CleanUp`. -/
def cleanUp (fault : Option FileStep) : DirectoryTree where
  rootExists := decide (fault ≠ some .createRoot)
  objects := ∅

end DirectoryTree

/-- `DirectoryDomainStorage::LayerCommitOutcome`. -/
inductive LayerCommitOutcome where
  | none
  | skippedUnchanged
  | written
  | failed
  deriving DecidableEq, Repr

/-- `DirectoryDomainStorageStoreStats`. -/
structure StoreStats where
  layerStoreCalls : Nat := 0
  layersBytesAccepted : Nat := 0
  layersWritten : Nat := 0
  layersSkippedUnchanged : Nat := 0
  layersWrittenBytes : Nat := 0
  layersFailedCommits : Nat := 0
  deriving DecidableEq, Repr

/-- `DirectoryDomainStorage`. -/
structure DirectoryDomainStorage where
  tree : DirectoryTree := {}
  saveSessionStats : StoreStats := {}
  saveSessionActive : Bool := false
  saveSessionHadFailure : Bool := false
  lastLayerCommit : LayerCommitOutcome := .none
  deriving DecidableEq

/-- `CompareOnCloseDirectoryStorageWriter`.  It fails only when it is closed. -/
structure LayerWriter where
  query : DomainQuery
  buffer : Bytes := []
  deriving DecidableEq, Repr

namespace DirectoryDomainStorage

variable (storage : DirectoryDomainStorage)

/-- `BeginSaveSession`. -/
def beginSaveSession : DirectoryDomainStorage :=
  { storage with
    saveSessionStats := {}
    saveSessionActive := true
    saveSessionHadFailure := false
    lastLayerCommit := .none }

/-- `RecordLayerBytesAccepted`. -/
def recordLayerBytesAccepted (bytes : Nat) : DirectoryDomainStorage :=
  if storage.saveSessionActive then
    { storage with
      saveSessionStats := { storage.saveSessionStats with
        layersBytesAccepted := storage.saveSessionStats.layersBytesAccepted + bytes } }
  else
    storage

/-- What `RecordLayerCommit` counts in a session. -/
def countLayerCommit (stats : StoreStats) (diskBytes : Nat) : LayerCommitOutcome → StoreStats
  | .none => stats
  | .skippedUnchanged =>
      { stats with layersSkippedUnchanged := stats.layersSkippedUnchanged + 1 }
  | .written =>
      { stats with
        layersWritten := stats.layersWritten + 1
        layersWrittenBytes := stats.layersWrittenBytes + diskBytes }
  | .failed => { stats with layersFailedCommits := stats.layersFailedCommits + 1 }

/-- `RecordLayerCommit`. -/
def recordLayerCommit (outcome : LayerCommitOutcome) (diskBytes : Nat) :
    DirectoryDomainStorage :=
  let stats := storage.saveSessionStats
  { storage with
    lastLayerCommit := outcome
    saveSessionHadFailure := storage.saveSessionHadFailure || decide (outcome = .failed)
    saveSessionStats :=
      if storage.saveSessionActive then
        countLayerCommit { stats with layerStoreCalls := stats.layerStoreCalls + 1 } diskBytes
          outcome
      else
        stats }

/-- `CommitIfNeeded`, when a writer is closed. -/
def commitLayer (fault : Option FileStep) (writer : LayerWriter) : DirectoryDomainStorage :=
  if storage.tree.readExistingLayerFile writer.query = some writer.buffer then
    storage.recordLayerCommit .skippedUnchanged 0
  else
    match storage.tree.replaceLayerFile fault writer.query writer.buffer with
    | .error left => { storage with tree := left }.recordLayerCommit .failed 0
    | .ok replaced =>
        { storage with tree := replaced }.recordLayerCommit .written writer.buffer.length

end DirectoryDomainStorage

end AppTraverse
