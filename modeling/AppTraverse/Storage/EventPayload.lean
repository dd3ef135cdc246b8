import AppTraverse.Storage.NodeGraph

/-!
# Standalone Event payloads

An incremental frame carries one Event as its own object graph: the id of the
root and the storage map.  The sender refuses an Event that reaches any other
object; the receiver checks the same of untrusted bytes and imports the Event
under an id of its own.
-/

namespace AppTraverse

section EventPayload

variable {α ε : Type} (aether : Aether α ε) (app : AppClass α ε)

/-- The references of a loaded object that go through `HandlePointerSeri`: those of its
`SharedPtr` fields with their static target classes, and those of its `LocalPtr` fields.
A plain `ae::ObjPtr` is written by Aether and is not among them. -/
structure ObjectLinks where
  shared : List (ClassId × ObjId)
  locals : List ObjId

/-- `HandlePointerSeri` in `kValidate` mode, on all fields of an object: a local
reference has to be empty, and a shared one has to resolve within `parsed`, to an object
whose class derives from its static target. -/
def linksAccepted (parsed : RamDomainStorage) (links : ObjectLinks) : Bool :=
  (links.locals.all fun id => !id.isValid) &&
    links.shared.all fun reference =>
      !reference.2.isValid ||
        match mostDerivedClassId? aether parsed reference.2 with
        | none => false
        | some mostDerived => aether.derives reference.1 mostDerived

/-- `ValidateClosedEventGraphStorage`.  `load` is what the scratch Domain loads from the
layers of one object. -/
def validateClosedEventGraphStorage (load : Layers → Option ObjectLinks)
    (parsed : RamDomainStorage) (rootEventId : ObjId) (expectedEventClassId : ClassId) :
    Bool :=
  if !rootEventId.isValid || (parsed.layers? rootEventId).isNone then
    false
  else
    match validateStoredClassChains aether parsed with
    | none => false
    | some chains =>
        match chains.find? fun info => decide (info.objId = rootEventId) with
        | none => false
        | some root =>
            if !aether.derives aether.eventClassId root.mostDerivedClassId then
              false
            else if expectedEventClassId ≠ 0 ∧
                root.mostDerivedClassId ≠ expectedEventClassId then
              false
            else
              parsed.live.all fun stored =>
                match load stored.2 with
                | none => false
                | some links => linksAccepted aether parsed links

/-- The links of an object of this repository: `Node::base` is a `SharedPtr`, and
`SharedNode::link_sync_states` are `LocalPtr`s. -/
def StoredObject.links (object : StoredObject α ε) : ObjectLinks where
  shared := (aether.nodeClassId, object.base) :: object.otherRefs
  locals := object.localReferences

/-- `FreezeEventPayload` with the boundary of a standalone Event: nothing but the
Event itself may be exported. -/
def freezeEventPayload (eventId : ObjId) (event : SharedNodeEvent ε) : Option Bytes :=
  let scratch := savedObjects aether (eventObjects aether app ⟨eventId, some event⟩)
  if !eventId.isValid then
    none
  else if scratch.live.any fun stored => decide (stored.1 ≠ eventId) then
    none
  else if !validateClosedEventGraphStorage aether
      (fun layers => (aether.loadObject layers).map (StoredObject.links aether)) scratch
      eventId (aether.classIdOfEvent app event) then
    none
  else
    some (aether.saveObjId eventId ++ aether.saveState scratch)

/-- `ParseEventPayload`. -/
def parseEventPayload (payload : Bytes) : Option (RamDomainStorage × ObjId) := do
  let (rootId, rest) ← aether.loadObjId payload
  if !rootId.isValid then none else
  let (parsed, rest) ← aether.loadState rest
  if !rest.isEmpty then none else
  if (parsed.layers? rootId).isNone then none else
  some (parsed, rootId)

/-- `ValidateStandaloneEventGraph`. -/
def validateStandaloneEventGraph (parsed : RamDomainStorage) (rootId : ObjId)
    (expectedEventClassId : ClassId) : Bool :=
  if !rootId.isValid then
    false
  else
    match validateStoredClassChains aether parsed with
    | none => false
    | some chains =>
        if parsed.live.map Prod.fst ≠ [rootId] then
          false
        else
          match chains.find? fun info => decide (info.objId = rootId) with
          | none => false
          | some root =>
              decide (root.mostDerivedClassId = expectedEventClassId) &&
                aether.derives aether.eventClassId expectedEventClassId &&
                match parsed.find aether rootId with
                | none => false
                | some object => decide (object.classId = expectedEventClassId)

/-- `AllocateUniqueReceiverObjId`.  `generated` are the ids that
`ObjId::GenerateUnique` offers during the call. -/
def allocateUniqueReceiverObjId (generated : List ObjId) (occupied : ObjId → Bool) :
    Except Fault ObjId :=
  match generated.find? fun id => id.isValid && !occupied id with
  | none => .error .noUniqueId
  | some id => .ok id

/-- A standalone Event imported under a receiver-local id. -/
structure ImportedEvent (ε : Type) where
  id : ObjId
  layers : Layers
  event : SharedNodeEvent ε

/-- `ImportStandaloneEventGraph`: `find` is what the receiving Domain resolves. -/
def importStandaloneEventGraph (parsed : RamDomainStorage) (rootId : ObjId)
    (expectedEventClassId : ClassId) (generated : List ObjId)
    (occupied : ObjId → Bool) (find : ObjectFinder α ε) :
    Except Fault (Option (ImportedEvent ε)) :=
  if !validateStandaloneEventGraph aether parsed rootId expectedEventClassId then
    .ok none
  else do
    let id ← allocateUniqueReceiverObjId generated occupied
    match parsed.layers? rootId with
    | none => .ok none
    | some layers =>
        match aether.loadObject layers with
        | none => .ok none
        | some object =>
            if object.classId ≠ expectedEventClassId then
              .ok none
            else
              match object.body with
              | .event event => do
                  let loaded ← loadEvent
                    (fun other => if other = id then some object else find other) event
                  pure (some ⟨id, layers, loaded⟩)
              | _ => .error .badCast

/-- `SameEventPayload`: the stored layers of both roots are equal. -/
def sameEventPayload (eventId : ObjId) (event : SharedNodeEvent ε) (payload : Bytes) :
    Bool :=
  match parseEventPayload aether payload with
  | none => false
  | some (parsed, wireRootId) =>
      let scratch := savedObjects aether (eventObjects aether app ⟨eventId, some event⟩)
      match scratch.layers? eventId, parsed.layers? wireRootId with
      | some ours, some theirs => decide (ours = theirs)
      | _, _ => false

/-- The clock reading and the generated ids of one scratch Domain. -/
structure ScratchEnv where
  ids : Nat → ObjId
  generated : List ObjId

/-- `PreflightHistoricalEventInsertion`: insert into a disposable copy of the
target, at the historical position of the Event. -/
def preflightHistoricalEventInsertion (env : ScratchEnv) (nowUs : UInt64)
    (target : SharedNode α ε) (parsed : RamDomainStorage) (wireRootId : ObjId)
    (expectedEventClassId : ClassId) (identity : SharedEventId)
    (timestampUs : UInt64) : Except Fault Bool := do
  let scratch := buildNetworkSharedScratch aether app target
  match ← importStandaloneEventGraph aether parsed wireRootId expectedEventClassId
      env.generated (fun id => (scratch.layers? id).isSome) (scratch.find aether) with
  | none => pure false
  | some candidate =>
      let filled : RamDomainStorage := scratch.insert candidate.id (some candidate.layers)
      match ← loadSharedNode aether (filled.find aether) target.objId with
      | none => pure false
      | some copy => do
          let (_, ok) ← tryCommitShared (app.nodeClass env.ids) copy
            ⟨candidate.id, some candidate.event⟩ identity ⟨timestampUs⟩ nowUs
          pure ok

end EventPayload

end AppTraverse
