import AppTraverse.Runtime.SnapshotAdmission
import AppTraverse.Wire.SyncFrame

/-!
# The synchronization runtime of one replica

`SharedSyncRuntime` routes received bytes to the SharedNode a frame names and
drives the initial and the incremental synchronization of a Share.

Every operation is an `EffectLog`: storage writes, the binding callback and sends
are effects in program order, and the result is the runtime after the call.  An
operation that returns in the middle of the source function returns the runtime
as it is there.
-/

namespace AppTraverse

open Foundations

/-- `SharedSyncRuntime::EndpointExpectation`. -/
structure EndpointExpectation where
  sourceEndpoint : Bytes
  expectedRootClassId : ClassId
  expectedNodeId : ObjId
  deriving DecidableEq, Repr

/-- The members of a `SharedSyncRuntime`; its Domain and its storage are separate.
`callbackInstalled` says whether `initial_node_imported_callback_` is set. -/
structure SharedSyncRuntime (α ε : Type) where
  localEndpoint : Bytes
  nodes : List (SharedNode α ε) := []
  expectedInitialNodes : List ObjId := []
  expectedEndpointNodes : List EndpointExpectation := []
  callbackInstalled : Bool := false
  standaloneEventClasses : List ClassId := []
  deriving DecidableEq

/-- The durable storage of a replica: layers that were copied in, and the last
saved value of every Node. -/
structure ReplicaStorage (α ε : Type) where
  objects : RamDomainStorage := ∅
  nodes : List (SharedNode α ε) := []

/-- What an operation does to the outside world. -/
inductive Effect (α ε : Type) where
  | commitObjectGraph (graph : RamDomainStorage)
  | storeObject (id : ObjId) (layers : Layers)
  | saveNode (node : SharedNode α ε)
  | saveLinkSyncState (nodeId : ObjId) (state : Ref LinkSyncState)
  | bindNode (sourceEndpoint : Bytes) (node : SharedNode α ε) (bound : Bool)
  | send (destination : Bytes) (bytes : Bytes)

/-- The graph that an effect commits. -/
def Effect.committedGraph? {α ε : Type} : Effect α ε → Option RamDomainStorage
  | .commitObjectGraph graph => some graph
  | _ => none

theorem Effect.committedGraph?_eq_some {α ε : Type} {effect : Effect α ε}
    {graph : RamDomainStorage} :
    effect.committedGraph? = some graph ↔ effect = .commitObjectGraph graph := by
  cases effect with
  | commitObjectGraph other => simp [committedGraph?]
  | storeObject id layers => simp [committedGraph?]
  | saveNode node => simp [committedGraph?]
  | saveLinkSyncState nodeId state => simp [committedGraph?]
  | bindNode endpoint node bound => simp [committedGraph?]
  | send destination bytes => simp [committedGraph?]

/-- What one call draws from its surroundings: the clock, the ids that
`ObjId::GenerateUnique` returns, and the answer of the binding callback. -/
structure StepEnv where
  nowUs : UInt64
  ids : Nat → ObjId
  eventId : ObjId
  generated : List ObjId
  scratch : ScratchEnv
  bound : Bool

section Nodes

variable {α ε : Type}

/-- `SharedSyncRuntime::FindNode`. -/
def findNode (nodes : List (SharedNode α ε)) (nodeId : ObjId) :
    Option (SharedNode α ε) :=
  nodes.find? fun node => decide (node.objId = nodeId)

/-- The Node of the same id takes the new value. -/
def replaceNode (nodes : List (SharedNode α ε)) (node : SharedNode α ε) :
    List (SharedNode α ε) :=
  nodes.map fun other => if other.objId = node.objId then node else other

/-- The Node of the same id takes the new value, or the Node is added. -/
def saveNodeValue (nodes : List (SharedNode α ε)) (node : SharedNode α ε) :
    List (SharedNode α ε) :=
  if nodes.any fun other => decide (other.objId = node.objId) then
    replaceNode nodes node
  else
    nodes ++ [node]

/-- The local sync state of one entry, which has to be loaded. -/
def linkSyncStateAt (node : SharedNode α ε) (index : Nat) :
    Except Fault LinkSyncState :=
  match node.fields.linkSyncStates[index]?.bind Ref.obj with
  | none => .error .nullDeref
  | some state => .ok state

/-- A Node with the state of one `link_sync_states` entry replaced. -/
def setLinkSyncStateAt (node : SharedNode α ε) (index : Nat) (state : LinkSyncState) :
    SharedNode α ε :=
  { node with
    fields := { node.fields with
      linkSyncStates := node.fields.linkSyncStates.modify index fun entry =>
        { entry with obj := some state } } }

/-- Commit an Event on the state of one `link_sync_states` entry. -/
def commitLinkSyncEvent (node : SharedNode α ε) (index : Nat) (eventId : ObjId)
    (event : LinkSyncEvent) : Except Fault (SharedNode α ε) := do
  let state ← linkSyncStateAt node index
  let committed ← state.commit eventId event
  pure (setLinkSyncStateAt node index committed)

end Nodes

section Storage

variable {α ε : Type} (aether : Aether α ε) (app : AppClass α ε)

/-- The base snapshots that `InitializeRuntimeNode` stores for new local sync
states. -/
def createdObjects (created : List CreatedLinkSyncState) :
    List (ObjId × StoredObject α ε) :=
  created.map fun entry =>
    (entry.baseId, { classId := aether.linkSyncStateClassId
                     body := .linkSyncState (.fresh entry.shareId entry.link) })

/-- Write objects into a storage map. -/
def storeObjects (storage : RamDomainStorage) (objects : List (ObjId × StoredObject α ε)) :
    RamDomainStorage :=
  objects.foldl
    (fun filled object => filled.insert object.1 (some (aether.saveObject object.2)))
    storage

/-- `CommitObjectGraph`: every live object of the graph is written. -/
def commitObjectGraph (graph target : RamDomainStorage) : RamDomainStorage :=
  graph.live.foldl (fun filled object => filled.insert object.1 (some object.2)) target

/-- The effect of one operation on storage. -/
def ReplicaStorage.perform (storage : ReplicaStorage α ε) :
    Effect α ε → ReplicaStorage α ε
  | .commitObjectGraph graph =>
      { storage with objects := commitObjectGraph graph storage.objects }
  | .storeObject id layers =>
      { storage with objects := storage.objects.insert id (some layers) }
  | .saveNode node => { storage with nodes := saveNodeValue storage.nodes node }
  | .saveLinkSyncState nodeId state =>
      { storage with
        nodes := storage.nodes.map fun node =>
          if node.objId = nodeId then
            { node with
              fields := { node.fields with
                linkSyncStates := node.fields.linkSyncStates.map fun entry =>
                  if entry.id = state.id then state else entry } }
          else
            node }
  | .bindNode _ _ _ => storage
  | .send _ _ => storage

/-- The objects of a live Node, its local sync states and their base snapshots
included. -/
def liveNodeObjects (node : SharedNode α ε) : List (ObjId × StoredObject α ε) :=
  reachableObjects aether app .persistent node ++
    createdObjects aether node.fields.created

/-- The first object of that id. -/
def findObject (objects : List (ObjId × StoredObject α ε)) (id : ObjId) :
    Option (StoredObject α ε) :=
  (objects.find? fun object => decide (object.1 = id)).map Prod.snd

/-- What the Domain and the storage of a replica resolve an id to. `others` are
live objects of the Domain that no registered Node reaches. -/
def productionFind (others : List (ObjId × StoredObject α ε))
    (nodes : List (SharedNode α ε)) (storage : ReplicaStorage α ε) :
    ObjectFinder α ε := fun id =>
  (findObject (nodes.flatMap (liveNodeObjects aether app) ++ others ++
      storage.nodes.flatMap (liveNodeObjects aether app)) id).or
    (storage.objects.find aether id)

/-- `domain_.Find(id) || !storage_.Enumerate(id).empty()`. -/
def occupiedAtReceiver (others : List (ObjId × StoredObject α ε))
    (nodes : List (SharedNode α ε)) (storage : ReplicaStorage α ε) (id : ObjId) :
    Bool :=
  (findObject (nodes.flatMap (liveNodeObjects aether app) ++ others ++
      storage.nodes.flatMap (liveNodeObjects aether app)) id).isSome ||
    match storage.objects.layers? id with
    | none => false
    | some layers => !layers.isEmpty

end Storage

/-- A replica between two operations. -/
structure Replica (α ε : Type) where
  runtime : SharedSyncRuntime α ε
  others : List (ObjId × StoredObject α ε) := []
  storage : ReplicaStorage α ε := {}

/-- The replica after a call that returned. -/
def Replica.after {α ε : Type} (replica : Replica α ε) (effects : List (Effect α ε))
    (runtime : SharedSyncRuntime α ε) : Replica α ε :=
  { replica with
    runtime := runtime
    storage := effects.foldl ReplicaStorage.perform replica.storage }

section Operations

variable {α ε : Type} (aether : Aether α ε) (app : AppClass α ε)

/-- An operation of the runtime. -/
abbrev RuntimeM (α ε ρ : Type) := EffectLog Fault (Effect α ε) ρ

/-- Perform one effect. -/
def perform (effect : Effect α ε) : RuntimeM α ε Unit := EffectLog.emit effect

/-- Run a computation that has no effects. -/
def pureStep {ρ : Type} (result : Except Fault ρ) : RuntimeM α ε ρ :=
  EffectLog.lift result

@[simp] theorem perform_bind {ρ : Type} (effect : Effect α ε) (f : Unit → RuntimeM α ε ρ) :
    perform effect >>= f = ⟨effect :: (f ()).effects, (f ()).result⟩ :=
  EffectLog.emit_bind effect f

@[simp] theorem pureStep_ok_bind {ρ σ : Type} (value : ρ) (f : ρ → RuntimeM α ε σ) :
    (pureStep (.ok value) : RuntimeM α ε ρ) >>= f = f value :=
  EffectLog.lift_ok_bind value f

@[simp] theorem pureStep_error_bind {ρ σ : Type} (reason : Fault)
    (f : ρ → RuntimeM α ε σ) :
    (pureStep (.error reason) : RuntimeM α ε ρ) >>= f = ⟨[], .error reason⟩ :=
  EffectLog.bind_of_error f (EffectLog.lift_result _)

/-- `RegisterNode`. -/
def registerNode (runtime : SharedSyncRuntime α ε) (node : SharedNode α ε) :
    Except Fault (SharedSyncRuntime α ε) := do
  assertThat (findNode runtime.nodes node.objId).isNone
  pure { runtime with nodes := runtime.nodes ++ [node] }

/-- `ExpectInitialNode`. -/
def expectInitialNode (runtime : SharedSyncRuntime α ε) (nodeId : ObjId) :
    Except Fault (SharedSyncRuntime α ε) := do
  assertThat nodeId.isValid
  pure { runtime with expectedInitialNodes := runtime.expectedInitialNodes ++ [nodeId] }

/-- The first expectation of a source endpoint. -/
def expectationOf (expectations : List EndpointExpectation) (sourceEndpoint : Bytes) :
    Option EndpointExpectation :=
  expectations.find? fun expectation =>
    decide (expectation.sourceEndpoint = sourceEndpoint)

/-- `ExpectInitialNodeFromEndpoint`: one expectation per endpoint. -/
def expectInitialNodeFromEndpoint (runtime : SharedSyncRuntime α ε)
    (sourceEndpoint : Bytes) (expectedRootClassId : ClassId) (expectedNodeId : ObjId) :
    SharedSyncRuntime α ε :=
  let expectation := ⟨sourceEndpoint, expectedRootClassId, expectedNodeId⟩
  if sourceEndpoint.isEmpty || decide (expectedRootClassId = 0) then
    runtime
  else
    let index := runtime.expectedEndpointNodes.findIdx fun existing =>
      decide (existing.sourceEndpoint = sourceEndpoint)
    if index < runtime.expectedEndpointNodes.length then
      { runtime with
        expectedEndpointNodes := runtime.expectedEndpointNodes.set index expectation }
    else
      { runtime with
        expectedEndpointNodes := runtime.expectedEndpointNodes ++ [expectation] }

/-- `ForgetInitialNodeFromEndpoint`. -/
def forgetInitialNodeFromEndpoint (runtime : SharedSyncRuntime α ε)
    (sourceEndpoint : Bytes) : SharedSyncRuntime α ε :=
  if sourceEndpoint.isEmpty then
    runtime
  else
    { runtime with
      expectedEndpointNodes := runtime.expectedEndpointNodes.filter fun expectation =>
        decide (expectation.sourceEndpoint ≠ sourceEndpoint) }

/-- `AllowStandaloneEventClass`. -/
def allowStandaloneEventClass (runtime : SharedSyncRuntime α ε) (classId : ClassId) :
    SharedSyncRuntime α ε :=
  if decide (classId = 0) || !aether.derives aether.eventClassId classId ||
      decide (classId ∈ runtime.standaloneEventClasses) then
    runtime
  else
    { runtime with
      standaloneEventClasses := runtime.standaloneEventClasses ++ [classId] }

/-- The destination of a synchronization call, and the index of its state. -/
def syncDestination (runtime : SharedSyncRuntime α ε) (nodeId shareId : ObjId) :
    Except Fault (SharedNode α ε × Bytes × Nat × LinkSyncState) :=
  match findNode runtime.nodes nodeId with
  | none => .error .assertFailed
  | some node =>
      match shareEndpointOf node.fields.shares shareId with
      | none => .error .assertFailed
      | some destination => do
          assertThat (!destination.isEmpty)
          assertThat (decide (destination ≠ runtime.localEndpoint))
          let index ← findLinkSyncIndexForShare node.fields.linkSyncStates shareId
          assertThat (decide (index < node.fields.linkSyncStates.length))
          let state ← linkSyncStateAt node index
          pure (node, destination, index, state)

/-- Commit a Begin Event, save, and send the packet it froze. -/
def beginSync (runtime : SharedSyncRuntime α ε) (node : SharedNode α ε) (index : Nat)
    (destination : Bytes) (eventId : ObjId) (event : LinkSyncEvent) (packet : Bytes) :
    RuntimeM α ε (SharedSyncRuntime α ε) := do
  let committed ← pureStep (commitLinkSyncEvent node index eventId event)
  perform (.saveNode committed)
  perform (.send destination packet)
  pure { runtime with nodes := replaceNode runtime.nodes committed }

/-- `SyncInitialState`. -/
def syncInitialState (env : StepEnv) (runtime : SharedSyncRuntime α ε)
    (nodeId shareId : ObjId) : RuntimeM α ε (SharedSyncRuntime α ε) := do
  let (node, destination, index, state) ←
    pureStep (syncDestination runtime nodeId shareId)
  match state.initialSyncPhase with
  | .complete => pure runtime
  | .pending => do
      perform (.send destination state.pendingInitialPacket)
      pure runtime
  | _ => do
      let frozen ← pureStep (freezeNetworkSharedNodeState aether app node)
      let packet := encodeNodeStateFrame ⟨env.eventId, nodeId, shareId, frozen.payload⟩
      beginSync runtime node index destination env.eventId
        (.beginInitialSync packet frozen.coveredEventIds) packet

/-- `NextUndeliveredSharedEvent`. -/
def nextUndeliveredSharedEvent (journal : List (EventRecord (SharedNodeEvent ε)))
    (state : LinkSyncState) (destination : Bytes) :
    Option (EventRecord (SharedNodeEvent ε)) :=
  journal.find? fun record =>
    record.hasSharedIdentity && !state.hasDelivered record.identity &&
      !(state.hasPendingEvent && decide (state.pendingEventIdentity = record.identity)) &&
      decide (record.identity.originUid ≠ destination)

/-- `SyncNextEvent`. -/
def syncNextEvent (env : StepEnv) (runtime : SharedSyncRuntime α ε)
    (nodeId shareId : ObjId) : RuntimeM α ε (SharedSyncRuntime α ε) := do
  let (node, destination, index, state) ←
    pureStep (syncDestination runtime nodeId shareId)
  if state.initialSyncPhase ≠ .complete then
    pure runtime
  else if state.hasPendingEvent then do
    perform (.send destination state.pendingEventPacket)
    pure runtime
  else
    match nextUndeliveredSharedEvent node.journal state destination with
    | none => pure runtime
    | some record => do
        pureStep (assertThat record.event.isValid)
        match record.event.obj with
        | none => EffectLog.fault .assertFailed
        | some event =>
            if aether.classIdOfEvent app event ∉ runtime.standaloneEventClasses then
              pure runtime
            else
              match freezeEventPayload aether app record.event.id event with
              | none => pure runtime
              | some payload =>
                  let packet := encodeEventFrame ⟨env.eventId, nodeId, shareId,
                    record.identity, record.order.timestampUs,
                    aether.classIdOfEvent app event, payload⟩
                  beginSync runtime node index destination env.eventId
                    (.beginIncrementalEventSync record.identity packet) packet

/-- The acknowledgement of a packet. -/
def sendAck (destination : Bytes) (packetId targetNodeId destinationShareId : ObjId) :
    RuntimeM α ε Unit :=
  perform (.send destination
    (encodeAckFrame ⟨packetId, targetNodeId, destinationShareId⟩))

end Operations

end AppTraverse
