import AppTraverse.Runtime.SharedSyncRuntime

/-!
# Received frames

`OnBytes` and what it dispatches to.  An unknown root is admitted in two stages:
`ImportValidatedNode` validates the snapshot in a scratch Domain, commits it and
loads it in production; `OnNodeState` records the receipt, registers the Node,
asks the binding callback and acknowledges.
-/

namespace AppTraverse

open Foundations

section Import

variable {α ε : Type} (aether : Aether α ε) (app : AppClass α ε)

/-- The Shares of a topology that end at an endpoint. -/
def sharesOfEndpoint (shares : List Share) (endpointUid : Bytes) : List Share :=
  shares.filter fun share => decide (shareEndpoint share = some endpointUid)

/-- The expectation checks at the head of `ImportValidatedNode`: the class the
source endpoint has to send, if it has an expectation. -/
def expectedClassOf (runtime : SharedSyncRuntime α ε) (sourceEndpoint : Bytes)
    (targetNodeId : ObjId) : Option (Option ClassId) :=
  match expectationOf runtime.expectedEndpointNodes sourceEndpoint with
  | none =>
      if targetNodeId ∈ runtime.expectedInitialNodes then some none else none
  | some expectation =>
      if expectation.expectedNodeId.isValid &&
          decide (targetNodeId ≠ expectation.expectedNodeId) then
        none
      else
        some (some expectation.expectedRootClassId)

/-- The root of the payload is present, is a SharedNode, and is of the class the
source endpoint has to send. -/
def rootClassIsExpected (chains : List StoredClassChainInfo) (targetNodeId : ObjId)
    (expectedClass : Option ClassId) : Bool :=
  match chains.find? fun info => decide (info.objId = targetNodeId) with
  | none => false
  | some root =>
      aether.derives aether.sharedNodeClassId root.mostDerivedClassId &&
        match expectedClass with
        | none => true
        | some classId => decide (root.mostDerivedClassId = classId)

/-- What the validation in the scratch Domain leaves behind: the parsed graph,
which that Domain stores into, and the Share of the sender. -/
structure ValidatedSnapshot where
  graph : RamDomainStorage
  sourceShareId : ObjId

/-- The part of `ImportValidatedNode` inside the scratch Domain.  The Domain is
built over `parsed` itself, so what the replay stores ends up in it. -/
def validateInScratch (ids : Nat → ObjId) (parsed : RamDomainStorage)
    (localEndpoint sourceEndpoint : Bytes) (frame : NodeStateFrame) :
    Except Fault (Option ValidatedSnapshot) := do
  match ← loadSharedNode aether (parsed.find aether) frame.targetNodeId with
  | none => pure none
  | some candidate =>
      if !aether.derives aether.sharedNodeClassId candidate.classId then
        pure none
      else do
        let (replayed, admissible) ← snapshotIsAdmissible aether app ids candidate
          localEndpoint sourceEndpoint frame.destinationShareId
        if !admissible then
          pure none
        else
          match sharesOfEndpoint replayed.fields.shares sourceEndpoint with
          | [share] =>
              if !share.shareId.isValid then
                pure none
              else do
                let index ←
                  findLinkSyncIndexForShare replayed.fields.linkSyncStates share.shareId
                if index < replayed.fields.linkSyncStates.length then
                  pure (some ⟨storeObjects aether parsed
                    (createdObjects aether replayed.fields.created), share.shareId⟩)
                else
                  pure none
          | _ => pure none

/-- `ImportValidatedNode` up to the collision check: the graph to commit. -/
def validateSnapshot (env : StepEnv) (replica : Replica α ε) (sourceEndpoint : Bytes)
    (frame : NodeStateFrame) : Except Fault (Option ValidatedSnapshot) :=
  match expectedClassOf replica.runtime sourceEndpoint frame.targetNodeId with
  | none => .ok none
  | some expectedClass =>
      match deserializeObjectGraph aether frame.payload with
      | none => .ok none
      | some parsed =>
          match validateStoredClassChains aether parsed with
          | none => .ok none
          | some chains =>
              if !rootClassIsExpected aether chains frame.targetNodeId expectedClass then
                .ok none
              else
                validateInScratch aether app env.scratch.ids parsed
                  replica.runtime.localEndpoint sourceEndpoint frame

/-- Some object of the graph exists at the receiver already. -/
def collidesWithReceiver (replica : Replica α ε) (graph : RamDomainStorage) : Bool :=
  graph.live.any fun object =>
    occupiedAtReceiver aether app replica.others replica.runtime.nodes
      replica.storage object.1

/-- Load an admitted Node from production storage and replay it there. -/
def loadAdmittedNode (env : StepEnv) (replica : Replica α ε)
    (graph : RamDomainStorage) (nodeId : ObjId) : Except Fault (SharedNode α ε) := do
  let storage := replica.storage.perform (.commitObjectGraph graph)
  match ← loadSharedNode aether
      (productionFind aether app replica.others replica.runtime.nodes storage)
      nodeId with
  | none => .error .assertFailed
  | some node => replayFromBase (app.nodeClass env.ids) node

/-- `ImportedNode`. -/
structure ImportedNode (α ε : Type) where
  node : SharedNode α ε
  sourceShareId : ObjId

/-- Store the base snapshots of new local sync states. -/
def storeCreated (created : List CreatedLinkSyncState) : RuntimeM α ε Unit :=
  ⟨(createdObjects aether created).map fun object =>
    .storeObject object.1 (aether.saveObject object.2), .ok ()⟩

/-- `ImportValidatedNode`. -/
def importValidatedNode (env : StepEnv) (replica : Replica α ε)
    (sourceEndpoint : Bytes) (frame : NodeStateFrame) :
    RuntimeM α ε (Option (ImportedNode α ε)) := do
  match ← pureStep (validateSnapshot aether app env replica sourceEndpoint frame) with
  | none => pure none
  | some snapshot =>
      if collidesWithReceiver aether app replica snapshot.graph then
        pure none
      else do
        perform (.commitObjectGraph snapshot.graph)
        let node ← pureStep
          (loadAdmittedNode aether app env replica snapshot.graph frame.targetNodeId)
        storeCreated aether node.fields.created
        pure (some ⟨node, snapshot.sourceShareId⟩)

end Import

section NodeState

variable {α ε : Type} (aether : Aether α ε) (app : AppClass α ε)

/-- Mark the Share of the sender Complete with the identities the imported
journal covers. -/
def completeSourceState (env : StepEnv) (node : SharedNode α ε) (sourceShareId : ObjId) :
    Except Fault (SharedNode α ε × Nat) := do
  let index ← findLinkSyncIndexForShare node.fields.linkSyncStates sourceShareId
  assertThat (decide (index < node.fields.linkSyncStates.length))
  let completed ← commitLinkSyncEvent node index env.eventId
    (.completeFromReceivedSnapshot (sharedIdentities node.journal))
  pure (completed, index)

/-- The sync state of the destination Share, which has to exist. -/
def destinationState (node : SharedNode α ε) (destinationShareId : ObjId) :
    Except Fault (Nat × LinkSyncState) := do
  let index ← findLinkSyncIndexForShare node.fields.linkSyncStates destinationShareId
  assertThat (decide (index < node.fields.linkSyncStates.length))
  let state ← linkSyncStateAt node index
  pure (index, state)

/-- The end of `OnNodeState`: while an expectation of the source endpoint is
open, the binding callback decides whether the frame is acknowledged. -/
def bindAndAcknowledge (env : StepEnv) (runtime : SharedSyncRuntime α ε)
    (node : SharedNode α ε) (sourceEndpoint : Bytes) (frame : NodeStateFrame) :
    RuntimeM α ε (SharedSyncRuntime α ε) :=
  match expectationOf runtime.expectedEndpointNodes sourceEndpoint with
  | none => do
      sendAck sourceEndpoint frame.packetId frame.targetNodeId frame.destinationShareId
      pure runtime
  | some expectation =>
      if !runtime.callbackInstalled then
        pure runtime
      else do
        perform (.bindNode sourceEndpoint node env.bound)
        if !env.bound then
          pure runtime
        else do
          sendAck sourceEndpoint frame.packetId frame.targetNodeId
            frame.destinationShareId
          pure { runtime with
            expectedEndpointNodes := runtime.expectedEndpointNodes.erase expectation }

/-- `OnNodeState` for a Node this replica has: only the initial packet that was
already recorded is accepted again. -/
def onNodeStateOfKnownNode (env : StepEnv) (runtime : SharedSyncRuntime α ε)
    (node : SharedNode α ε) (sourceEndpoint : Bytes) (frame : NodeStateFrame) :
    RuntimeM α ε (SharedSyncRuntime α ε) :=
  if !addressedToThisReplica node.fields.shares runtime.localEndpoint sourceEndpoint
      frame.destinationShareId then
    pure runtime
  else do
    let (_, state) ← pureStep (destinationState node frame.destinationShareId)
    if state.receivedInitialPacketId ≠ frame.packetId then
      pure runtime
    else
      bindAndAcknowledge env runtime node sourceEndpoint frame

/-- `OnNodeState` for a Node that `ImportValidatedNode` returned. -/
def onNodeStateOfImportedNode (env : StepEnv) (runtime : SharedSyncRuntime α ε)
    (imported : ImportedNode α ε) (sourceEndpoint : Bytes) (frame : NodeStateFrame) :
    RuntimeM α ε (SharedSyncRuntime α ε) := do
  pureStep (assertThat imported.sourceShareId.isValid)
  let (node, sourceIndex) ←
    pureStep (completeSourceState env imported.node imported.sourceShareId)
  match node.fields.linkSyncStates[sourceIndex]? with
  | none => EffectLog.fault .nullDeref
  | some sourceState => do
      perform (.saveLinkSyncState node.objId sourceState)
      let (index, state) ← pureStep (destinationState node frame.destinationShareId)
      if state.receivedInitialPacketId ≠ frame.packetId then
        if state.receivedInitialPacketId.isValid then
          pure runtime
        else do
          pureStep (assertThat frame.packetId.isValid)
          let noted ← pureStep (commitLinkSyncEvent node index env.eventId
            (.noteInitialSyncReceived frame.packetId))
          perform (.saveNode noted)
          bindAndAcknowledge env { runtime with nodes := runtime.nodes ++ [noted] }
            noted sourceEndpoint frame
      else
        bindAndAcknowledge env { runtime with nodes := runtime.nodes ++ [node] }
          node sourceEndpoint frame

/-- `OnNodeState`. -/
def onNodeState (env : StepEnv) (replica : Replica α ε) (sourceEndpoint : Bytes)
    (frame : NodeStateFrame) : RuntimeM α ε (SharedSyncRuntime α ε) :=
  match findNode replica.runtime.nodes frame.targetNodeId with
  | some node => onNodeStateOfKnownNode env replica.runtime node sourceEndpoint frame
  | none => do
      match ← importValidatedNode aether app env replica sourceEndpoint frame with
      | none => pure replica.runtime
      | some imported =>
          onNodeStateOfImportedNode env replica.runtime imported sourceEndpoint frame

end NodeState

section AckAndEvent

variable {α ε : Type} (aether : Aether α ε) (app : AppClass α ε)

/-- Commit an Event on a local sync state and save the Node. -/
def completeSync (runtime : SharedSyncRuntime α ε) (node : SharedNode α ε) (index : Nat)
    (eventId : ObjId) (event : LinkSyncEvent) :
    RuntimeM α ε (SharedSyncRuntime α ε) := do
  let committed ← pureStep (commitLinkSyncEvent node index eventId event)
  perform (.saveNode committed)
  pure { runtime with nodes := replaceNode runtime.nodes committed }

/-- `OnAck`: only the endpoint the relationship points at can acknowledge it. -/
def onAck (env : StepEnv) (runtime : SharedSyncRuntime α ε) (sourceEndpoint : Bytes)
    (frame : AckFrame) : RuntimeM α ε (SharedSyncRuntime α ε) :=
  match findNode runtime.nodes frame.targetNodeId with
  | none => pure runtime
  | some node =>
      if shareEndpointOf node.fields.shares frame.destinationShareId ≠
          some sourceEndpoint then
        pure runtime
      else do
        let index ← pureStep (findLinkSyncIndexForShare node.fields.linkSyncStates
          frame.destinationShareId)
        if node.fields.linkSyncStates.length ≤ index then
          pure runtime
        else do
          let state ← pureStep (linkSyncStateAt node index)
          if state.initialSyncPhase = .pending ∧
              state.pendingInitialPacketId = frame.packetId then
            completeSync runtime node index env.eventId .completeInitialSync
          else if state.initialSyncPhase = .complete ∧
              state.pendingEventPacketId = frame.packetId then
            completeSync runtime node index env.eventId .completeIncrementalEventSync
          else
            pure runtime

/-- The scratch checks of `OnEvent` that precede the journal lookup. -/
def eventIsWellFormed (node : SharedNode α ε) (frame : EventFrame) :
    Except Fault (Option (RamDomainStorage × ObjId)) :=
  match parseEventPayload aether frame.payload with
  | none => .ok none
  | some (parsed, wireRootId) =>
      if !validateStandaloneEventGraph aether parsed wireRootId frame.eventClassId then
        .ok none
      else
        match parsed.find aether wireRootId with
        | none => .ok none
        | some object =>
            match object.body with
            | .event event =>
                if object.classId ≠ frame.eventClassId ∨
                    !aether.derives (aether.targetClassId app event) node.classId then
                  .ok none
                else
                  .ok (some (parsed, wireRootId))
            | _ => .error .badCast

/-- A record of the journal is the Event of the frame. -/
def isSameRecord (record : EventRecord (SharedNodeEvent ε)) (frame : EventFrame) :
    Bool :=
  decide (record.order.timestampUs = frame.timestampUs) && record.event.isValid &&
    match record.event.obj with
    | none => false
    | some event =>
        decide (aether.classIdOfEvent app event = frame.eventClassId) &&
          sameEventPayload aether app record.event.id event frame.payload

/-- `OnEvent`. -/
def onEvent (env : StepEnv) (replica : Replica α ε) (sourceEndpoint : Bytes)
    (frame : EventFrame) : RuntimeM α ε (SharedSyncRuntime α ε) :=
  let runtime := replica.runtime
  match findNode runtime.nodes frame.targetNodeId with
  | none => pure runtime
  | some node =>
      if !eventAddressedToThisReplica node.fields.shares runtime.localEndpoint
          sourceEndpoint frame.destinationShareId then
        pure runtime
      else if frame.eventClassId ∉ runtime.standaloneEventClasses then
        pure runtime
      else do
        match ← pureStep (eventIsWellFormed aether app node frame) with
        | none => pure runtime
        | some (parsed, wireRootId) =>
            match findSharedEvent node frame.identity with
            | some existing =>
                if isSameRecord aether app existing frame then do
                  sendAck sourceEndpoint frame.packetId frame.targetNodeId
                    frame.destinationShareId
                  pure runtime
                else
                  pure runtime
            | none => do
                if ← pureStep (preflightHistoricalEventInsertion aether app env.scratch
                    env.nowUs node parsed wireRootId frame.eventClassId frame.identity
                    frame.timestampUs) then
                  match ← pureStep (importStandaloneEventGraph aether parsed wireRootId
                      frame.eventClassId env.generated
                      (occupiedAtReceiver aether app replica.others runtime.nodes
                        replica.storage)
                      (productionFind aether app replica.others runtime.nodes
                        replica.storage)) with
                  | none => pure runtime
                  | some localEvent => do
                      perform (.storeObject localEvent.id localEvent.layers)
                      let inserted ← pureStep (commitShared (app.nodeClass env.ids) node
                        ⟨localEvent.id, some localEvent.event⟩ frame.identity
                        ⟨frame.timestampUs⟩ env.nowUs)
                      perform (.saveNode inserted)
                      sendAck sourceEndpoint frame.packetId frame.targetNodeId
                        frame.destinationShareId
                      pure { runtime with nodes := replaceNode runtime.nodes inserted }
                else
                  pure runtime

/-- `OnBytes`. -/
def onBytes (env : StepEnv) (replica : Replica α ε) (sourceEndpoint : Bytes)
    (bytes : Bytes) : RuntimeM α ε (SharedSyncRuntime α ε) :=
  match peekSyncFrameType bytes with
  | none => pure replica.runtime
  | some .nodeState =>
      match decodeNodeStateFrame bytes with
      | none => pure replica.runtime
      | some frame => onNodeState aether app env replica sourceEndpoint frame
  | some .ack =>
      match decodeAckFrame bytes with
      | none => pure replica.runtime
      | some frame => onAck env replica.runtime sourceEndpoint frame
  | some .event =>
      match decodeEventFrame (aether.derives aether.eventClassId) bytes with
      | none => pure replica.runtime
      | some frame => onEvent aether app env replica sourceEndpoint frame

end AckAndEvent

end AppTraverse
