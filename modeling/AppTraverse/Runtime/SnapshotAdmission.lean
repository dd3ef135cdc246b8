import AppTraverse.Storage.EventPayload

/-!
# Admission of an untrusted snapshot

The predicates at the head of `shared_sync_runtime.cpp`: where a frame is
addressed, and whether a candidate loaded in a scratch Domain may become a
production object.
-/

namespace AppTraverse

/-- `ShareEndpoint`: nothing when the descriptor is not in the graph. -/
def shareEndpoint (share : Share) : Option Bytes :=
  if !share.link.isValid then none else share.link.obj.map Link.endpointUid

/-- `ShareEndpointOf`. -/
def shareEndpointOf (shares : List Share) (shareId : ObjId) : Option Bytes :=
  shares[findShareIndexForShare shares shareId]?.bind shareEndpoint

/-- `TopologyKnowsEndpoint`. -/
def topologyKnowsEndpoint (shares : List Share) (endpointUid : Bytes) : Bool :=
  shares.any fun share => decide (shareEndpoint share = some endpointUid)

/-- `AddressedToThisReplica`. -/
def addressedToThisReplica (shares : List Share)
    (localEndpoint sourceEndpoint : Bytes) (destinationShareId : ObjId) : Bool :=
  decide (sourceEndpoint ≠ localEndpoint) &&
    decide (shareEndpointOf shares destinationShareId = some localEndpoint) &&
    topologyKnowsEndpoint shares sourceEndpoint

/-- `ShareOfEndpoint`. -/
def shareOfEndpoint (shares : List Share) (endpointUid : Bytes) : Option Share :=
  shares.find? fun share => decide (shareEndpoint share = some endpointUid)

/-- `EventAddressedToThisReplica`: the sender has to be a ReadWrite participant. -/
def eventAddressedToThisReplica (shares : List Share)
    (localEndpoint sourceEndpoint : Bytes) (destinationShareId : ObjId) : Bool :=
  decide (sourceEndpoint ≠ localEndpoint) &&
    decide (shareEndpointOf shares destinationShareId = some localEndpoint) &&
    match shareOfEndpoint shares sourceEndpoint with
    | none => false
    | some source => decide (source.access = ShareAccess.readWrite)

section Snapshot

variable {α ε : Type} (aether : Aether α ε) (app : AppClass α ε)

/-- What `SnapshotIsAdmissible` asks of one journal record before the replay. -/
def recordIsAdmissible (classId : ClassId)
    (record : EventRecord (SharedNodeEvent ε)) : Bool :=
  record.event.isValid &&
    match record.event.obj with
    | none => false
    | some event =>
        aether.derives (aether.targetClassId app event) classId &&
          decide (record.order.timestampUs ≠ 0)

/-- What `SnapshotIsAdmissible` asks before the replay. -/
def admissibleBeforeReplay (candidate : SharedNode α ε) : Bool :=
  candidate.base.isValid && candidate.base.isLoaded &&
    candidate.journal.all (recordIsAdmissible aether app candidate.classId)

/-- What `SnapshotIsAdmissible` asks of the replayed shares. -/
def sharesAreAdmissible (shares : List Share) : Bool :=
  shares.zipIdx.all fun entry =>
    entry.1.shareId.isValid &&
      decide (findShareIndexForShare shares entry.1.shareId = entry.2) &&
      match shareEndpoint entry.1 with
      | none => false
      | some endpoint => !endpoint.isEmpty

/-- `SnapshotIsAdmissible`, with the candidate as the replay left it. -/
def snapshotIsAdmissible (ids : Nat → ObjId) (candidate : SharedNode α ε)
    (localEndpoint sourceEndpoint : Bytes) (destinationShareId : ObjId) :
    Except Fault (SharedNode α ε × Bool) :=
  if !admissibleBeforeReplay aether app candidate then
    .ok (candidate, false)
  else do
    let (replayed, ok) ← tryRebuildFromBaseAndReplay (app.nodeClass ids) candidate
    if !ok then
      pure (replayed, false)
    else if !sharesAreAdmissible replayed.fields.shares then
      pure (replayed, false)
    else
      pure (replayed, addressedToThisReplica replayed.fields.shares localEndpoint
        sourceEndpoint destinationShareId)

end Snapshot

end AppTraverse
