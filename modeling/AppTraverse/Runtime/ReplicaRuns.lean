import AppTraverse.Foundations.TransitionSystem
import AppTraverse.Runtime.Reception
import AppTraverse.Sharing.NodeOperations

/-!
# Runs of a replica

A replica takes one operation after another: it receives bytes, drives a
synchronization, changes a Node of its own, saves a Node, or restarts from what was
saved.  An operation that stops at a fault ends the run.
-/

namespace AppTraverse

open Foundations

/-- One operation on a replica. -/
inductive ReplicaAction (ε : Type) where
  | receive (env : StepEnv) (sourceEndpoint bytes : Bytes)
  | syncInitialState (env : StepEnv) (nodeId shareId : ObjId)
  | syncNextEvent (env : StepEnv) (nodeId shareId : ObjId)
  | operate (ids : Nat → ObjId) (nowUs : UInt64) (nodeId : ObjId)
      (operation : NodeOperation ε)
  | saveNode (nodeId : ObjId)
  | restart

section Actions

variable {α ε : Type} (aether : Aether α ε) (app : AppClass α ε)

/-- A Node as it is loaded from storage: the members that are not reflected have
their defaults. -/
def reloadedNode (node : SharedNode α ε) : SharedNode α ε :=
  { node with
    appliedJournalSize := none
    generation := 1
    journalRetentionPolicy := {}
    journalCompactionBlocked := false }

/-- The runtime of a replica that was started again.  The application sets it up as
before and registers the Nodes it finds in storage. -/
def restartedRuntime (replica : Replica α ε) : SharedSyncRuntime α ε where
  localEndpoint := replica.runtime.localEndpoint
  nodes := replica.storage.nodes.map reloadedNode
  callbackInstalled := replica.runtime.callbackInstalled
  standaloneEventClasses := replica.runtime.standaloneEventClasses

/-- What an action does. -/
def ReplicaAction.outcome (replica : Replica α ε) :
    ReplicaAction ε → RuntimeM α ε (SharedSyncRuntime α ε)
  | .receive env sourceEndpoint bytes => onBytes aether app env replica sourceEndpoint bytes
  | .syncInitialState env nodeId shareId =>
      AppTraverse.syncInitialState aether app env replica.runtime nodeId shareId
  | .syncNextEvent env nodeId shareId =>
      AppTraverse.syncNextEvent aether app env replica.runtime nodeId shareId
  | .operate ids nowUs nodeId operation =>
      match findNode replica.runtime.nodes nodeId with
      | none => EffectLog.fault .nullDeref
      | some node => do
          let changed ← pureStep (operation.run app ids nowUs node)
          pure { replica.runtime with
            nodes := replaceNode replica.runtime.nodes changed }
  | .saveNode nodeId =>
      match findNode replica.runtime.nodes nodeId with
      | none => EffectLog.fault .nullDeref
      | some node => do
          perform (.saveNode node)
          pure replica.runtime
  | .restart => pure (restartedRuntime replica)

/-- The objects that no registered Node reaches are gone after a restart. -/
def ReplicaAction.others (replica : Replica α ε) :
    ReplicaAction ε → List (ObjId × StoredObject α ε)
  | .restart => []
  | _ => replica.others

/-- One step of a replica. -/
def replicaStep (replica : Replica α ε) (action : ReplicaAction ε) :
    Option (Replica α ε) :=
  match (action.outcome aether app replica).result with
  | .error _ => none
  | .ok runtime =>
      some { replica.after (action.outcome aether app replica).effects runtime with
        others := action.others replica }

variable {aether app}

/-- A step is an operation that returned. -/
theorem replicaStep_eq_some_iff {replica next : Replica α ε} {action : ReplicaAction ε} :
    replicaStep aether app replica action = some next ↔
      ∃ runtime, (action.outcome aether app replica).result = .ok runtime ∧
        next = { replica.after (action.outcome aether app replica).effects runtime with
          others := action.others replica } := by
  unfold replicaStep
  cases hresult : (action.outcome aether app replica).result with
  | error reason => simp
  | ok runtime => simp [eq_comm]

end Actions

end AppTraverse
