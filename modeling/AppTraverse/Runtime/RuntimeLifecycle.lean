import AppTraverse.Foundations.TransitionSystem
import AppTraverse.Journal.AssertingNode

/-!
# The lifecycle Nodes of a process

`runtime_lifecycle.h`: three Nodes say what a process knows of itself, of its network and of its
registration.  They are persisted each for itself, so that at the start of a process any three
states of them can meet.  `BeginRuntimeSession` puts a new run id into all three.

An availability and a phase are kept as the byte that is serialized.
-/

namespace AppTraverse

open Foundations

/-- `NetworkAvailability`. -/
inductive NetworkAvailability where
  | initializing
  | interfaceUnavailable
  | internetUnavailable
  | available
  deriving DecidableEq, Repr

def NetworkAvailability.raw : NetworkAvailability → UInt8
  | .initializing => 0
  | .interfaceUnavailable => 1
  | .internetUnavailable => 2
  | .available => 3

/-- `AetherRegistrationPhase`. -/
inductive AetherRegistrationPhase where
  | registering
  | registered
  deriving DecidableEq, Repr

def AetherRegistrationPhase.raw : AetherRegistrationPhase → UInt8
  | .registering => 0
  | .registered => 1

/-- The fields of `ApplicationRuntimeState`. -/
structure ApplicationRuntimeFields where
  runId : UInt64 := 0
  deriving DecidableEq, Repr

/-- The fields of `NetworkState`. -/
structure NetworkFields where
  runId : UInt64 := 0
  availability : UInt8 := NetworkAvailability.initializing.raw
  deriving DecidableEq, Repr

/-- The fields of `AetherRegistrationState`. -/
structure AetherRegistrationFields where
  runId : UInt64 := 0
  registeredRunId : UInt64 := 0
  phase : UInt8 := AetherRegistrationPhase.registering.raw
  uid : Bytes := []
  deriving DecidableEq, Repr

namespace AetherRegistrationFields

/-- `IsRegisteredForCurrentRun`. -/
def isRegisteredForCurrentRun (fields : AetherRegistrationFields) : Bool :=
  decide (fields.phase = AetherRegistrationPhase.registered.raw) &&
    decide (fields.registeredRunId = fields.runId) && !fields.uid.isEmpty

/-- `CurrentUid`. -/
def currentUid (fields : AetherRegistrationFields) : Bytes :=
  if !fields.isRegisteredForCurrentRun then [] else fields.uid

end AetherRegistrationFields

/-- `ApplicationStartedEvent`. -/
structure ApplicationStartedEvent where
  runId : UInt64
  deriving DecidableEq, Repr

/-- The Events of `NetworkState`, which differ in the availability that they bring. -/
structure NetworkEvent where
  brings : NetworkAvailability
  runId : UInt64
  deriving DecidableEq, Repr

/-- The Events of `AetherRegistrationState`. -/
inductive AetherRegistrationEvent where
  | started (runId : UInt64)
  | completed (runId : UInt64) (uid : Bytes)
  deriving DecidableEq, Repr

/-- `ApplicationRuntimeState::CanApply` and `Apply`. -/
def applicationRuntime : PlainClass ApplicationRuntimeFields ApplicationStartedEvent where
  canApply fields event := decide (event.runId ≠ 0) && decide (event.runId ≠ fields.runId)
  apply _ event := { runId := event.runId }

/-- `NetworkState::CanApply` and `Apply`.  `NetworkInitializingEvent` is the one that brings a
run id; the other three have to carry the one that is there. -/
def network : PlainClass NetworkFields NetworkEvent where
  canApply fields event :=
    match event.brings with
    | .initializing =>
        decide (event.runId ≠ 0) &&
          (decide (event.runId ≠ fields.runId) ||
            decide (fields.availability ≠ NetworkAvailability.initializing.raw))
    | availability =>
        decide (event.runId ≠ 0) && decide (event.runId = fields.runId) &&
          decide (fields.availability ≠ availability.raw)
  apply fields event :=
    match event.brings with
    | .initializing =>
        { runId := event.runId, availability := NetworkAvailability.initializing.raw }
    | availability => { fields with availability := availability.raw }

/-- `AetherRegistrationState::CanApply` and `Apply`. -/
def aetherRegistration : PlainClass AetherRegistrationFields AetherRegistrationEvent where
  canApply fields
    | .started runId =>
        decide (runId ≠ 0) &&
          (decide (runId ≠ fields.runId) ||
            decide (fields.phase ≠ AetherRegistrationPhase.registering.raw))
    | .completed runId uid =>
        if uid.isEmpty then
          false
        else if fields.runId ≠ 0 ∧ runId ≠ 0 ∧ runId ≠ fields.runId then
          false
        else
          !fields.isRegisteredForCurrentRun || decide (fields.uid ≠ uid)
  apply fields
    | .started runId =>
        { fields with runId := runId, phase := AetherRegistrationPhase.registering.raw }
    | .completed runId uid =>
        { runId := if fields.runId = 0 then runId else fields.runId
          registeredRunId := runId
          uid := uid
          phase := AetherRegistrationPhase.registered.raw }

/-- The three Nodes. -/
structure LifecycleNodes where
  runtime : Node ApplicationRuntimeFields ApplicationRuntimeFields ApplicationStartedEvent
  network : Node NetworkFields NetworkFields NetworkEvent
  aether : Node AetherRegistrationFields AetherRegistrationFields AetherRegistrationEvent
  deriving DecidableEq

section Commits

variable (creation : EventCreation)

/-- `CommitApplicationStarted`. -/
def commitApplicationStarted
    (runtime : Node ApplicationRuntimeFields ApplicationRuntimeFields ApplicationStartedEvent)
    (runId : UInt64) :=
  commitIfApplicable applicationRuntime runtime creation ⟨runId⟩

/-- `CommitNetworkInitializing`, `CommitNetworkInterfaceUnavailable`,
`CommitInternetUnavailable` and `CommitNetworkAvailable`. -/
def commitNetworkEvent (brings : NetworkAvailability)
    (node : Node NetworkFields NetworkFields NetworkEvent) (runId : UInt64) :=
  commitIfApplicable network node creation ⟨brings, runId⟩

@[inherit_doc commitNetworkEvent]
def commitNetworkInitializing := commitNetworkEvent creation .initializing

@[inherit_doc commitNetworkEvent]
def commitNetworkInterfaceUnavailable := commitNetworkEvent creation .interfaceUnavailable

@[inherit_doc commitNetworkEvent]
def commitInternetUnavailable := commitNetworkEvent creation .internetUnavailable

@[inherit_doc commitNetworkEvent]
def commitNetworkAvailable := commitNetworkEvent creation .available

/-- `CommitAetherRegistrationStarted`. -/
def commitAetherRegistrationStarted
    (aether : Node AetherRegistrationFields AetherRegistrationFields AetherRegistrationEvent)
    (runId : UInt64) :=
  commitIfApplicable aetherRegistration aether creation (.started runId)

/-- `CommitAetherRegistrationCompleted`. -/
def commitAetherRegistrationCompleted
    (aether : Node AetherRegistrationFields AetherRegistrationFields AetherRegistrationEvent)
    (uid : Bytes) :=
  if uid.isEmpty then
    .ok (aether, false)
  else
    commitIfApplicable aetherRegistration aether creation (.completed aether.fields.runId uid)

end Commits

/-- A call of one of the `Commit*` functions. -/
inductive LifecycleCall where
  | applicationStarted (runId : UInt64)
  | networkInitializing (runId : UInt64)
  | networkInterfaceUnavailable (runId : UInt64)
  | internetUnavailable (runId : UInt64)
  | networkAvailable (runId : UInt64)
  | aetherRegistrationStarted (runId : UInt64)
  | aetherRegistrationCompleted (uid : Bytes)
  deriving DecidableEq, Repr

namespace LifecycleNodes

variable (nodes : LifecycleNodes)

/-- One call, and its answer. -/
def perform (creation : EventCreation) : LifecycleCall → Except Fault (LifecycleNodes × Bool)
  | .applicationStarted runId => do
      let (runtime, answer) ← commitApplicationStarted creation nodes.runtime runId
      pure ({ nodes with runtime := runtime }, answer)
  | .networkInitializing runId => do
      let (network, answer) ← commitNetworkInitializing creation nodes.network runId
      pure ({ nodes with network := network }, answer)
  | .networkInterfaceUnavailable runId => do
      let (network, answer) ← commitNetworkInterfaceUnavailable creation nodes.network runId
      pure ({ nodes with network := network }, answer)
  | .internetUnavailable runId => do
      let (network, answer) ← commitInternetUnavailable creation nodes.network runId
      pure ({ nodes with network := network }, answer)
  | .networkAvailable runId => do
      let (network, answer) ← commitNetworkAvailable creation nodes.network runId
      pure ({ nodes with network := network }, answer)
  | .aetherRegistrationStarted runId => do
      let (aether, answer) ← commitAetherRegistrationStarted creation nodes.aether runId
      pure ({ nodes with aether := aether }, answer)
  | .aetherRegistrationCompleted uid => do
      let (aether, answer) ← commitAetherRegistrationCompleted creation nodes.aether uid
      pure ({ nodes with aether := aether }, answer)

/-- The run id that `BeginRuntimeSession` chooses. -/
def nextRunId : UInt64 :=
  if nodes.runtime.fields.runId + 1 = 0 then 1 else nodes.runtime.fields.runId + 1

/-- `BeginRuntimeSession`.  The answers of its three calls are ignored. -/
def beginRuntimeSession (first second third : EventCreation) : Except Fault LifecycleNodes := do
  let run := nodes.nextRunId
  let (nodes, _) ← nodes.perform first (.applicationStarted run)
  let (nodes, _) ← nodes.perform second (.networkInitializing run)
  let (nodes, _) ← nodes.perform third (.aetherRegistrationStarted run)
  pure nodes

end LifecycleNodes

/-- The fields of the three Nodes. -/
structure LifecycleFields where
  runtime : ApplicationRuntimeFields
  network : NetworkFields
  aether : AetherRegistrationFields
  deriving DecidableEq, Repr

def LifecycleNodes.fields (nodes : LifecycleNodes) : LifecycleFields :=
  ⟨nodes.runtime.fields, nodes.network.fields, nodes.aether.fields⟩

namespace LifecycleFields

variable (fields : LifecycleFields)

/-- The call finds something to change. -/
def admits : LifecycleCall → Bool
  | .applicationStarted runId => applicationRuntime.canApply fields.runtime ⟨runId⟩
  | .networkInitializing runId =>
      AppTraverse.network.canApply fields.network ⟨.initializing, runId⟩
  | .networkInterfaceUnavailable runId =>
      AppTraverse.network.canApply fields.network ⟨.interfaceUnavailable, runId⟩
  | .internetUnavailable runId =>
      AppTraverse.network.canApply fields.network ⟨.internetUnavailable, runId⟩
  | .networkAvailable runId =>
      AppTraverse.network.canApply fields.network ⟨.available, runId⟩
  | .aetherRegistrationStarted runId =>
      aetherRegistration.canApply fields.aether (.started runId)
  | .aetherRegistrationCompleted uid =>
      aetherRegistration.canApply fields.aether (.completed fields.aether.runId uid)

/-- What the call changes. -/
def changed : LifecycleCall → LifecycleFields
  | .applicationStarted runId =>
      { fields with runtime := applicationRuntime.apply fields.runtime ⟨runId⟩ }
  | .networkInitializing runId =>
      { fields with
        network := AppTraverse.network.apply fields.network ⟨.initializing, runId⟩ }
  | .networkInterfaceUnavailable runId =>
      { fields with
        network := AppTraverse.network.apply fields.network ⟨.interfaceUnavailable, runId⟩ }
  | .internetUnavailable runId =>
      { fields with
        network := AppTraverse.network.apply fields.network ⟨.internetUnavailable, runId⟩ }
  | .networkAvailable runId =>
      { fields with
        network := AppTraverse.network.apply fields.network ⟨.available, runId⟩ }
  | .aetherRegistrationStarted runId =>
      { fields with aether := aetherRegistration.apply fields.aether (.started runId) }
  | .aetherRegistrationCompleted uid =>
      { fields with
        aether := aetherRegistration.apply fields.aether (.completed fields.aether.runId uid) }

end LifecycleFields

/-- The Nodes are in memory.  Their fields are any. -/
structure LifecycleNodes.IsLoaded (nodes : LifecycleNodes) : Prop where
  runtime : nodes.runtime.IsOpen
  network : nodes.network.IsOpen
  aether : nodes.aether.IsOpen

/-- The timestamp that a call would commit with. -/
def LifecycleNodes.timestamp (nodes : LifecycleNodes) (clockUs : UInt64) :
    LifecycleCall → UInt64
  | .applicationStarted _ => commitTimestamp nodes.runtime.journal clockUs
  | .aetherRegistrationStarted _ => commitTimestamp nodes.aether.journal clockUs
  | .aetherRegistrationCompleted _ => commitTimestamp nodes.aether.journal clockUs
  | _ => commitTimestamp nodes.network.journal clockUs

/-- What a call that returns did. -/
structure Performed (nodes : LifecycleNodes) (call : LifecycleCall) (after : LifecycleNodes)
    (answer : Bool) : Prop where
  loaded : after.IsLoaded
  answered : answer = nodes.fields.admits call
  fields : after.fields = if answer then nodes.fields.changed call else nodes.fields
  unchanged : answer = false ↔ after = nodes

/-- An answer of `false` is no change. -/
theorem performed_false {nodes : LifecycleNodes} {call : LifecycleCall} (h : nodes.IsLoaded)
    (hcan : nodes.fields.admits call = false) : Performed nodes call nodes false where
  loaded := h
  answered := hcan.symm
  fields := rfl
  unchanged := ⟨fun _ => rfl, fun _ => rfl⟩

/-- An answer of `true` is a longer journal. -/
theorem performed_true {nodes after : LifecycleNodes} {call : LifecycleCall}
    (h : after.IsLoaded) (hcan : nodes.fields.admits call = true)
    (hfields : after.fields = nodes.fields.changed call)
    (hgrown : after.runtime.journal.length + after.network.journal.length +
      after.aether.journal.length = nodes.runtime.journal.length +
        nodes.network.journal.length + nodes.aether.journal.length + 1) :
    Performed nodes call after true where
  loaded := h
  answered := hcan.symm
  fields := hfields
  unchanged := by
    constructor
    · intro hanswer
      cases hanswer
    · intro hsame
      rw [hsame] at hgrown
      omega

section Calls

variable {nodes after : LifecycleNodes} {creation : EventCreation} {call : LifecycleCall}
  {answer : Bool}

/-- A call that commits to the network Node. -/
theorem performed_network {event : NetworkEvent} {node : Node NetworkFields NetworkFields
      NetworkEvent} (h : nodes.IsLoaded)
    (hrun : commitIfApplicable network nodes.network creation event = .ok (node, answer))
    (hadmits : nodes.fields.admits call = network.canApply nodes.network.fields event)
    (hchanged : nodes.fields.changed call =
      { nodes.fields with network := network.apply nodes.network.fields event }) :
    Performed nodes call { nodes with network := node } answer := by
  rcases h.network.commitIfApplicable_cases hrun with ⟨rfl, hcan, rfl⟩ | ⟨rfl, hcan, hdone⟩
  · exact performed_false h (hadmits.trans hcan)
  · apply performed_true _ (hadmits.trans hcan)
    · rw [hchanged, ← hdone.fields]
      rfl
    · have hgrown := hdone.grown
      show nodes.runtime.journal.length + node.journal.length + nodes.aether.journal.length = _
      omega
    · exact ⟨h.runtime, hdone.isOpen, h.aether⟩

/-- A call that commits to the registration Node. -/
theorem performed_aether {event : AetherRegistrationEvent} {node : Node
      AetherRegistrationFields AetherRegistrationFields AetherRegistrationEvent}
    (h : nodes.IsLoaded)
    (hrun : commitIfApplicable aetherRegistration nodes.aether creation event =
      .ok (node, answer))
    (hadmits : nodes.fields.admits call =
      aetherRegistration.canApply nodes.aether.fields event)
    (hchanged : nodes.fields.changed call =
      { nodes.fields with aether := aetherRegistration.apply nodes.aether.fields event }) :
    Performed nodes call { nodes with aether := node } answer := by
  rcases h.aether.commitIfApplicable_cases hrun with ⟨rfl, hcan, rfl⟩ | ⟨rfl, hcan, hdone⟩
  · exact performed_false h (hadmits.trans hcan)
  · apply performed_true _ (hadmits.trans hcan)
    · rw [hchanged, ← hdone.fields]
      rfl
    · have hgrown := hdone.grown
      show nodes.runtime.journal.length + nodes.network.journal.length + node.journal.length = _
      omega
    · exact ⟨h.runtime, h.network, hdone.isOpen⟩

/-- One call of a session. -/
theorem LifecycleNodes.IsLoaded.performed (h : nodes.IsLoaded)
    (hrun : nodes.perform creation call = .ok (after, answer)) :
    Performed nodes call after answer := by
  cases call with
  | applicationStarted runId =>
      obtain ⟨⟨node, answer'⟩, hnode, hpure⟩ := except_bind_eq_ok_iff.mp hrun
      cases hpure
      rcases h.runtime.commitIfApplicable_cases hnode with ⟨rfl, hcan, rfl⟩ | ⟨rfl, hcan, hdone⟩
      · exact performed_false h hcan
      · apply performed_true _
          (show nodes.fields.admits (.applicationStarted runId) = true from hcan)
        · show LifecycleFields.mk node.fields _ _ = _
          rw [hdone.fields]
          rfl
        · have hgrown := hdone.grown
          show node.journal.length + nodes.network.journal.length +
            nodes.aether.journal.length = _
          omega
        · exact ⟨hdone.isOpen, h.network, h.aether⟩
  | networkInitializing runId =>
      obtain ⟨⟨node, answer'⟩, hnode, hpure⟩ := except_bind_eq_ok_iff.mp hrun
      cases hpure
      exact performed_network h hnode rfl rfl
  | networkInterfaceUnavailable runId =>
      obtain ⟨⟨node, answer'⟩, hnode, hpure⟩ := except_bind_eq_ok_iff.mp hrun
      cases hpure
      exact performed_network h hnode rfl rfl
  | internetUnavailable runId =>
      obtain ⟨⟨node, answer'⟩, hnode, hpure⟩ := except_bind_eq_ok_iff.mp hrun
      cases hpure
      exact performed_network h hnode rfl rfl
  | networkAvailable runId =>
      obtain ⟨⟨node, answer'⟩, hnode, hpure⟩ := except_bind_eq_ok_iff.mp hrun
      cases hpure
      exact performed_network h hnode rfl rfl
  | aetherRegistrationStarted runId =>
      obtain ⟨⟨node, answer'⟩, hnode, hpure⟩ := except_bind_eq_ok_iff.mp hrun
      cases hpure
      exact performed_aether h hnode rfl rfl
  | aetherRegistrationCompleted uid =>
      obtain ⟨⟨node, answer'⟩, hnode, hpure⟩ := except_bind_eq_ok_iff.mp hrun
      cases hpure
      unfold commitAetherRegistrationCompleted at hnode
      split at hnode
      case isTrue hempty =>
        cases hnode
        apply performed_false h
        show (if uid.isEmpty then false else _) = false
        rw [if_pos hempty]
      case isFalse => exact performed_aether h hnode rfl rfl

/-- A call returns while there is a timestamp left. -/
theorem LifecycleNodes.IsLoaded.perform_returns (h : nodes.IsLoaded)
    (htimestamp : nodes.timestamp creation.clockUs call ≠ 0) :
    ∃ after answer, nodes.perform creation call = .ok (after, answer) := by
  have hnetwork : ∀ {brings runId}, commitTimestamp nodes.network.journal creation.clockUs ≠ 0 →
      ∃ node answer, commitNetworkEvent creation brings nodes.network runId =
        .ok (node, answer) := fun htimestamp => h.network.commitIfApplicable_returns htimestamp
  cases call with
  | applicationStarted runId =>
      obtain ⟨node, answer, hnode⟩ : ∃ node answer,
          commitApplicationStarted creation nodes.runtime runId = .ok (node, answer) :=
        h.runtime.commitIfApplicable_returns htimestamp
      exact ⟨_, answer, by rw [LifecycleNodes.perform, hnode]; rfl⟩
  | networkInitializing runId =>
      obtain ⟨node, answer, hnode⟩ := hnetwork htimestamp
      exact ⟨_, answer, by rw [LifecycleNodes.perform, commitNetworkInitializing, hnode]; rfl⟩
  | networkInterfaceUnavailable runId =>
      obtain ⟨node, answer, hnode⟩ := hnetwork htimestamp
      exact ⟨_, answer, by
        rw [LifecycleNodes.perform, commitNetworkInterfaceUnavailable, hnode]; rfl⟩
  | internetUnavailable runId =>
      obtain ⟨node, answer, hnode⟩ := hnetwork htimestamp
      exact ⟨_, answer, by rw [LifecycleNodes.perform, commitInternetUnavailable, hnode]; rfl⟩
  | networkAvailable runId =>
      obtain ⟨node, answer, hnode⟩ := hnetwork htimestamp
      exact ⟨_, answer, by rw [LifecycleNodes.perform, commitNetworkAvailable, hnode]; rfl⟩
  | aetherRegistrationStarted runId =>
      obtain ⟨node, answer, hnode⟩ : ∃ node answer,
          commitAetherRegistrationStarted creation nodes.aether runId = .ok (node, answer) :=
        h.aether.commitIfApplicable_returns htimestamp
      exact ⟨_, answer, by rw [LifecycleNodes.perform, hnode]; rfl⟩
  | aetherRegistrationCompleted uid =>
      obtain ⟨node, answer, hnode⟩ : ∃ node answer,
          commitAetherRegistrationCompleted creation nodes.aether uid = .ok (node, answer) := by
        unfold commitAetherRegistrationCompleted
        split
        case isTrue => exact ⟨_, _, rfl⟩
        case isFalse => exact h.aether.commitIfApplicable_returns htimestamp
      exact ⟨_, answer, by rw [LifecycleNodes.perform, hnode]; rfl⟩

end Calls

/-- A session, with the calls that it made and what they answered. -/
structure LifecycleSession where
  nodes : LifecycleNodes
  answers : List (LifecycleCall × Bool) := []
  deriving DecidableEq

/-- The next call.  After one that stops there is no process. -/
def LifecycleSession.step (session : LifecycleSession) (action : EventCreation × LifecycleCall) :
    Option LifecycleSession :=
  (session.nodes.perform action.1 action.2).toOption.map fun done =>
    ⟨done.1, session.answers ++ [(action.2, done.2)]⟩

/-- The call is an availability Event of this run. -/
def LifecycleCall.observes (runId : UInt64) : LifecycleCall → Bool
  | .networkInterfaceUnavailable observed => decide (observed = runId)
  | .internetUnavailable observed => decide (observed = runId)
  | .networkAvailable observed => decide (observed = runId)
  | _ => false

/-- A registration that is not pending is one that the session completed. -/
def OwnRegistration (fields : AetherRegistrationFields) (answers : List (LifecycleCall × Bool)) :
    Prop :=
  fields.phase ≠ AetherRegistrationPhase.registering.raw →
    (.aetherRegistrationCompleted fields.uid, true) ∈ answers

/-- An availability other than `kInitializing` is one that the session committed for the run. -/
def OwnAvailability (fields : NetworkFields) (answers : List (LifecycleCall × Bool)) : Prop :=
  fields.availability ≠ NetworkAvailability.initializing.raw →
    ∃ call, call.observes fields.runId = true ∧ (call, true) ∈ answers

/-- What the Nodes show was put there by the session. -/
structure LifecycleSession.IsFresh (session : LifecycleSession) : Prop where
  loaded : session.nodes.IsLoaded
  registration : OwnRegistration session.nodes.aether.fields session.answers
  availability : OwnAvailability session.nodes.network.fields session.answers

theorem OwnRegistration.append {fields : AetherRegistrationFields}
    {answers : List (LifecycleCall × Bool)} (h : OwnRegistration fields answers)
    (later : List (LifecycleCall × Bool)) : OwnRegistration fields (answers ++ later) :=
  fun hphase => List.mem_append_left _ (h hphase)

theorem OwnAvailability.append {fields : NetworkFields}
    {answers : List (LifecycleCall × Bool)} (h : OwnAvailability fields answers)
    (later : List (LifecycleCall × Bool)) : OwnAvailability fields (answers ++ later) := by
  intro havailability
  obtain ⟨call, hcall, hmem⟩ := h havailability
  exact ⟨call, hcall, List.mem_append_left _ hmem⟩

/-- A UID is shown only in the phase `kRegistered`. -/
theorem AetherRegistrationFields.currentUid_ne_nil {fields : AetherRegistrationFields}
    (h : fields.currentUid ≠ []) :
    fields.phase = AetherRegistrationPhase.registered.raw ∧ fields.currentUid = fields.uid := by
  unfold currentUid at h ⊢
  cases hregistered : fields.isRegisteredForCurrentRun with
  | false =>
      rw [hregistered] at h
      exact absurd rfl h
  | true =>
      refine ⟨?_, rfl⟩
      unfold isRegisteredForCurrentRun at hregistered
      simp only [Bool.and_eq_true, decide_eq_true_eq] at hregistered
      exact hregistered.1.1

/-- An availability Event that is admitted is one of the run of the Node. -/
theorem ownAvailability_of_canApply {fields : NetworkFields} {brings : NetworkAvailability}
    {runId : UInt64} {call : LifecycleCall} (answers : List (LifecycleCall × Bool))
    (h : network.canApply fields ⟨brings, runId⟩ = true) (hcall : call.observes runId = true) :
    OwnAvailability (network.apply fields ⟨brings, runId⟩) (answers ++ [(call, true)]) := by
  have hmem : (call, true) ∈ answers ++ [(call, true)] :=
    List.mem_append_right _ List.mem_cons_self
  cases brings with
  | initializing => exact fun havailability => absurd rfl havailability
  | interfaceUnavailable =>
      simp only [network, Bool.and_eq_true, decide_eq_true_eq] at h
      exact fun _ => ⟨call, h.1.2 ▸ hcall, hmem⟩
  | internetUnavailable =>
      simp only [network, Bool.and_eq_true, decide_eq_true_eq] at h
      exact fun _ => ⟨call, h.1.2 ▸ hcall, hmem⟩
  | available =>
      simp only [network, Bool.and_eq_true, decide_eq_true_eq] at h
      exact fun _ => ⟨call, h.1.2 ▸ hcall, hmem⟩

/-- One call keeps a session fresh. -/
theorem LifecycleSession.IsFresh.step {session next : LifecycleSession} (h : session.IsFresh)
    {action : EventCreation × LifecycleCall} (hstep : session.step action = some next) :
    next.IsFresh := by
  obtain ⟨creation, call⟩ := action
  unfold LifecycleSession.step at hstep
  obtain ⟨⟨after, answer⟩, hrun, rfl⟩ := Option.map_eq_some_iff.mp hstep
  have hdone := h.loaded.performed (toOption_eq_some_iff.mp hrun)
  cases answer with
  | false =>
      cases hdone.unchanged.mp rfl
      exact ⟨h.loaded, h.registration.append _, h.availability.append _⟩
  | true =>
      have hadmits := hdone.answered.symm
      have hfields : after.fields = session.nodes.fields.changed call := hdone.fields
      apply LifecycleSession.IsFresh.mk hdone.loaded
      · show OwnRegistration after.fields.aether _
        rw [hfields]
        cases call with
        | aetherRegistrationStarted runId => exact fun hphase => absurd rfl hphase
        | aetherRegistrationCompleted uid =>
            exact fun _ => List.mem_append_right _ List.mem_cons_self
        | _ => exact h.registration.append _
      · show OwnAvailability after.fields.network _
        rw [hfields]
        cases call with
        | networkInitializing runId => exact fun havailability => absurd rfl havailability
        | networkInterfaceUnavailable runId =>
            exact ownAvailability_of_canApply _ hadmits (decide_eq_true rfl)
        | internetUnavailable runId =>
            exact ownAvailability_of_canApply _ hadmits (decide_eq_true rfl)
        | networkAvailable runId =>
            exact ownAvailability_of_canApply _ hadmits (decide_eq_true rfl)
        | _ => exact h.availability.append _

/-- The run id of a new session. -/
theorem LifecycleNodes.nextRunId_spec (nodes : LifecycleNodes) :
    nodes.nextRunId ≠ 0 ∧ nodes.nextRunId ≠ nodes.runtime.fields.runId := by
  unfold nextRunId
  split
  case isTrue hwrapped =>
    refine ⟨by decide, ?_⟩
    intro hsame
    rw [← hsame] at hwrapped
    exact absurd hwrapped (by decide)
  case isFalse hnonzero =>
    refine ⟨hnonzero, ?_⟩
    intro hsame
    simp at hsame

/-- What `BeginRuntimeSession` leaves, whether or not its calls found something to change. -/
structure SessionBegun (nodes started : LifecycleNodes) : Prop where
  loaded : started.IsLoaded
  runtime : started.runtime.fields.runId = nodes.nextRunId
  network : started.network.fields = ⟨nodes.nextRunId, NetworkAvailability.initializing.raw⟩
  aether : started.aether.fields.runId = nodes.nextRunId
  phase : started.aether.fields.phase = AetherRegistrationPhase.registering.raw

/-- The call for the network Node leaves the new run id, also where it is refused. -/
theorem network_initialized {fields : NetworkFields} {runId : UInt64} (hrun : runId ≠ 0) :
    (if network.canApply fields ⟨.initializing, runId⟩ then
        network.apply fields ⟨.initializing, runId⟩ else fields) =
      ⟨runId, NetworkAvailability.initializing.raw⟩ := by
  split
  case isTrue => rfl
  case isFalse hrefused =>
    obtain ⟨held, availability⟩ := fields
    simp [AppTraverse.network, hrun] at hrefused
    rw [hrefused.1, hrefused.2]

/-- The call for the registration Node leaves the new run id and a pending registration, also
where it is refused. -/
theorem aetherRegistration_started {fields : AetherRegistrationFields} {runId : UInt64}
    (hrun : runId ≠ 0) :
    (if aetherRegistration.canApply fields (.started runId) then
        aetherRegistration.apply fields (.started runId) else fields) =
      { fields with runId := runId, phase := AetherRegistrationPhase.registering.raw } := by
  split
  case isTrue => rfl
  case isFalse hrefused =>
    obtain ⟨held, registered, phase, uid⟩ := fields
    simp [aetherRegistration, hrun] at hrefused
    rw [hrefused.1, hrefused.2]

/-- `BeginRuntimeSession` leaves the same new run id in all three Nodes. -/
theorem LifecycleNodes.IsLoaded.sessionBegun {nodes started : LifecycleNodes}
    (h : nodes.IsLoaded) {first second third : EventCreation}
    (hrun : nodes.beginRuntimeSession first second third = .ok started) :
    SessionBegun nodes started := by
  obtain ⟨hnonzero, hnew⟩ := nodes.nextRunId_spec
  unfold LifecycleNodes.beginRuntimeSession at hrun
  obtain ⟨⟨one, answer₁⟩, hone, hrun⟩ := except_bind_eq_ok_iff.mp hrun
  obtain ⟨⟨two, answer₂⟩, htwo, hrun⟩ := except_bind_eq_ok_iff.mp hrun
  obtain ⟨⟨three, answer₃⟩, hthree, hrun⟩ := except_bind_eq_ok_iff.mp hrun
  cases hrun
  have hone := h.performed hone
  have htwo := hone.loaded.performed htwo
  have hthree := htwo.loaded.performed hthree
  have hadmitted : answer₁ = true := by
    rw [hone.answered]
    show (decide (nodes.nextRunId ≠ 0) &&
      decide (nodes.nextRunId ≠ nodes.runtime.fields.runId)) = true
    rw [decide_eq_true hnonzero, decide_eq_true hnew]
    rfl
  have hfirst : one.fields = nodes.fields.changed (.applicationStarted nodes.nextRunId) := by
    rw [hone.fields, if_pos hadmitted]
  have hsecond : two.fields = { one.fields with
      network := ⟨nodes.nextRunId, NetworkAvailability.initializing.raw⟩ } := by
    rw [htwo.fields, htwo.answered, ← @network_initialized one.fields.network _ hnonzero]
    show (if AppTraverse.network.canApply one.fields.network
      ⟨.initializing, nodes.nextRunId⟩ then _ else _) = _
    cases AppTraverse.network.canApply one.fields.network ⟨.initializing, nodes.nextRunId⟩ <;>
      rfl
  have hthird : started.fields = { two.fields with
      aether := { two.fields.aether with
        runId := nodes.nextRunId
        phase := AetherRegistrationPhase.registering.raw } } := by
    rw [hthree.fields, hthree.answered,
      ← @aetherRegistration_started two.fields.aether _ hnonzero]
    show (if aetherRegistration.canApply two.fields.aether (.started nodes.nextRunId) then _
      else _) = _
    cases aetherRegistration.canApply two.fields.aether (.started nodes.nextRunId) <;> rfl
  rw [hsecond, hfirst] at hthird
  have hruntime : started.runtime.fields = _ := congrArg LifecycleFields.runtime hthird
  have hnetwork : started.network.fields = _ := congrArg LifecycleFields.network hthird
  have haether : started.aether.fields = _ := congrArg LifecycleFields.aether hthird
  exact ⟨hthree.loaded, by rw [hruntime]; rfl, hnetwork, by rw [haether], by rw [haether]⟩

/-- The call for the first Node leaves the other two. -/
theorem perform_applicationStarted {nodes after : LifecycleNodes} {creation : EventCreation}
    {runId : UInt64} {answer : Bool}
    (h : nodes.perform creation (.applicationStarted runId) = .ok (after, answer)) :
    after.network = nodes.network ∧ after.aether = nodes.aether := by
  obtain ⟨⟨node, answer'⟩, -, hpure⟩ := except_bind_eq_ok_iff.mp h
  cases hpure
  exact ⟨rfl, rfl⟩

/-- The call for the network Node leaves the registration Node. -/
theorem perform_networkInitializing {nodes after : LifecycleNodes} {creation : EventCreation}
    {runId : UInt64} {answer : Bool}
    (h : nodes.perform creation (.networkInitializing runId) = .ok (after, answer)) :
    after.aether = nodes.aether := by
  obtain ⟨⟨node, answer'⟩, -, hpure⟩ := except_bind_eq_ok_iff.mp h
  cases hpure
  rfl

/-- `BeginRuntimeSession` returns while the three journals have a timestamp left. -/
theorem LifecycleNodes.IsLoaded.beginRuntimeSession_returns {nodes : LifecycleNodes}
    (h : nodes.IsLoaded) {first second third : EventCreation}
    (hfirst : commitTimestamp nodes.runtime.journal first.clockUs ≠ 0)
    (hsecond : commitTimestamp nodes.network.journal second.clockUs ≠ 0)
    (hthird : commitTimestamp nodes.aether.journal third.clockUs ≠ 0) :
    ∃ started, nodes.beginRuntimeSession first second third = .ok started := by
  obtain ⟨one, answer₁, hone⟩ := h.perform_returns
    (show nodes.timestamp first.clockUs (.applicationStarted nodes.nextRunId) ≠ 0 from hfirst)
  obtain ⟨hnetwork, haether⟩ := perform_applicationStarted hone
  rw [← hnetwork] at hsecond
  have hloaded := (h.performed hone).loaded
  obtain ⟨two, answer₂, htwo⟩ := hloaded.perform_returns
    (show one.timestamp second.clockUs (.networkInitializing nodes.nextRunId) ≠ 0 from hsecond)
  rw [← haether, ← perform_networkInitializing htwo] at hthird
  obtain ⟨three, answer₃, hthree⟩ := (hloaded.performed htwo).loaded.perform_returns
    (show two.timestamp third.clockUs (.aetherRegistrationStarted nodes.nextRunId) ≠ 0
      from hthird)
  refine ⟨three, ?_⟩
  unfold LifecycleNodes.beginRuntimeSession
  simp only [hone, htwo, hthree, bind, Except.bind, pure, Except.pure]

/-- A session is fresh when it begins. -/
theorem SessionBegun.isFresh {nodes started : LifecycleNodes} (h : SessionBegun nodes started) :
    LifecycleSession.IsFresh ⟨started, []⟩ where
  loaded := h.loaded
  registration hphase := absurd h.phase hphase
  availability havailability := by
    rw [h.network] at havailability
    exact absurd rfl havailability

/-- Every run of a session that has begun is fresh. -/
theorem LifecycleSession.IsFresh.run {session final : LifecycleSession} (h : session.IsFresh)
    {actions : List (EventCreation × LifecycleCall)}
    (hrun : runActions LifecycleSession.step session actions = some final) : final.IsFresh :=
  runActions_preserves _ (fun _ _ _ hfresh hstep => hfresh.step hstep) h hrun

/-- What was persisted is not presented as current: after `BeginRuntimeSession` the Nodes carry
one new run id, and a UID or an availability that they show is one that the session committed.
A call returns while its journal has a timestamp left, and it answers `false` when it changes
nothing. -/
theorem runtimeSession_isCurrent {nodes : LifecycleNodes} (h : nodes.IsLoaded)
    (first second third : EventCreation) :
    (∀ started, nodes.beginRuntimeSession first second third = .ok started →
      started.runtime.fields.runId = nodes.nextRunId ∧
      started.network.fields.runId = nodes.nextRunId ∧
      started.aether.fields.runId = nodes.nextRunId ∧
      nodes.nextRunId ≠ 0 ∧ nodes.nextRunId ≠ nodes.runtime.fields.runId ∧
      ∀ actions final,
        runActions LifecycleSession.step ⟨started, []⟩ actions = some final →
        (final.nodes.aether.fields.currentUid ≠ [] →
          (.aetherRegistrationCompleted final.nodes.aether.fields.currentUid, true) ∈
            final.answers) ∧
        (final.nodes.network.fields.availability ≠ NetworkAvailability.initializing.raw →
          ∃ call, call.observes final.nodes.network.fields.runId = true ∧
            (call, true) ∈ final.answers) ∧
        ∀ creation call,
          (final.nodes.timestamp creation.clockUs call ≠ 0 →
            ∃ after answer, final.nodes.perform creation call = .ok (after, answer)) ∧
          ∀ after answer, final.nodes.perform creation call = .ok (after, answer) →
            (answer = false ↔ after = final.nodes)) ∧
    (commitTimestamp nodes.runtime.journal first.clockUs ≠ 0 →
      commitTimestamp nodes.network.journal second.clockUs ≠ 0 →
      commitTimestamp nodes.aether.journal third.clockUs ≠ 0 →
      ∃ started, nodes.beginRuntimeSession first second third = .ok started) ∧
    (∀ fields records, ∃ applied,
      applyRecords applicationRuntime.assertingClass fields records = .ok applied) ∧
    (∀ fields records, ∃ applied,
      applyRecords network.assertingClass fields records = .ok applied) ∧
    ∀ fields records, ∃ applied,
      applyRecords aetherRegistration.assertingClass fields records = .ok applied := by
  refine ⟨?_, h.beginRuntimeSession_returns, applyRecords_assertingClass,
    applyRecords_assertingClass, applyRecords_assertingClass⟩
  intro started hstarted
  have hbegun := h.sessionBegun hstarted
  obtain ⟨hnonzero, hnew⟩ := nodes.nextRunId_spec
  refine ⟨hbegun.runtime, by rw [hbegun.network], hbegun.aether, hnonzero, hnew, ?_⟩
  intro actions final hrun
  have hfresh := hbegun.isFresh.run hrun
  refine ⟨?_, hfresh.availability, ?_⟩
  · intro huid
    obtain ⟨hphase, hshown⟩ := AetherRegistrationFields.currentUid_ne_nil huid
    rw [hshown]
    apply hfresh.registration
    rw [hphase]
    decide
  · intro creation call
    refine ⟨hfresh.loaded.perform_returns, ?_⟩
    intro after answer hcall
    exact (hfresh.loaded.performed hcall).unchanged

/-- Nodes as partial saves can leave them: the run ids differ, an availability and a UID are
there from other runs, and the run id of the process is the greatest there is. -/
def staleNodes : LifecycleNodes where
  runtime := initializeRuntimeNode applicationRuntime.assertingClass ⟨1⟩ 0 ⟨2⟩
    ⟨0xffffffffffffffff⟩
  network := initializeRuntimeNode network.assertingClass ⟨3⟩ 0 ⟨4⟩
    ⟨1, NetworkAvailability.available.raw⟩
  aether := initializeRuntimeNode aetherRegistration.assertingClass ⟨5⟩ 0 ⟨6⟩
    ⟨1, 1, AetherRegistrationPhase.registered.raw, [85]⟩

theorem staleNodes_isLoaded : staleNodes.IsLoaded :=
  ⟨isOpen_initializeRuntimeNode rfl, isOpen_initializeRuntimeNode rfl,
    isOpen_initializeRuntimeNode rfl⟩

/-- The stale Nodes present a UID.  A session that begins on them does not, and it gets the
run id 1. -/
theorem staleNodes_areReplaced :
    staleNodes.aether.fields.currentUid = [85] ∧
      ∃ started, staleNodes.beginRuntimeSession ⟨⟨7⟩, 10, rfl⟩ ⟨⟨8⟩, 10, rfl⟩ ⟨⟨9⟩, 10, rfl⟩ =
        .ok started ∧ started.aether.fields.runId = 1 ∧ started.aether.fields.currentUid = [] := by
  refine ⟨by decide, ?_⟩
  obtain ⟨hbegun, hreturns, -, -, -⟩ := runtimeSession_isCurrent staleNodes_isLoaded
    ⟨⟨7⟩, 10, rfl⟩ ⟨⟨8⟩, 10, rfl⟩ ⟨⟨9⟩, 10, rfl⟩
  obtain ⟨started, hstarted⟩ := hreturns (by decide) (by decide) (by decide)
  obtain ⟨-, -, haether, -, -, hsession⟩ := hbegun started hstarted
  refine ⟨started, hstarted, haether, ?_⟩
  by_contra huid
  have hshown := (hsession [] ⟨started, []⟩ rfl).1 huid
  cases hshown

end AppTraverse
