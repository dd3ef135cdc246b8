import AppTraverse.Admission.Registration

/-!
# What a synchronization call does

One inversion lemma for `SyncInitialState` and one for `SyncNextEvent`.  A call
either did nothing, or sent the packet that is pending, or froze a new packet,
saved it, and then sent it.
-/

namespace AppTraverse

open Foundations

variable {α ε : Type} {aether : Aether α ε} {app : AppClass α ε}
variable {env : StepEnv} {runtime runtime' : SharedSyncRuntime α ε}
  {nodeId shareId : ObjId} {node : SharedNode α ε} {destination : Bytes} {index : Nat}
  {state : LinkSyncState}

/-- The relationship a synchronization call works on. -/
structure IsSyncDestination (runtime : SharedSyncRuntime α ε) (nodeId shareId : ObjId)
    (node : SharedNode α ε) (destination : Bytes) (index : Nat) (state : LinkSyncState) :
    Prop where
  found : findNode runtime.nodes nodeId = some node
  endpoint : shareEndpointOf node.fields.shares shareId = some destination
  foreign : destination ≠ [] ∧ destination ≠ runtime.localEndpoint
  index_eq : findLinkSyncIndexForShare node.fields.linkSyncStates shareId = .ok index
  state_eq : linkSyncStateAt node index = .ok state

theorem isSyncDestination_of_eq_ok
    (h : syncDestination runtime nodeId shareId = .ok (node, destination, index, state)) :
    IsSyncDestination runtime nodeId shareId node destination index state := by
  unfold syncDestination at h
  split at h
  case h_1 => cases h
  case h_2 target hfound =>
    split at h
    case h_1 => cases h
    case h_2 endpointUid hendpoint =>
      obtain ⟨nonempty, hnonempty, h⟩ := except_bind_eq_ok_iff.mp h
      obtain ⟨foreign, hforeign, h⟩ := except_bind_eq_ok_iff.mp h
      obtain ⟨position, hindex, h⟩ := except_bind_eq_ok_iff.mp h
      obtain ⟨short, -, h⟩ := except_bind_eq_ok_iff.mp h
      obtain ⟨loaded, hstate, h⟩ := except_bind_eq_ok_iff.mp h
      cases h
      rw [assertThat_eq_ok_iff, decide_eq_true_eq] at hforeign
      rw [assertThat_eq_ok_iff] at hnonempty
      exact ⟨hfound, hendpoint, ⟨by simpa using hnonempty, hforeign⟩, hindex, hstate⟩

/-- The destination of a relationship is found. -/
theorem syncDestination_eq_ok
    (h : IsSyncDestination runtime nodeId shareId node destination index state) :
    syncDestination runtime nodeId shareId = .ok (node, destination, index, state) := by
  have hnonempty : (!destination.isEmpty) = true := by simpa using h.foreign.1
  have hlength : index < node.fields.linkSyncStates.length := by
    by_contra hlong
    have hnone : node.fields.linkSyncStates[index]? = none :=
      List.getElem?_eq_none (Nat.not_lt.mp hlong)
    have hstate := h.state_eq
    rw [linkSyncStateAt, hnone] at hstate
    cases hstate
  unfold syncDestination
  simp only [h.found, h.endpoint, hnonempty, h.foreign.2, h.index_eq, hlength, h.state_eq,
    assertThat, bind, Except.bind, pure, Except.pure, decide_true, ne_eq, not_false_eq_true,
    if_true]

/-- What a Begin Event did once it was committed. -/
structure PacketBegun (runtime : SharedSyncRuntime α ε) (node : SharedNode α ε)
    (index : Nat) (destination : Bytes) (eventId : ObjId) (event : LinkSyncEvent)
    (packet : Bytes) (effects : List (Effect α ε)) (runtime' : SharedSyncRuntime α ε) :
    Prop where
  outcome : ∃ committed, commitLinkSyncEvent node index eventId event = .ok committed ∧
    effects = [.saveNode committed, .send destination packet] ∧
    runtime' = { runtime with nodes := replaceNode runtime.nodes committed }

theorem packetBegun_of_beginSync {eventId : ObjId} {event : LinkSyncEvent} {packet : Bytes}
    (h : (beginSync runtime node index destination eventId event packet).result =
      .ok runtime') :
    PacketBegun runtime node index destination eventId event packet
      (beginSync runtime node index destination eventId event packet).effects runtime' := by
  unfold beginSync at h ⊢
  cases hcommit : commitLinkSyncEvent node index eventId event with
  | error reason => simp [hcommit] at h
  | ok committed =>
      simp only [hcommit, pureStep_ok_bind, perform_bind, EffectLog.pure_result,
        Except.ok.injEq] at h
      exact ⟨committed, hcommit, by simp, h.symm⟩

/-- The packet of an initial synchronization. -/
def initialPacket (eventId nodeId shareId : ObjId) (frozen : FrozenNodeState) : Bytes :=
  encodeNodeStateFrame ⟨eventId, nodeId, shareId, frozen.payload⟩

/-- What `SyncInitialState` did. -/
theorem syncInitialState_cases
    (h : (syncInitialState aether app env runtime nodeId shareId).result = .ok runtime') :
    ∃ node destination index state,
      IsSyncDestination runtime nodeId shareId node destination index state ∧
      ((state.initialSyncPhase = .complete ∧
          (syncInitialState aether app env runtime nodeId shareId).effects = [] ∧
          runtime' = runtime) ∨
        (state.initialSyncPhase = .pending ∧
          (syncInitialState aether app env runtime nodeId shareId).effects =
            [.send destination state.pendingInitialPacket] ∧
          runtime' = runtime) ∨
        ∃ frozen, (state.initialSyncPhase ≠ .complete ∧ state.initialSyncPhase ≠ .pending) ∧
          freezeNetworkSharedNodeState aether app node = .ok frozen ∧
          PacketBegun runtime node index destination env.eventId
            (.beginInitialSync (initialPacket env.eventId nodeId shareId frozen)
              frozen.coveredEventIds)
            (initialPacket env.eventId nodeId shareId frozen)
            (syncInitialState aether app env runtime nodeId shareId).effects runtime') := by
  unfold syncInitialState at h ⊢
  cases hdestination : syncDestination runtime nodeId shareId with
  | error reason => simp [hdestination] at h
  | ok found =>
      obtain ⟨node, destination, index, state⟩ := found
      refine ⟨node, destination, index, state,
        isSyncDestination_of_eq_ok hdestination, ?_⟩
      simp only [hdestination, pureStep_ok_bind] at h ⊢
      -- A phase that no enumerator names is not told apart from NotStarted here.
      cases hphase : state.initialSyncPhase with
      | complete =>
          simp only [hphase, EffectLog.pure_result, Except.ok.injEq] at h
          exact Or.inl ⟨rfl, rfl, h.symm⟩
      | pending =>
          simp only [hphase, perform_bind, EffectLog.pure_result, Except.ok.injEq] at h
          exact Or.inr (Or.inl ⟨rfl, by simp, h.symm⟩)
      | notStarted =>
          cases hfrozen : freezeNetworkSharedNodeState aether app node with
          | error reason => simp [hphase, hfrozen] at h
          | ok frozen =>
              simp only [hphase, hfrozen, pureStep_ok_bind] at h ⊢
              exact Or.inr (Or.inr ⟨frozen, by simp, rfl, packetBegun_of_beginSync h⟩)
      | unnamed raw =>
          cases hfrozen : freezeNetworkSharedNodeState aether app node with
          | error reason => simp [hphase, hfrozen] at h
          | ok frozen =>
              simp only [hphase, hfrozen, pureStep_ok_bind] at h ⊢
              exact Or.inr (Or.inr ⟨frozen, by simp, rfl, packetBegun_of_beginSync h⟩)

/-- The packet of an incremental synchronization. -/
def eventPacket (aether : Aether α ε) (app : AppClass α ε) (eventId nodeId shareId : ObjId)
    (record : EventRecord (SharedNodeEvent ε)) (event : SharedNodeEvent ε)
    (payload : Bytes) : Bytes :=
  encodeEventFrame ⟨eventId, nodeId, shareId, record.identity, record.order.timestampUs,
    aether.classIdOfEvent app event, payload⟩

/-- The record that `SyncNextEvent` froze. -/
structure RecordIsFrozen (aether : Aether α ε) (app : AppClass α ε)
    (runtime : SharedSyncRuntime α ε) (node : SharedNode α ε) (state : LinkSyncState)
    (destination : Bytes) (record : EventRecord (SharedNodeEvent ε))
    (event : SharedNodeEvent ε) (payload : Bytes) : Prop where
  next : nextUndeliveredSharedEvent node.journal state destination = some record
  valid : record.event.isValid = true
  loaded : record.event.obj = some event
  allowed : aether.classIdOfEvent app event ∈ runtime.standaloneEventClasses
  frozen : freezeEventPayload aether app record.event.id event = some payload

/-- What `SyncNextEvent` did. -/
theorem syncNextEvent_cases
    (h : (syncNextEvent aether app env runtime nodeId shareId).result = .ok runtime') :
    ∃ node destination index state,
      IsSyncDestination runtime nodeId shareId node destination index state ∧
      (((syncNextEvent aether app env runtime nodeId shareId).effects = [] ∧
          runtime' = runtime) ∨
        (state.initialSyncPhase = .complete ∧ state.hasPendingEvent = true ∧
          (syncNextEvent aether app env runtime nodeId shareId).effects =
            [.send destination state.pendingEventPacket] ∧
          runtime' = runtime) ∨
        ∃ record event payload, state.initialSyncPhase = .complete ∧
          state.hasPendingEvent = false ∧
          RecordIsFrozen aether app runtime node state destination record event payload ∧
          PacketBegun runtime node index destination env.eventId
            (.beginIncrementalEventSync record.identity
              (eventPacket aether app env.eventId nodeId shareId record event payload))
            (eventPacket aether app env.eventId nodeId shareId record event payload)
            (syncNextEvent aether app env runtime nodeId shareId).effects runtime') := by
  unfold syncNextEvent at h ⊢
  cases hdestination : syncDestination runtime nodeId shareId with
  | error reason => simp [hdestination] at h
  | ok found =>
      obtain ⟨node, destination, index, state⟩ := found
      refine ⟨node, destination, index, state,
        isSyncDestination_of_eq_ok hdestination, ?_⟩
      simp only [hdestination, pureStep_ok_bind] at h ⊢
      by_cases hphase : state.initialSyncPhase = .complete
      case neg =>
        rw [if_pos hphase] at h ⊢
        exact Or.inl ⟨rfl, (Except.ok.inj h).symm⟩
      rw [if_neg (not_not_intro hphase)] at h ⊢
      cases hpending : state.hasPendingEvent with
      | true =>
          simp only [hpending, if_true, perform_bind, EffectLog.pure_result,
            Except.ok.injEq] at h
          exact Or.inr (Or.inl ⟨hphase, rfl, by simp, h.symm⟩)
      | false =>
          simp only [hpending, Bool.false_eq_true, if_false] at h ⊢
          cases hnext : nextUndeliveredSharedEvent node.journal state destination with
          | none =>
              simp only [hnext, EffectLog.pure_result, Except.ok.injEq] at h
              exact Or.inl ⟨rfl, h.symm⟩
          | some record =>
              simp only [hnext] at h ⊢
              cases hvalid : record.event.isValid with
              | false =>
                  rw [hvalid, show assertThat false = .error .assertFailed from rfl,
                    pureStep_error_bind] at h
                  cases h
              | true =>
                  simp only [hvalid, show assertThat true = .ok () from rfl,
                    pureStep_ok_bind] at h ⊢
                  cases hloaded : record.event.obj with
                  | none => simp [hloaded] at h
                  | some event =>
                      simp only [hloaded] at h ⊢
                      by_cases hallowed : aether.classIdOfEvent app event ∈
                          runtime.standaloneEventClasses
                      case neg =>
                        rw [if_pos hallowed] at h ⊢
                        exact Or.inl ⟨rfl, (Except.ok.inj h).symm⟩
                      rw [if_neg (not_not_intro hallowed)] at h ⊢
                      cases hpayload : freezeEventPayload aether app record.event.id event with
                      | none =>
                          simp only [hpayload, EffectLog.pure_result, Except.ok.injEq] at h
                          exact Or.inl ⟨rfl, h.symm⟩
                      | some payload =>
                          simp only [hpayload] at h ⊢
                          exact Or.inr (Or.inr ⟨record, event, payload, hphase, trivial,
                            ⟨hnext, hvalid, hloaded, hallowed, hpayload⟩,
                            packetBegun_of_beginSync h⟩)

end AppTraverse
