import AppTraverse.Runtime.Reception

/-!
# What a received frame does

One inversion lemma for each handler of `OnBytes`.  A call that returned did one
of a few things, and the lemma names the checks that led there, so no later proof
unfolds a handler.
-/

namespace AppTraverse

open Foundations

variable {α ε : Type} (aether : Aether α ε) (app : AppClass α ε)

/-- The Ack of a frame. -/
def ackEffect (destination : Bytes) (packetId targetNodeId destinationShareId : ObjId) :
    Effect α ε :=
  .send destination (encodeAckFrame ⟨packetId, targetNodeId, destinationShareId⟩)

section Ack

variable {env : StepEnv} {runtime runtime' : SharedSyncRuntime α ε} {sourceEndpoint : Bytes}
  {frame : AckFrame}

/-- The packet identity an Ack has to carry: that of the pending initial packet,
or that of the pending Event once the initial synchronization is complete. -/
def LinkSyncState.awaits (state : LinkSyncState) (packetId : ObjId) : Bool :=
  (decide (state.initialSyncPhase = .pending) &&
      decide (state.pendingInitialPacketId = packetId)) ||
    (decide (state.initialSyncPhase = .complete) &&
      decide (state.pendingEventPacketId = packetId))

/-- The Event an awaited Ack commits. -/
def LinkSyncState.completion (state : LinkSyncState) : LinkSyncEvent :=
  if state.initialSyncPhase = .pending then .completeInitialSync
  else .completeIncrementalEventSync

/-- The Ack names an open Share that ends at its source, and carries the packet
that the sync state of that Share awaits. -/
structure AckIsAwaited (runtime : SharedSyncRuntime α ε) (sourceEndpoint : Bytes)
    (frame : AckFrame) (node : SharedNode α ε) (index : Nat) (state : LinkSyncState) :
    Prop where
  found : findNode runtime.nodes frame.targetNodeId = some node
  endpoint : shareEndpointOf node.fields.shares frame.destinationShareId =
    some sourceEndpoint
  index_eq : findLinkSyncIndexForShare node.fields.linkSyncStates
    frame.destinationShareId = .ok index
  state_eq : linkSyncStateAt node index = .ok state
  awaits : state.awaits frame.packetId = true

/-- An index beyond the list holds no state. -/
theorem lt_length_of_linkSyncStateAt {node : SharedNode α ε} {index : Nat}
    {state : LinkSyncState} (h : linkSyncStateAt node index = .ok state) :
    index < node.fields.linkSyncStates.length := by
  by_contra hlong
  have hnone : node.fields.linkSyncStates[index]? = none :=
    List.getElem?_eq_none (Nat.not_lt.mp hlong)
  rw [linkSyncStateAt, hnone] at h
  cases h

/-- An awaited Ack completes the state that awaits it. -/
theorem onAck_of_awaited {node : SharedNode α ε} {index : Nat} {state : LinkSyncState}
    (h : AckIsAwaited runtime sourceEndpoint frame node index state) (env : StepEnv) :
    onAck env runtime sourceEndpoint frame =
      completeSync runtime node index env.eventId state.completion := by
  have hindex := lt_length_of_linkSyncStateAt h.state_eq
  have hendpoint : ¬ shareEndpointOf node.fields.shares frame.destinationShareId ≠
      some sourceEndpoint := not_not_intro h.endpoint
  unfold onAck
  simp only [h.found, if_neg hendpoint, h.index_eq, pureStep_ok_bind,
    if_neg (Nat.not_le.mpr hindex), h.state_eq]
  have hawaits := h.awaits
  simp only [LinkSyncState.awaits, Bool.or_eq_true, Bool.and_eq_true,
    decide_eq_true_eq] at hawaits
  rcases hawaits with ⟨hphase, hpacket⟩ | ⟨hphase, hpacket⟩
  · rw [if_pos ⟨hphase, hpacket⟩, LinkSyncState.completion, if_pos hphase]
  · have hpending : ¬ state.initialSyncPhase = .pending := by rw [hphase]; simp
    rw [if_neg (fun hboth => hpending hboth.1), if_pos ⟨hphase, hpacket⟩,
      LinkSyncState.completion, if_neg hpending]

/-- An Ack that nothing awaits has no effect, whether or not the call returns. -/
theorem onAck_of_not_awaited
    (h : ¬ ∃ node index state, AckIsAwaited runtime sourceEndpoint frame node index state)
    (env : StepEnv) :
    (onAck env runtime sourceEndpoint frame).effects = [] ∧
      ∀ runtime', (onAck env runtime sourceEndpoint frame).result = .ok runtime' →
        runtime' = runtime := by
  unfold onAck
  cases hfound : findNode runtime.nodes frame.targetNodeId with
  | none => simp
  | some node =>
      by_cases hendpoint : shareEndpointOf node.fields.shares frame.destinationShareId =
          some sourceEndpoint
      case neg => simp [hendpoint]
      cases hindex : findLinkSyncIndexForShare node.fields.linkSyncStates
          frame.destinationShareId with
      | error reason => simp [hendpoint, hindex]
      | ok index =>
          by_cases hlength : node.fields.linkSyncStates.length ≤ index
          case pos => simp [hendpoint, hindex, hlength]
          cases hstate : linkSyncStateAt node index with
          | error reason => simp [hendpoint, hindex, hlength, hstate]
          | ok state =>
              have hnot : ¬ state.awaits frame.packetId = true := fun hawaits =>
                h ⟨node, index, state, hfound, hendpoint, hindex, hstate, hawaits⟩
              simp only [LinkSyncState.awaits, Bool.or_eq_true, Bool.and_eq_true,
                decide_eq_true_eq, not_or] at hnot
              simp [hendpoint, hindex, hlength, hstate, hnot.1, hnot.2]

/-- What an Ack did: nothing, or it completed the state that awaited it. -/
theorem onAck_cases (h : (onAck env runtime sourceEndpoint frame).result = .ok runtime') :
    ((¬ ∃ node index state, AckIsAwaited runtime sourceEndpoint frame node index state) ∧
      (onAck env runtime sourceEndpoint frame).effects = [] ∧ runtime' = runtime) ∨
    ∃ node index state committed,
      AckIsAwaited runtime sourceEndpoint frame node index state ∧
      commitLinkSyncEvent node index env.eventId state.completion = .ok committed ∧
      (onAck env runtime sourceEndpoint frame).effects = [.saveNode committed] ∧
      runtime' = { runtime with nodes := replaceNode runtime.nodes committed } := by
  by_cases hawaited : ∃ node index state,
      AckIsAwaited runtime sourceEndpoint frame node index state
  · obtain ⟨node, index, state, hawaited⟩ := hawaited
    rw [onAck_of_awaited hawaited] at h ⊢
    rw [completeSync] at h ⊢
    cases hcommit : commitLinkSyncEvent node index env.eventId state.completion with
    | error reason => simp [hcommit] at h
    | ok committed =>
        simp only [hcommit, pureStep_ok_bind, perform_bind, EffectLog.pure_result,
          Except.ok.injEq] at h
        exact Or.inr ⟨node, index, state, committed, hawaited, hcommit, by simp, h.symm⟩
  · obtain ⟨heffects, hruntime⟩ := onAck_of_not_awaited hawaited env
    exact Or.inl ⟨hawaited, heffects, hruntime runtime' h⟩

end Ack

section Event

variable {aether app}
variable {env : StepEnv} {replica : Replica α ε} {runtime' : SharedSyncRuntime α ε}
  {sourceEndpoint : Bytes} {frame : EventFrame}

/-- The checks of `OnEvent` that precede the journal lookup. -/
structure EventIsAdmissible (aether : Aether α ε) (app : AppClass α ε)
    (replica : Replica α ε) (sourceEndpoint : Bytes) (frame : EventFrame)
    (node : SharedNode α ε) (parsed : RamDomainStorage) (wireRootId : ObjId) : Prop where
  found : findNode replica.runtime.nodes frame.targetNodeId = some node
  addressed : eventAddressedToThisReplica node.fields.shares replica.runtime.localEndpoint
    sourceEndpoint frame.destinationShareId = true
  allowed : frame.eventClassId ∈ replica.runtime.standaloneEventClasses
  wellFormed : eventIsWellFormed aether app node frame = .ok (some (parsed, wireRootId))

/-- What `OnEvent` does with an Event that its journal does not have. -/
structure EventIsInserted (aether : Aether α ε) (app : AppClass α ε) (env : StepEnv)
    (replica : Replica α ε) (frame : EventFrame) (node : SharedNode α ε)
    (parsed : RamDomainStorage) (wireRootId : ObjId) (localEvent : ImportedEvent ε)
    (inserted : SharedNode α ε) : Prop where
  unknown : findSharedEvent node frame.identity = none
  preflight : preflightHistoricalEventInsertion aether app env.scratch env.nowUs node parsed
    wireRootId frame.eventClassId frame.identity frame.timestampUs = .ok true
  imported : importStandaloneEventGraph aether parsed wireRootId frame.eventClassId
    env.generated
    (occupiedAtReceiver aether app replica.others replica.runtime.nodes replica.storage)
    (productionFind aether app replica.others replica.runtime.nodes replica.storage) =
      .ok (some localEvent)
  commit : commitShared (app.nodeClass env.ids) node ⟨localEvent.id, some localEvent.event⟩
    frame.identity ⟨frame.timestampUs⟩ env.nowUs = .ok inserted

/-- What an Event frame did: nothing, it was acknowledged as a record the journal
has, or it was stored, inserted, saved and acknowledged, in that order. -/
theorem onEvent_cases
    (h : (onEvent aether app env replica sourceEndpoint frame).result = .ok runtime') :
    ((onEvent aether app env replica sourceEndpoint frame).effects = [] ∧
      runtime' = replica.runtime) ∨
    (∃ node parsed wireRootId existing,
      EventIsAdmissible aether app replica sourceEndpoint frame node parsed wireRootId ∧
      findSharedEvent node frame.identity = some existing ∧
      isSameRecord aether app existing frame = true ∧
      (onEvent aether app env replica sourceEndpoint frame).effects =
        [ackEffect sourceEndpoint frame.packetId frame.targetNodeId
          frame.destinationShareId] ∧
      runtime' = replica.runtime) ∨
    ∃ node parsed wireRootId localEvent inserted,
      EventIsAdmissible aether app replica sourceEndpoint frame node parsed wireRootId ∧
      EventIsInserted aether app env replica frame node parsed wireRootId localEvent
        inserted ∧
      (onEvent aether app env replica sourceEndpoint frame).effects =
        [.storeObject localEvent.id localEvent.layers, .saveNode inserted,
          ackEffect sourceEndpoint frame.packetId frame.targetNodeId
            frame.destinationShareId] ∧
      runtime' = { replica.runtime with
        nodes := replaceNode replica.runtime.nodes inserted } := by
  unfold onEvent at h ⊢
  simp only at h ⊢
  cases hfound : findNode replica.runtime.nodes frame.targetNodeId with
  | none =>
      simp only [hfound, EffectLog.pure_result, Except.ok.injEq] at h
      exact Or.inl ⟨by simp, h.symm⟩
  | some node =>
      simp only [hfound] at h ⊢
      cases haddressed : eventAddressedToThisReplica node.fields.shares
          replica.runtime.localEndpoint sourceEndpoint frame.destinationShareId with
      | false =>
          simp only [haddressed, Bool.not_false, if_true, EffectLog.pure_result,
            Except.ok.injEq] at h
          exact Or.inl ⟨by simp, h.symm⟩
      | true =>
          simp only [haddressed, Bool.not_true, Bool.false_eq_true, if_false] at h ⊢
          by_cases hallowed : frame.eventClassId ∈ replica.runtime.standaloneEventClasses
          case neg =>
            simp only [hallowed, not_false_eq_true, if_true, EffectLog.pure_result,
              Except.ok.injEq] at h
            exact Or.inl ⟨by simp [hallowed], h.symm⟩
          simp only [hallowed, not_true_eq_false, if_false] at h ⊢
          cases hwell : eventIsWellFormed aether app node frame with
          | error reason => simp [hwell] at h
          | ok checked =>
              simp only [hwell, pureStep_ok_bind] at h ⊢
              cases checked with
              | none =>
                  simp only [EffectLog.pure_result, Except.ok.injEq] at h
                  exact Or.inl ⟨by simp, h.symm⟩
              | some graph =>
                  obtain ⟨parsed, wireRootId⟩ := graph
                  have hadmissible : EventIsAdmissible aether app replica sourceEndpoint
                      frame node parsed wireRootId :=
                    ⟨hfound, haddressed, hallowed, hwell⟩
                  simp only at h ⊢
                  cases hexisting : findSharedEvent node frame.identity with
                  | some existing =>
                      simp only [hexisting] at h ⊢
                      cases hsame : isSameRecord aether app existing frame with
                      | false =>
                          simp only [hsame, Bool.false_eq_true, if_false,
                            EffectLog.pure_result, Except.ok.injEq] at h
                          exact Or.inl ⟨by simp, h.symm⟩
                      | true =>
                          simp only [hsame, if_true, sendAck, perform_bind,
                            EffectLog.pure_result, Except.ok.injEq] at h
                          refine Or.inr (Or.inl ⟨node, parsed, wireRootId, existing,
                            hadmissible, hexisting, hsame, ?_, h.symm⟩)
                          simp [sendAck, ackEffect]
                  | none =>
                      simp only [hexisting] at h ⊢
                      cases hpreflight : preflightHistoricalEventInsertion aether app
                          env.scratch env.nowUs node parsed wireRootId frame.eventClassId
                          frame.identity frame.timestampUs with
                      | error reason => simp [hpreflight] at h
                      | ok passed =>
                          simp only [hpreflight, pureStep_ok_bind] at h ⊢
                          cases passed with
                          | false =>
                              simp only [Bool.false_eq_true, if_false,
                                EffectLog.pure_result, Except.ok.injEq] at h
                              exact Or.inl ⟨by simp, h.symm⟩
                          | true =>
                              simp only [if_true] at h ⊢
                              cases himport : importStandaloneEventGraph aether parsed
                                  wireRootId frame.eventClassId env.generated
                                  (occupiedAtReceiver aether app replica.others
                                    replica.runtime.nodes replica.storage)
                                  (productionFind aether app replica.others
                                    replica.runtime.nodes replica.storage) with
                              | error reason => simp [himport] at h
                              | ok outcome =>
                                  simp only [himport, pureStep_ok_bind] at h ⊢
                                  cases outcome with
                                  | none =>
                                      simp only [EffectLog.pure_result,
                                        Except.ok.injEq] at h
                                      exact Or.inl ⟨by simp, h.symm⟩
                                  | some localEvent =>
                                      simp only [perform_bind] at h ⊢
                                      cases hcommit : commitShared (app.nodeClass env.ids)
                                          node ⟨localEvent.id, some localEvent.event⟩
                                          frame.identity ⟨frame.timestampUs⟩ env.nowUs with
                                      | error reason => simp [hcommit] at h
                                      | ok inserted =>
                                          simp only [hcommit, pureStep_ok_bind, sendAck,
                                            perform_bind, EffectLog.pure_result,
                                            Except.ok.injEq] at h
                                          refine Or.inr (Or.inr ⟨node, parsed, wireRootId,
                                            localEvent, inserted, hadmissible,
                                            ⟨hexisting, hpreflight, himport, hcommit⟩, ?_,
                                            h.symm⟩)
                                          simp [sendAck, ackEffect]

end Event

end AppTraverse
