import AppTraverse.Admission.ExpectationRuns
import AppTraverse.Delivery.FrameOutcomes
import AppTraverse.Reference.SyncedRoom

/-!
# Rejected frames are inert

A frame that is not accepted leaves the replica as it was: no effect is performed,
so nothing is written or sent, and the runtime is returned unchanged.

Every early exit of the handlers lies before the first write, with one exception in
the order of the source: `ImportStandaloneEventGraph` copies the layers of an Event
and loads them afterwards.  `importStandaloneEventGraph_eq_none` shows that what is
checked after the copy cannot fail any more.
-/

namespace AppTraverse

open Foundations

variable {α ε : Type} (aether : Aether α ε) (app : AppClass α ε)

/-- The scratch load of the validation reads the layers that an import copies. -/
theorem exists_root_of_validateStandaloneEventGraph {parsed : RamDomainStorage}
    {rootId : ObjId} {expectedEventClassId : ClassId}
    (h : validateStandaloneEventGraph aether parsed rootId expectedEventClassId = true) :
    ∃ layers object, parsed.layers? rootId = some layers ∧
      aether.loadObject layers = some object ∧ object.classId = expectedEventClassId := by
  unfold validateStandaloneEventGraph at h
  split at h
  case isTrue => cases h
  case isFalse =>
    split at h
    case h_1 => cases h
    case h_2 =>
      split at h
      case isTrue => cases h
      case isFalse =>
        split at h
        case h_1 => cases h
        case h_2 =>
          rw [Bool.and_eq_true] at h
          obtain ⟨-, hloaded⟩ := h
          split at hloaded
          case h_1 => cases hloaded
          case h_2 object hfind =>
            obtain ⟨layers, hlayers, hobject⟩ := Option.bind_eq_some_iff.mp hfind
            exact ⟨layers, object, hlayers, hobject, of_decide_eq_true hloaded⟩

/-- The import of a standalone Event returns nothing only before it copies: the
graph was not a standalone Event of that class. -/
theorem importStandaloneEventGraph_eq_none {parsed : RamDomainStorage} {rootId : ObjId}
    {expectedEventClassId : ClassId} {generated : List ObjId} {occupied : ObjId → Bool}
    {find : ObjectFinder α ε}
    (h : importStandaloneEventGraph aether parsed rootId expectedEventClassId generated
      occupied find = .ok none) :
    validateStandaloneEventGraph aether parsed rootId expectedEventClassId = false := by
  unfold importStandaloneEventGraph at h
  cases hvalid : validateStandaloneEventGraph aether parsed rootId expectedEventClassId with
  | false => rfl
  | true =>
      simp only [hvalid, Bool.not_true, Bool.false_eq_true, if_false,
        except_bind_eq_ok_iff] at h
      obtain ⟨id, -, h⟩ := h
      obtain ⟨layers, object, hlayers, hobject, hclass⟩ :=
        exists_root_of_validateStandaloneEventGraph aether hvalid
      simp only [hlayers, hobject, if_neg (not_not_intro hclass)] at h
      cases hbody : object.body with
      | event event =>
          simp only [hbody, except_bind_eq_ok_iff] at h
          obtain ⟨loaded, -, h⟩ := h
          cases h
      | sharedNode _ _ => simp [hbody] at h
      | link _ _ => simp [hbody] at h
      | linkSyncState _ => simp [hbody] at h
      | other => simp [hbody] at h

/-- A NodeState that is refused: its Node is unknown and not admitted, or it is
registered and the frame is misaddressed or carries another packet id than the
recorded one. -/
def NodeStateIsRejected (env : StepEnv) (replica : Replica α ε) (sourceEndpoint : Bytes)
    (frame : NodeStateFrame) : Prop :=
  match findNode replica.runtime.nodes frame.targetNodeId with
  | none =>
      (importValidatedNode aether app env replica sourceEndpoint frame).result = .ok none
  | some node =>
      addressedToThisReplica node.fields.shares replica.runtime.localEndpoint sourceEndpoint
        frame.destinationShareId = false ∨
      ∃ index state, destinationState node frame.destinationShareId = .ok (index, state) ∧
        state.receivedInitialPacketId ≠ frame.packetId

/-- A frame that is refused: it does not decode, or the handler of its kind refuses
it.  An Event is refused when it is not acknowledged. -/
def FrameIsRejected (env : StepEnv) (replica : Replica α ε) (sourceEndpoint : Bytes)
    (bytes : Bytes) : Prop :=
  match peekSyncFrameType bytes with
  | none => True
  | some .nodeState => ∀ frame, decodeNodeStateFrame bytes = some frame →
      NodeStateIsRejected aether app env replica sourceEndpoint frame
  | some .ack => ∀ frame, decodeAckFrame bytes = some frame →
      ¬ ∃ node index state,
        AckIsAwaited replica.runtime sourceEndpoint frame node index state
  | some .event => ∀ frame,
      decodeEventFrame (aether.derives aether.eventClassId) bytes = some frame →
      ackEffect sourceEndpoint frame.packetId frame.targetNodeId frame.destinationShareId ∉
        (onEvent aether app env replica sourceEndpoint frame).effects

section Inert

variable {aether app}
variable {env : StepEnv} {replica : Replica α ε} {sourceEndpoint : Bytes}

/-- A call that performed nothing and kept its runtime. -/
def IsInert (replica : Replica α ε)
    (outcome : RuntimeM α ε (SharedSyncRuntime α ε)) : Prop :=
  outcome.effects = [] ∧ ∀ runtime', outcome.result = .ok runtime' →
    runtime' = replica.runtime

theorem isInert_pure : IsInert replica (pure replica.runtime) := by
  refine ⟨rfl, fun runtime' h => ?_⟩
  cases h
  rfl

theorem isInert_of_nodeStateIsRejected {frame : NodeStateFrame}
    (h : NodeStateIsRejected aether app env replica sourceEndpoint frame) :
    IsInert replica (onNodeState aether app env replica sourceEndpoint frame) := by
  unfold NodeStateIsRejected at h
  cases hfound : findNode replica.runtime.nodes frame.targetNodeId with
  | none =>
      simp only [hfound] at h
      rcases importValidatedNode_cases aether app env replica sourceEndpoint frame with
        ⟨hnil, -⟩ | ⟨validated, -, -, ⟨reason, himport⟩ | ⟨node, -, himport⟩⟩
      · unfold onNodeState
        simp only [hfound, EffectLog.bind_of_ok _ h]
        refine ⟨by simp [hnil], fun runtime' hresult => ?_⟩
        cases hresult
        rfl
      · rw [himport] at h
        cases h
      · rw [himport] at h
        cases h
  | some node =>
      simp only [hfound] at h
      rw [onNodeState_of_known aether app env sourceEndpoint hfound]
      rcases onNodeStateOfKnownNode_cases env sourceEndpoint hfound with
        ⟨⟨-, haddressed, index, state, hstate, hpacket⟩, -⟩ | ⟨-, hnil, hkept⟩
      · rcases h with hmisaddressed | ⟨index', state', hstate', hother⟩
        · rw [haddressed] at hmisaddressed
          cases hmisaddressed
        · rw [hstate] at hstate'
          cases hstate'
          exact absurd hpacket hother
      · exact ⟨hnil, hkept⟩

theorem effects_of_event_not_acknowledged {frame : EventFrame}
    {runtime' : SharedSyncRuntime α ε}
    (hreturn : (onEvent aether app env replica sourceEndpoint frame).result = .ok runtime')
    (hnot : ackEffect sourceEndpoint frame.packetId frame.targetNodeId
        frame.destinationShareId ∉
      (onEvent aether app env replica sourceEndpoint frame).effects) :
    (onEvent aether app env replica sourceEndpoint frame).effects = [] ∧
      runtime' = replica.runtime := by
  rcases onEvent_cases hreturn with hnothing |
    ⟨node, parsed, wireRootId, existing, -, -, -, heffects, -⟩ |
    ⟨node, parsed, wireRootId, localEvent, inserted, -, -, heffects, -⟩
  · exact hnothing
  · refine absurd ?_ hnot
    rw [heffects]
    exact List.mem_singleton_self _
  · refine absurd ?_ hnot
    rw [heffects]
    simp

end Inert

/-- A rejected frame is inert: a call that returns performed no effect and left the
replica as it was, and only the handler of Event frames could even stop after one. -/
theorem rejectedFrame_isInert {env : StepEnv} {replica : Replica α ε}
    {sourceEndpoint bytes : Bytes}
    (hrejected : FrameIsRejected aether app env replica sourceEndpoint bytes) :
    (∀ runtime', (onBytes aether app env replica sourceEndpoint bytes).result =
        .ok runtime' →
      (onBytes aether app env replica sourceEndpoint bytes).effects = [] ∧
        replica.after (onBytes aether app env replica sourceEndpoint bytes).effects
          runtime' = replica) ∧
    (peekSyncFrameType bytes ≠ some .event →
      (onBytes aether app env replica sourceEndpoint bytes).effects = []) := by
  -- An inert call leaves the replica as it was.
  have hafter : ∀ {outcome : RuntimeM α ε (SharedSyncRuntime α ε)},
      IsInert replica outcome →
      ∀ runtime', outcome.result = .ok runtime' →
        outcome.effects = [] ∧ replica.after outcome.effects runtime' = replica := by
    intro outcome hinert runtime' hresult
    rw [hinert.1, hinert.2 runtime' hresult]
    exact ⟨rfl, rfl⟩
  unfold FrameIsRejected at hrejected
  unfold onBytes
  cases hkind : peekSyncFrameType bytes with
  | none => exact ⟨hafter isInert_pure, fun _ => rfl⟩
  | some kind =>
      simp only [hkind] at hrejected ⊢
      cases kind with
      | nodeState =>
          simp only at hrejected ⊢
          cases hdecode : decodeNodeStateFrame bytes with
          | none => exact ⟨hafter isInert_pure, fun _ => rfl⟩
          | some frame =>
              have hinert := isInert_of_nodeStateIsRejected (hrejected frame hdecode)
              exact ⟨hafter hinert, fun _ => hinert.1⟩
      | ack =>
          simp only at hrejected ⊢
          cases hdecode : decodeAckFrame bytes with
          | none => exact ⟨hafter isInert_pure, fun _ => rfl⟩
          | some frame =>
              have hinert : IsInert replica
                  (onAck env replica.runtime sourceEndpoint frame) :=
                onAck_of_not_awaited (hrejected frame hdecode) env
              exact ⟨hafter hinert, fun _ => hinert.1⟩
      | event =>
          simp only at hrejected ⊢
          cases hdecode : decodeEventFrame (aether.derives aether.eventClassId) bytes with
          | none => exact ⟨hafter isInert_pure, fun hnot => absurd rfl hnot⟩
          | some frame =>
              refine ⟨fun runtime' hresult => ?_, fun hnot => absurd rfl hnot⟩
              obtain ⟨hnil, hkept⟩ :=
                effects_of_event_not_acknowledged hresult (hrejected frame hdecode)
              rw [hnil, hkept]
              exact ⟨rfl, rfl⟩

section StaleAck

/-- A host whose relationship with the client has not been synchronized. -/
def unsyncedHost : Replica Messages MessageAddedEvent :=
  roomReplica hostEndpoint (syncedRoom hostLinkState clientLinkState [] [])

/-- An Ack of a packet that was never sent. -/
def staleAck : AckFrame := ⟨⟨99⟩, ⟨10⟩, ⟨15⟩⟩

theorem staleAck_isRejected :
    FrameIsRejected chatAether chatRoom (receiverEnv true) unsyncedHost clientEndpoint
      (encodeAckFrame staleAck) := by
  unfold FrameIsRejected
  rw [peekSyncFrameType_encodeAckFrame]
  intro frame hframe
  rw [decodeAckFrame_encode, if_pos (by decide)] at hframe
  cases hframe
  rintro ⟨node, index, state, hawaited⟩
  have hnode := hawaited.found
  rw [show findNode unsyncedHost.runtime.nodes staleAck.targetNodeId =
    some (syncedRoom hostLinkState clientLinkState [] []) by decide] at hnode
  cases hnode
  have hindex := hawaited.index_eq
  rw [show findLinkSyncIndexForShare
    (syncedRoom hostLinkState clientLinkState [] []).fields.linkSyncStates
    staleAck.destinationShareId = .ok 1 by decide] at hindex
  cases hindex
  have hstate := hawaited.state_eq
  rw [show linkSyncStateAt (syncedRoom hostLinkState clientLinkState [] []) 1 =
    .ok clientLinkState by decide] at hstate
  cases hstate
  exact absurd hawaited.awaits (by decide)

theorem staleAck_isInert :
    (∀ runtime', (onBytes chatAether chatRoom (receiverEnv true) unsyncedHost clientEndpoint
        (encodeAckFrame staleAck)).result = .ok runtime' →
      (onBytes chatAether chatRoom (receiverEnv true) unsyncedHost clientEndpoint
        (encodeAckFrame staleAck)).effects = [] ∧
      unsyncedHost.after (onBytes chatAether chatRoom (receiverEnv true) unsyncedHost
        clientEndpoint (encodeAckFrame staleAck)).effects runtime' = unsyncedHost) ∧
    (peekSyncFrameType (encodeAckFrame staleAck) ≠ some .event →
      (onBytes chatAether chatRoom (receiverEnv true) unsyncedHost clientEndpoint
        (encodeAckFrame staleAck)).effects = []) :=
  rejectedFrame_isInert chatAether chatRoom staleAck_isRejected

end StaleAck

end AppTraverse
