import AppTraverse.Admission.ExpectationRuns
import AppTraverse.Chat.SessionRules
import AppTraverse.Delivery.FrameOutcomes
import AppTraverse.Delivery.SyncOutcomes

/-!
# The synchronization runtime inside a session

A call of the runtime leaves the endpoint expectations as they are, unless it asked the
binding callback and the callback took the Node: then it closes the expectation that it
asked for.  For the session a call is thus either quiet, or one run of the import callback
with storage writes around it.
-/

namespace AppTraverse

open Foundations

section Calls

variable {α ε : Type} {aether : Aether α ε} {app : AppClass α ε}

/-- The effect asks the binding callback. -/
def Effect.isBind : Effect α ε → Bool
  | .bindNode _ _ _ => true
  | _ => false

/-- What a call that returned did with the expectations. -/
inductive DoorOutcome (before after : SharedSyncRuntime α ε) (effects : List (Effect α ε)) :
    Prop where
  | quiet (unasked : ∀ effect ∈ effects, effect.isBind = false)
      (expectations : after.expectedEndpointNodes = before.expectedEndpointNodes)
  | asked (writes rest : List (Effect α ε)) (sourceEndpoint : Bytes) (node : SharedNode α ε)
      (bound : Bool) (expectation : EndpointExpectation)
      (split : effects = writes ++ .bindNode sourceEndpoint node bound :: rest)
      (unasked : ∀ effect ∈ writes ++ rest, effect.isBind = false)
      (opened : expectationOf before.expectedEndpointNodes sourceEndpoint = some expectation)
      (expectations : after.expectedEndpointNodes =
        if bound then before.expectedEndpointNodes.erase expectation
        else before.expectedEndpointNodes)

variable {env : StepEnv} {runtime after : SharedSyncRuntime α ε} {node : SharedNode α ε}
  {sourceEndpoint : Bytes}

theorem DoorOutcome.same : DoorOutcome runtime runtime ([] : List (Effect α ε)) :=
  .quiet (fun _ h => absurd h List.not_mem_nil) rfl

theorem isBind_of_isWrite {effect : Effect α ε} (h : effect.isWrite = true) :
    effect.isBind = false := by
  cases effect with
  | bindNode endpoint node bound => cases h
  | commitObjectGraph graph => rfl
  | storeObject id layers => rfl
  | saveNode node => rfl
  | saveLinkSyncState nodeId state => rfl
  | send destination bytes => rfl

/-- Binding asks the callback at most once. -/
theorem doorOutcome_bindAndAcknowledge {frame : NodeStateFrame}
    (h : (bindAndAcknowledge env runtime node sourceEndpoint frame).result = .ok after) :
    DoorOutcome runtime after
      (bindAndAcknowledge env runtime node sourceEndpoint frame).effects := by
  unfold bindAndAcknowledge at h ⊢
  cases hexpectation : expectationOf runtime.expectedEndpointNodes sourceEndpoint with
  | none =>
      simp only [hexpectation, sendAck, perform_bind, EffectLog.pure_result] at h
      cases h
      refine .quiet ?_ rfl
      intro effect heffect
      simp only [sendAck, perform_bind, EffectLog.pure_effects, List.mem_singleton] at heffect
      rw [heffect]
      rfl
  | some expectation =>
      simp only [hexpectation] at h ⊢
      cases hcallback : runtime.callbackInstalled with
      | false =>
          simp only [hcallback, Bool.not_false, if_true, EffectLog.pure_result] at h
          cases h
          exact .same
      | true =>
          simp only [hcallback, Bool.not_true, Bool.false_eq_true, if_false, perform_bind] at h ⊢
          cases hbound : env.bound with
          | false =>
              simp only [hbound, Bool.not_false, if_true, EffectLog.pure_result] at h
              cases h
              refine .asked [] [] sourceEndpoint node false expectation (by simp) (by simp)
                hexpectation rfl
          | true =>
              simp only [hbound, Bool.not_true, Bool.false_eq_true, if_false, sendAck,
                perform_bind, EffectLog.pure_result] at h
              cases h
              refine .asked [] [_] sourceEndpoint node true expectation
                (by simp [sendAck]; rfl) ?_ hexpectation rfl
              intro effect heffect
              rw [List.mem_singleton.mp heffect]
              rfl

theorem doorOutcome_onNodeState {replica : Replica α ε} {frame : NodeStateFrame}
    (h : (onNodeState aether app env replica sourceEndpoint frame).result = .ok after) :
    DoorOutcome replica.runtime after
      (onNodeState aether app env replica sourceEndpoint frame).effects := by
  cases hfound : findNode replica.runtime.nodes frame.targetNodeId with
  | some node =>
      rw [onNodeState_of_known aether app env sourceEndpoint hfound] at h ⊢
      rcases onNodeStateOfKnownNode_cases env sourceEndpoint hfound with
        ⟨-, heq⟩ | ⟨-, hnil, hsame⟩
      · rw [heq] at h ⊢
        exact doorOutcome_bindAndAcknowledge h
      · rw [hnil, hsame after h]
        exact .same
  | none =>
      rcases onNodeState_of_unknown aether app env sourceEndpoint hfound with
        ⟨hwrites, hsame⟩ | ⟨imported, saved, completed, registered, index, state, -, -,
          hsaved, heffects, hresult⟩
      · rw [hsame after h]
        exact .quiet (fun effect hmem => isBind_of_isWrite (hwrites effect hmem)) rfl
      · rw [heffects]
        rw [hresult] at h
        have hunasked : ∀ effect ∈ saved, effect.isBind = false := fun effect hmem =>
          isBind_of_isWrite (hsaved effect hmem)
        cases doorOutcome_bindAndAcknowledge h with
        | quiet hquiet hexpectations =>
            refine .quiet (fun effect hmem => ?_) hexpectations
            rcases List.mem_append.mp hmem with hfirst | hsecond
            · exact hunasked effect hfirst
            · exact hquiet effect hsecond
        | asked writes rest source node bound expectation hsplit hquiet hopened hexpectations =>
            refine .asked (saved ++ writes) rest source node bound expectation ?_ ?_ hopened
              hexpectations
            · rw [hsplit, List.append_assoc]
            · intro effect hmem
              rw [List.append_assoc] at hmem
              rcases List.mem_append.mp hmem with hfirst | hsecond
              · exact hunasked effect hfirst
              · exact hquiet effect hsecond

/-- Receiving bytes asks the callback at most once. -/
theorem doorOutcome_onBytes {replica : Replica α ε} {bytes : Bytes}
    (h : (onBytes aether app env replica sourceEndpoint bytes).result = .ok after) :
    DoorOutcome replica.runtime after
      (onBytes aether app env replica sourceEndpoint bytes).effects := by
  unfold onBytes at h ⊢
  split
  case h_1 htype =>
    rw [htype] at h
    cases h
    exact .same
  case h_2 htype =>
    rw [htype] at h
    simp only at h
    cases hframe : decodeNodeStateFrame bytes with
    | none =>
        rw [hframe] at h
        cases h
        exact .same
    | some frame =>
        rw [hframe] at h
        exact doorOutcome_onNodeState h
  case h_3 htype =>
    rw [htype] at h
    simp only at h
    cases hframe : decodeAckFrame bytes with
    | none =>
        rw [hframe] at h
        cases h
        exact .same
    | some frame =>
        rw [hframe] at h
        rcases onAck_cases h with ⟨-, hnil, rfl⟩ | ⟨node, index, state, committed, -, -, heffects,
          rfl⟩
        · rw [hnil]
          exact .same
        · rw [heffects]
          exact .quiet (by simp [Effect.isBind]) rfl
  case h_4 htype =>
    rw [htype] at h
    simp only at h
    cases hframe : decodeEventFrame (aether.derives aether.eventClassId) bytes with
    | none =>
        rw [hframe] at h
        cases h
        exact .same
    | some frame =>
        rw [hframe] at h
        rcases onEvent_cases h with ⟨hnil, rfl⟩ | ⟨node, parsed, wireRootId, existing, -, -, -,
          heffects, rfl⟩ | ⟨node, parsed, wireRootId, localEvent, inserted, -, -, heffects, rfl⟩
        · rw [hnil]
          exact .same
        · rw [heffects]
          exact .quiet (by simp [Effect.isBind, ackEffect]) rfl
        · rw [heffects]
          exact .quiet (by simp [Effect.isBind, ackEffect]) rfl

theorem doorOutcome_of_packetBegun {index : Nat} {destination : Bytes} {eventId : ObjId}
    {event : LinkSyncEvent} {packet : Bytes} {effects : List (Effect α ε)}
    (h : PacketBegun runtime node index destination eventId event packet effects after) :
    DoorOutcome runtime after effects := by
  obtain ⟨committed, -, rfl, rfl⟩ := h.outcome
  exact .quiet (by simp [Effect.isBind]) rfl

theorem doorOutcome_syncInitialState {nodeId shareId : ObjId}
    (h : (syncInitialState aether app env runtime nodeId shareId).result = .ok after) :
    DoorOutcome runtime after (syncInitialState aether app env runtime nodeId shareId).effects ∧
      after.expectedEndpointNodes = runtime.expectedEndpointNodes ∧
      ∀ effect ∈ (syncInitialState aether app env runtime nodeId shareId).effects,
        effect.isBind = false := by
  obtain ⟨node, destination, index, state, -, ⟨-, hnil, rfl⟩ | ⟨-, hsent, rfl⟩ |
    ⟨frozen, -, -, hbegun⟩⟩ := syncInitialState_cases h
  · rw [hnil]
    exact ⟨.same, rfl, by simp⟩
  · rw [hsent]
    exact ⟨.quiet (by simp [Effect.isBind]) rfl, rfl, by simp [Effect.isBind]⟩
  · obtain ⟨committed, -, heffects, rfl⟩ := hbegun.outcome
    exact ⟨doorOutcome_of_packetBegun hbegun, rfl, by rw [heffects]; simp [Effect.isBind]⟩

theorem doorOutcome_syncNextEvent {nodeId shareId : ObjId}
    (h : (syncNextEvent aether app env runtime nodeId shareId).result = .ok after) :
    DoorOutcome runtime after (syncNextEvent aether app env runtime nodeId shareId).effects := by
  obtain ⟨node, destination, index, state, -, ⟨hnil, rfl⟩ | ⟨-, -, hsent, rfl⟩ |
    ⟨record, event, payload, -, -, -, hbegun⟩⟩ := syncNextEvent_cases h
  · rw [hnil]
    exact .same
  · rw [hsent]
    exact .quiet (by simp [Effect.isBind]) rfl
  · exact doorOutcome_of_packetBegun hbegun

end Calls

/-- The session is as it was, except for what its rooms and its storage hold. -/
structure SessionKept (session next : ChatSession) : Prop where
  runtime : next.runtime = session.runtime
  waiting : next.waitingEntryByEndpoint = session.waitingEntryByEndpoint
  offers : next.offers = session.offers
  expectations : next.expectations = session.expectations
  world : WorldKept session.world next.world

namespace SessionKept

variable {session middle next : ChatSession}

theorem refl (h : SessionLocal session) : SessionKept session session :=
  ⟨rfl, rfl, rfl, rfl, h.worldKept⟩

theorem trans (h : SessionKept session middle) (h' : SessionKept middle next) :
    SessionKept session next :=
  ⟨h'.runtime.trans h.runtime, h'.waiting.trans h.waiting, h'.offers.trans h.offers,
    h'.expectations.trans h.expectations,
    ⟨h'.world.live, h'.world.saved, h.world.entries.trans h'.world.entries⟩⟩

theorem sessionLocal (hlocal : SessionLocal session) (h : SessionKept session next) :
    SessionLocal next :=
  ⟨h.world.live, h.world.saved, by rw [h.runtime]; exact hlocal.runtime⟩

end SessionKept

section Rules

variable {platform : ChatPlatform} {session : ChatSession} {env : SessionEnv}

/-- Other rooms do not concern the entries. -/
theorem NodesLocal.setRooms {state : ChatState} (h : NodesLocal state)
    (rooms : AList fun _ : ObjId => ChatRoom) : NodesLocal { state with rooms := rooms } :=
  ⟨h.workspace, h.entries⟩

theorem sessionKept_setStorage (h : SessionLocal session)
    (storage : ReplicaStorage Messages MessageAddedEvent) :
    SessionKept session (session.setStorage storage) :=
  ⟨rfl, rfl, rfl, rfl, ⟨h.live, h.saved.setRooms _, .refl _⟩⟩

theorem safe_performEffects (h : SessionLocal session)
    {effects : List (Effect Messages MessageAddedEvent)}
    (hquiet : ∀ effect ∈ effects, effect.isBind = false) :
    (performEffects platform env effects).Safe SessionLocal
      (fun _ final => SessionKept session final) session := by
  induction effects generalizing session with
  | nil => exact SessionKept.refl h
  | cons effect rest ih =>
      have hstored := sessionKept_setStorage h (session.storage.perform effect)
      have hlocal := hstored.sessionLocal h
      have hrest := ih hlocal fun other hmem => hquiet other (List.mem_cons_of_mem _ hmem)
      rw [performEffects, Program.safe_bind]
      have hfirst : performEffect platform env effect =
          .modify fun session => session.setStorage (session.storage.perform effect) := by
        cases effect with
        | bindNode endpoint node bound => cases hquiet _ List.mem_cons_self
        | commitObjectGraph graph => rfl
        | storeObject id layers => rfl
        | saveNode node => rfl
        | saveLinkSyncState nodeId state => rfl
        | send destination bytes => rfl
      rw [hfirst, Program.safe_modify]
      exact ⟨hlocal, hrest.mono fun _ final hfinal => hstored.trans hfinal⟩

theorem performEffects_append {first second : List (Effect Messages MessageAddedEvent)}
    {invariant : ChatSession → Prop} {post : Unit → ChatSession → Prop} :
    (performEffects platform env (first ++ second)).Safe invariant post session ↔
      (performEffects platform env first).Safe invariant
        (fun _ reached => (performEffects platform env second).Safe invariant post reached)
        session := by
  induction first generalizing session with
  | nil => exact Iff.rfl
  | cons effect rest ih =>
      rw [List.cons_append, performEffects, performEffects, Program.safe_bind,
        Program.safe_bind]
      constructor
      · exact fun h => h.mono fun _ _ hrest => ih.mp hrest
      · exact fun h => h.mono fun _ _ hrest => ih.mpr hrest

/-- The state in which the effects of a call are performed. -/
structure CallReturned (session next : ChatSession)
    (after : SharedSyncRuntime Messages MessageAddedEvent) : Prop where
  runtime : next.runtime = session.runtime
  waiting : next.waitingEntryByEndpoint = session.waitingEntryByEndpoint
  offers : next.offers = session.offers
  expectations : next.expectations = after.expectedEndpointNodes
  world : WorldKept session.world next.world

/-- The rule for a call of the synchronization runtime, which may ask the callback only if
`asks` holds. -/
theorem safe_callSync {asks : Prop} {post : Unit → ChatSession → Prop}
    {call : Replica Messages MessageAddedEvent → RuntimeM Messages MessageAddedEvent
      (SharedSyncRuntime Messages MessageAddedEvent)} (hlocal : SessionLocal session)
    (hdoor : ∀ replica after, (call replica).result = .ok after →
      DoorOutcome replica.runtime after (call replica).effects ∧
        (asks ∨ ∀ effect ∈ (call replica).effects, effect.isBind = false))
    (hquiet : ∀ final, SessionKept session final → post () final)
    (hasked : asks → ∀ reached after sourceEndpoint node bound expectation,
      CallReturned session reached after →
      expectationOf session.expectations sourceEndpoint = some expectation →
      after.expectedEndpointNodes = (if bound then session.expectations.erase expectation
        else session.expectations) →
      (importedCallback platform env sourceEndpoint node).Safe SessionLocal
        (fun answer final => SessionLocal final ∧
          (answer = bound → ∀ last, SessionKept final last → post () last)) reached) :
    (callSync platform env call).Safe SessionLocal post session := by
  rw [callSync, Program.safe_bind, Program.safe_read]
  refine ⟨hlocal, ?_⟩
  cases hruntime : session.syncRuntime with
  | none => exact hquiet session (.refl hlocal)
  | some runtime =>
      have hbefore : (session.replicaOf runtime).runtime.expectedEndpointNodes =
          session.expectations := by
        rw [ChatSession.expectations, hruntime]
        rfl
      dsimp only
      cases hresult : (call (session.replicaOf runtime)).result with
      | error reason =>
          intro changed hchanged
          cases hchanged
      | ok after =>
          have hreturned : CallReturned session (session.setRuntime after) after :=
            ⟨rfl, rfl, rfl, rfl, ⟨hlocal.live.setRooms _, hlocal.saved, ⟨fun _ entry h =>
              ⟨entry, h, rfl, fun _ => rfl⟩, fun _ h => h⟩⟩⟩
          have hset : SessionLocal (session.setRuntime after) :=
            ⟨hreturned.world.live, hreturned.world.saved, hlocal.runtime⟩
          show Program.Safe _ (Program.modify _ >>= _) _ _
          rw [Program.safe_bind, Program.safe_modify]
          refine ⟨hset, ?_⟩
          obtain ⟨houtcome, hasks⟩ := hdoor _ after hresult
          cases houtcome with
          | quiet hunasked hexpectations =>
              refine (safe_performEffects hset hunasked).mono ?_
              intro _ final hfinal
              refine hquiet final ⟨hfinal.runtime, hfinal.waiting, hfinal.offers, ?_,
                ⟨hfinal.world.live, hfinal.world.saved,
                  hreturned.world.entries.trans hfinal.world.entries⟩⟩
              rw [hfinal.expectations, hreturned.expectations, hexpectations, hbefore]
          | asked writes rest source node bound expectation hsplit hunasked hopened
              hexpectations =>
              have hmay : asks := by
                rcases hasks with hasks | hnone
                · exact hasks
                · have hbind := hnone (.bindNode source node bound) (by rw [hsplit]; simp)
                  cases hbind
              rw [hbefore] at hopened hexpectations
              rw [hsplit, performEffects_append]
              have hbefores : ∀ effect ∈ writes, effect.isBind = false := fun effect hmem =>
                hunasked effect (List.mem_append_left _ hmem)
              refine (safe_performEffects hset hbefores).mono ?_
              intro _ reached hreached
              have hstate : CallReturned session reached after := by
                refine ⟨hreached.runtime, hreached.waiting, hreached.offers, ?_,
                  ⟨hreached.world.live, hreached.world.saved,
                    hreturned.world.entries.trans hreached.world.entries⟩⟩
                rw [hreached.expectations, hreturned.expectations]
              show Program.Safe _ (performEffects platform env (_ :: rest)) _ _
              rw [performEffects, Program.safe_bind, performEffect, Program.safe_bind]
              refine (hasked hmay reached after source node bound expectation hstate hopened
                hexpectations).mono ?_
              rintro answer final ⟨hfinal, hpost⟩ last hlast
              split at hlast
              case isFalse => cases hlast
              case isTrue hanswer =>
                cases hlast
                refine ⟨hfinal, ?_⟩
                have hafters : ∀ effect ∈ rest, effect.isBind = false := fun effect hmem =>
                  hunasked effect (List.mem_append_right _ hmem)
                exact (safe_performEffects hfinal hafters).mono fun _ last hkept =>
                  hpost hanswer last hkept

end Rules

/-- A program that leaves the session as it is, except for what its rooms and its storage
hold. -/
def KeepsSession {ρ : Type} (program : Program ChatSession ρ) : Prop :=
  ∀ session, SessionLocal session →
    program.Safe SessionLocal (fun _ final => SessionKept session final) session

namespace KeepsSession

variable {platform : ChatPlatform} {env : SessionEnv} {ρ τ : Type}
  {program : Program ChatSession ρ}

theorem pure {result : ρ} : KeepsSession (Pure.pure result : Program ChatSession ρ) :=
  fun _ h => .refl h

theorem bind {rest : ρ → Program ChatSession τ} (h : KeepsSession program)
    (hrest : ∀ result, KeepsSession (rest result)) : KeepsSession (program >>= rest) := by
  intro session hlocal
  rw [Program.safe_bind]
  refine (h session hlocal).mono ?_
  intro result reached hreached
  exact (hrest result reached (hreached.sessionLocal hlocal)).mono fun _ _ hfinal =>
    hreached.trans hfinal

theorem read {rest : ChatSession → Program ChatSession τ}
    (hrest : ∀ session, KeepsSession (rest session)) :
    KeepsSession (Program.read >>= rest) := by
  intro session hlocal
  rw [Program.safe_bind, Program.safe_read]
  exact ⟨hlocal, hrest session session hlocal⟩

theorem modify {f : ChatSession → ChatSession}
    (h : ∀ session, SessionLocal session → SessionKept session (f session)) :
    KeepsSession (Program.modify f) := by
  intro session hlocal
  rw [Program.safe_modify]
  exact ⟨(h session hlocal).sessionLocal hlocal, h session hlocal⟩

theorem change {f : ChatSession → Option ChatSession}
    (h : ∀ session changed, SessionLocal session → f session = some changed →
      SessionKept session changed) : KeepsSession (Program.change f) := by
  intro session hlocal changed hchanged
  have hkept := h session changed hlocal hchanged
  exact ⟨hkept.sessionLocal hlocal, hkept⟩

theorem runPlanned {planned : ChatState → Planned ρ} {clockUs : UInt64}
    (h : ∀ state, StagesKeep state (planned state).stages) :
    KeepsSession (AppTraverse.runPlanned platform clockUs planned) := by
  intro session hlocal
  refine (safe_runPlanned hlocal (h _)).mono ?_
  rintro result final ⟨-, world, rfl, hworld, -⟩
  exact ⟨rfl, rfl, rfl, rfl, hworld⟩

end KeepsSession

section Host

variable {platform : ChatPlatform} {env : SessionEnv} {session : ChatSession}

/-- Other rooms of the replica leave the session as it is. -/
theorem sessionKept_setRooms (h : SessionLocal session)
    (rooms : AList fun _ : ObjId => ChatRoom) :
    SessionKept session { session with world := { session.world with
      live := { session.world.live with rooms := rooms } } } :=
  ⟨rfl, rfl, rfl, rfl, ⟨h.live.setRooms rooms, h.saved, ⟨fun _ entry hentry =>
    ⟨entry, hentry, rfl, fun _ => rfl⟩, fun _ hmem => hmem⟩⟩⟩

theorem keepsSession_persistWorkspace : KeepsSession persistWorkspace := by
  apply KeepsSession.modify
  intro session h
  exact ⟨rfl, rfl, rfl, rfl, ⟨h.live, h.live, .refl _⟩⟩

theorem expectations_registerRoom (session : ChatSession) (roomId : ObjId) :
    (registerRoom session roomId).expectations = session.expectations := by
  unfold registerRoom
  split
  · rfl
  unfold ChatSession.expectations ChatSession.mapSync
  cases session.syncRuntime with
  | none => rfl
  | some runtime =>
      show SharedSyncRuntime.expectedEndpointNodes (if _ then _ else _) = _
      split
      · rfl
      · rfl

theorem sessionKept_registerRoom (h : SessionLocal session) (roomId : ObjId) :
    SessionKept session (registerRoom session roomId) := by
  have hexpectations := expectations_registerRoom session roomId
  unfold registerRoom at hexpectations ⊢
  split
  · exact .refl h
  case h_2 room hroom =>
    rw [hroom] at hexpectations
    exact ⟨rfl, rfl, rfl, hexpectations, h.worldKept⟩

theorem keepsSession_sendJoinAccepted {clientUid : Bytes} {attemptId roomId : ObjId} :
    KeepsSession (sendJoinAccepted platform clientUid attemptId roomId) := by
  apply KeepsSession.bind
  · apply KeepsSession.modify
    intro session h
    split
    · exact ⟨rfl, rfl, rfl, rfl, h.worldKept⟩
    · exact .refl h
  · intro _
    exact KeepsSession.modify fun session h => sessionKept_registerRoom h roomId

theorem keepsSession_syncRoom {roomId : ObjId} {clientUid : Bytes} :
    KeepsSession (syncRoom platform env roomId clientUid) := by
  apply KeepsSession.read
  intro session
  split
  · exact .pure
  split
  · exact .pure
  intro start h
  apply safe_callSync h
  · intro replica after hresult
    obtain ⟨houtcome, -, hnone⟩ := doorOutcome_syncInitialState hresult
    exact ⟨houtcome, (Or.inr hnone : False ∨ _)⟩
  · exact fun _ hkept => hkept
  · exact fun hfalse : False => hfalse.elim

theorem keepsSession_sendJoinRejected {clientUid reason : Bytes} {attemptId : ObjId} :
    KeepsSession (sendJoinRejected platform clientUid attemptId reason) := by
  apply KeepsSession.modify
  intro session h
  split
  · exact .refl h
  · exact ⟨rfl, rfl, rfl, rfl, h.worldKept⟩

theorem keepsSession_addRoomShare {clockUs : UInt64} {roomId eventId : ObjId}
    {link : Ref Link} : KeepsSession (addRoomShare platform clockUs roomId eventId link) := by
  apply KeepsSession.change
  intro session changed h hchanged
  obtain ⟨room, -, hadded⟩ := Option.bind_eq_some_iff.mp hchanged
  obtain ⟨after, -, rfl⟩ := Option.map_eq_some_iff.mp hadded
  exact sessionKept_setRooms h _

theorem sessionKept_blockCompaction (h : SessionLocal session) (roomId : ObjId) :
    SessionKept session (session.blockCompaction roomId) := by
  unfold ChatSession.blockCompaction
  split
  · exact .refl h
  · exact sessionKept_setRooms h _

/-- A host that accepts a client does not move its own join. -/
theorem safe_acceptNewClient (h : SessionLocal session) (hfresh : SessionIdsFresh session env)
    {clientUid : Bytes} {req : ChatBootstrapMessage} :
    (acceptNewClient platform env clientUid req).Safe SessionLocal
      (fun _ final => SessionKept session final) session := by
  rw [acceptNewClient, Program.safe_bind]
  refine (safe_runPlanned h (openOrSelectChat_stagesKeep hfresh.valid (hfresh.entries 0))).mono ?_
  rintro entryId reached ⟨-, world, rfl, hworld, -⟩
  have hreached : SessionKept session { session with world := world } :=
    ⟨rfl, rfl, rfl, rfl, hworld⟩
  split
  · exact hreached
  refine (KeepsSession.bind ?_ ?_ _ (h.setWorld hworld)).mono fun _ _ hfinal =>
    hreached.trans hfinal
  · exact KeepsSession.modify fun session hlocal => sessionKept_setRooms hlocal _
  intro _
  apply KeepsSession.bind
  · exact KeepsSession.modify fun session hlocal => sessionKept_blockCompaction hlocal _
  intro _
  apply KeepsSession.read
  intro session
  apply KeepsSession.bind keepsSession_addRoomShare
  intro _
  apply KeepsSession.bind keepsSession_addRoomShare
  intro _
  apply KeepsSession.bind (KeepsSession.runPlanned fun _ => bindChat_stagesKeep)
  intro bound
  split
  · exact .pure
  apply KeepsSession.bind keepsSession_persistWorkspace
  intro _
  apply KeepsSession.bind keepsSession_sendJoinAccepted
  intro _
  exact keepsSession_syncRoom

theorem safe_hostAcceptClient (h : SessionLocal session) (hfresh : SessionIdsFresh session env)
    {clientUid : Bytes} {req : ChatBootstrapMessage} :
    (hostAcceptClient platform env clientUid req).Safe SessionLocal
      (fun _ final => SessionKept session final) session := by
  rw [hostAcceptClient, Program.safe_bind, Program.safe_read]
  refine ⟨h, ?_⟩
  split
  · exact .refl h
  split
  · exact .refl h
  split
  · exact .refl h
  extract_lets roomId
  split
  · exact safe_acceptNewClient h hfresh
  split
  · exact keepsSession_sendJoinRejected session h
  refine KeepsSession.bind keepsSession_persistWorkspace ?_ session h
  intro _
  apply KeepsSession.bind keepsSession_sendJoinAccepted
  intro _
  apply KeepsSession.read
  intro reached
  split
  · exact KeepsSession.change fun _ _ _ hnone => by cases hnone
  · exact .pure
  · exact keepsSession_syncRoom

end Host

end AppTraverse
