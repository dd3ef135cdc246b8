import AppTraverse.Delivery.LedgerSteps

/-!
# Retries are exact and durable

`ledger_step` puts the operations together: every step of a replica is a step of its
outbox, and the guarantees of an outbox carry over to every run.

Retries are exact as long as no admitted payload brings sync states of its own.  The
initial snapshot is meant to cut them (a `LocalPtr` travels as an empty id), and an
admission does not check that it did.
-/

namespace AppTraverse

open Foundations

variable {α ε : Type} {aether : Aether α ε} {app : AppClass α ε}

/-- A packet of a state is a packet of its Node. -/
theorem mem_nodePackets_of_state {node : SharedNode α ε} {index : Nat} {state : LinkSyncState}
    {packet : PacketKey × Bytes} (hstate : linkSyncStateAt node index = .ok state)
    (hmem : packet ∈ state.pendingPackets node.objId) : packet ∈ nodePackets node := by
  obtain ⟨found, hfound, hobj⟩ :=
    Option.bind_eq_some_iff.mp (linkSyncStateAt_eq_ok_iff.mp hstate)
  refine List.mem_flatMap.mpr ⟨found, List.mem_of_getElem? hfound, ?_⟩
  rw [entryPackets, hobj]
  exact hmem

/-- The Node and the relationship that a synchronization call names. -/
theorem IsSyncDestination.key {runtime : SharedSyncRuntime α ε} {nodeId shareId eventId : ObjId}
    {node : SharedNode α ε} {destination : Bytes} {index : Nat} {state : LinkSyncState}
    (h : IsSyncDestination runtime nodeId shareId node destination index state) :
    (⟨node.objId, state.shareId, eventId⟩ : PacketKey) = ⟨nodeId, shareId, eventId⟩ := by
  rw [objId_of_findNode h.found,
    shareId_of_findLinkSyncIndex h.index_eq (linkSyncStateAt_eq_ok_iff.mp h.state_eq)]

/-- Every step of a replica is a step of its outbox. -/
theorem ledger_step {history next : PacketHistory α ε} {box : Outbox PacketKey Bytes}
    {action : ReplicaAction ε} (h : LedgerInvariant history box)
    (hdraws : DrawsNewIds aether history action) (hbrings : BringsNoStates aether action)
    (hstep : packetStep aether app history action = some next) :
    ∃ box' sending, Outbox.Step box box' sending ∧ LedgerInvariant next box' ∧
      SendsOnly history.replica.storage (action.outcome aether app history.replica).effects
        box'.durable sending := by
  obtain ⟨runtime', hresult, rfl⟩ := packetStep_eq_some_iff.mp hstep
  cases action with
  | receive env sourceEndpoint bytes => exact ledger_receive h hdraws hbrings hresult
  | syncInitialState env nodeId shareId =>
      obtain ⟨hvalid, hnew⟩ := hdraws
      simp only [ReplicaAction.outcome] at hresult ⊢
      obtain ⟨node, destination, index, state, hdestination, ⟨-, heffects, rfl⟩ |
        ⟨hphase, heffects, rfl⟩ | ⟨frozen, hopen, -, hbegun⟩⟩ := syncInitialState_cases hresult
      · rw [heffects]
        exact ledger_quiet h (quietOutcome_of_same h rfl (by simp))
      · rw [heffects]
        refine ledger_resend h ⟨node.objId, state.shareId, state.pendingInitialPacketId⟩ ?_
        refine ⟨node, List.mem_of_find?_eq_some hdestination.found, ?_⟩
        exact mem_nodePackets_of_state hdestination.state_eq
          (by simp [LinkSyncState.pendingPackets, hphase])
      · obtain ⟨committed, hcommit, heffects, rfl⟩ := hbegun.outcome
        rw [heffects]
        obtain ⟨before, after, hbefore, hafter, hcommitted⟩ :=
          commitLinkSyncEvent_eq_ok_iff.mp hcommit
        cases hdestination.state_eq.symm.trans hbefore
        obtain ⟨hnone, hone⟩ := pendingPackets_of_beginInitialSync node.objId hafter
        refine ledger_freeze h (List.mem_of_find?_eq_some hdestination.found) hbefore hvalid
          (.beginInitial hopen (encodeNodeStateFrame_ne_nil _)) hafter hcommitted hnone hone
          ?_ hnew rfl
        rw [hdestination.key]
        exact packetKeyOf_encodeNodeStateFrame _
  | syncNextEvent env nodeId shareId =>
      obtain ⟨hvalid, hnew⟩ := hdraws
      simp only [ReplicaAction.outcome] at hresult ⊢
      obtain ⟨node, destination, index, state, hdestination, ⟨heffects, rfl⟩ |
        ⟨hphase, hpending, heffects, rfl⟩ |
        ⟨record, event, payload, hcomplete, hidle, hfrozen, hbegun⟩⟩ :=
        syncNextEvent_cases hresult
      · rw [heffects]
        exact ledger_quiet h (quietOutcome_of_same h rfl (by simp))
      · rw [heffects]
        refine ledger_resend h ⟨node.objId, state.shareId, state.pendingEventPacketId⟩ ?_
        refine ⟨node, List.mem_of_find?_eq_some hdestination.found, ?_⟩
        exact mem_nodePackets_of_state hdestination.state_eq
          (by simp [LinkSyncState.pendingPackets, hphase, hpending])
      · obtain ⟨committed, hcommit, heffects, rfl⟩ := hbegun.outcome
        rw [heffects]
        obtain ⟨before, after, hbefore, hafter, hcommitted⟩ :=
          commitLinkSyncEvent_eq_ok_iff.mp hcommit
        cases hdestination.state_eq.symm.trans hbefore
        obtain ⟨-, hshared, hundelivered, -⟩ := undelivered_of_nextUndelivered hfrozen.next
        obtain ⟨hnone, hone⟩ := pendingPackets_of_beginIncrementalEventSync
          node.objId hvalid hafter
        refine ledger_freeze h (List.mem_of_find?_eq_some hdestination.found) hbefore hvalid
          (.beginEvent hcomplete hidle hshared hundelivered (encodeEventFrame_ne_nil _))
          hafter hcommitted hnone hone ?_ hnew rfl
        rw [hdestination.key]
        exact packetKeyOf_encodeEventFrame _
  | operate ids nowUs nodeId operation =>
      simp only [ReplicaAction.outcome] at hresult ⊢
      cases hfound : findNode history.replica.runtime.nodes nodeId with
      | none => simp [hfound] at hresult
      | some node =>
          cases hrun : operation.run app ids nowUs node with
          | error reason => simp [hfound, hrun] at hresult
          | ok changed =>
              simp only [hfound, hrun, pureStep_ok_bind, EffectLog.pure_result,
                Except.ok.injEq] at hresult ⊢
              have hoperated := nodeOperated_of_run hrun
              exact ledger_quiet h (quietOutcome_of_operated h
                (List.mem_of_find?_eq_some hfound) (objId_of_operated hoperated)
                (statesFrom_of_operated hoperated) (by rw [← hresult]))
  | saveNode nodeId =>
      simp only [ReplicaAction.outcome] at hresult ⊢
      cases hfound : findNode history.replica.runtime.nodes nodeId with
      | none => simp [hfound] at hresult
      | some node =>
          simp only [hfound, perform_bind, EffectLog.pure_result, EffectLog.pure_effects,
            Except.ok.injEq] at hresult ⊢
          rw [← hresult]
          exact ledger_quiet h (quietOutcome_of_saved h (List.mem_of_find?_eq_some hfound))
  | restart =>
      cases hresult
      exact ledger_quiet h (quietOutcome_of_restarted h)

/-- The invariant of the outbox gives the guarantee of one step. -/
theorem retryIsExact_of_ledger {history : PacketHistory α ε} {box : Outbox PacketKey Bytes}
    {action : ReplicaAction ε} (h : LedgerInvariant history box)
    (hdraws : DrawsNewIds aether history action) (hbrings : BringsNoStates aether action) :
    RetryIsExact aether app history action := by
  refine ⟨fun next hnext before destination bytes after key heffects hkey => ?_,
    fun next hnext key bytes bytes' hsent hsent' => ?_, fun next hnext packet hpacket => ?_⟩
  · obtain ⟨box', sending, hstep, -, hsends⟩ := ledger_step h hdraws hbrings hnext
    have hmem : (key, bytes) ∈
        sentPackets (action.outcome aether app history.replica).effects := by
      rw [heffects]
      exact List.mem_filterMap.mpr ⟨.send destination bytes, by simp, by simp [hkey]⟩
    rw [hsends.sent, Option.mem_toList] at hmem
    rw [hmem] at hstep
    rw [hsends.saved before destination bytes after key heffects hkey]
    exact h.sound.durable_of_send hstep
  · obtain ⟨box', sending, -, hnextLedger, -⟩ := ledger_step h hdraws hbrings hnext
    exact hnextLedger.sound.sent_eq (hnextLedger.sent _ hsent) (hnextLedger.sent _ hsent')
  · obtain ⟨box', sending, hstep, -, hsends⟩ := ledger_step h hdraws hbrings hnext
    rw [hsends.sent, Option.mem_toList] at hpacket
    rw [hpacket] at hstep
    exact fun hcompleted => h.sound.not_completed_of_send hstep (h.completed _ hcompleted)

/-- Nothing has been synchronized yet: the registered and the saved Nodes have distinct
ids, and their sync states are as they were created. -/
structure StartsUnsynchronized (history : PacketHistory α ε) : Prop where
  registered : (history.replica.runtime.nodes.map fun node => node.objId).Nodup
  saved : (history.replica.storage.nodes.map fun node => node.objId).Nodup
  localStates : ∀ node ∈ history.replica.runtime.nodes ++ history.replica.storage.nodes,
    HasLocalStates node
  nothingSent : history.sent = [] ∧ history.completed = []

section CarriedPackets

/-- The surroundings of a call at the client that draws this id. -/
def drawingEnv (eventId : UInt32) : StepEnv := { receiverEnv true with eventId := ⟨eventId⟩ }

/-- A packet for the relationship of a third endpoint. -/
def carriedPacket (content : UInt8) : Bytes :=
  encodeNodeStateFrame ⟨⟨77⟩, ⟨10⟩, ⟨16⟩, [content]⟩

/-- A sync state that has one packet id pending twice, for different bytes. -/
def carriedState : LinkSyncState :=
  { LinkSyncState.fresh ⟨16⟩ ⟨17⟩ with
    initialSyncPhase := .pending
    pendingInitialPacketId := ⟨77⟩
    pendingInitialPacket := carriedPacket 1
    pendingEventPacketId := ⟨77⟩
    pendingEventPacket := carriedPacket 2 }

/-- A room with a third relationship, whose sync state travels in the payload. -/
def carriesPackets : List ChatObject :=
  [linkObject 12 hostEndpoint, linkObject 13 clientEndpoint, linkObject 17 [120],
    eventObject 14 (addShareOf 12), eventObject 15 (addShareOf 13),
    eventObject 16 (addShareOf 17),
    (⟨30⟩, { classId := linkSyncStateClassId, body := .linkSyncState carriedState }),
    roomObject 11 0 [] [] [] [],
    roomObject 10 11 [share 14 12, share 15 13, share 16 17] []
      [record 14 1 {}, record 15 2 {}, record 16 3 {}] [⟨30⟩]]

/-- The client imports the room, sends what is pending, and receives the Ack. -/
def carriedRun : List (ReplicaAction MessageAddedEvent) :=
  [.receive (drawingEnv 2000) hostEndpoint
      (encodeNodeStateFrame (frameOf 900 10 15 carriesPackets)),
    .syncInitialState (drawingEnv 2001) ⟨10⟩ ⟨16⟩,
    .receive (drawingEnv 2002) [120] (encodeAckFrame ⟨⟨77⟩, ⟨10⟩, ⟨16⟩⟩)]

/-- The step that sends other bytes under the completed packet id. -/
def carriedRetry : ReplicaAction MessageAddedEvent :=
  .syncNextEvent (drawingEnv 2003) ⟨10⟩ ⟨16⟩

/-- The history of a client that has not done anything. -/
def waitingHistory : PacketHistory Messages MessageAddedEvent := { replica := waitingClient }

theorem drawn_of_packetStep {history next : PacketHistory α ε} {action : ReplicaAction ε}
    (h : packetStep aether app history action = some next) :
    next.drawn = history.drawn ++ action.drawn := by
  obtain ⟨runtime', -, rfl⟩ := packetStep_eq_some_iff.mp h
  rfl

/-- The bytes of an Ack decode as no NodeState. -/
theorem decodeNodeStateFrame_encodeAckFrame {frame : AckFrame} {decoded : NodeStateFrame} :
    decodeNodeStateFrame (encodeAckFrame frame) ≠ some decoded := by
  intro hdecode
  have hpeek := peekSyncFrameType_encodeNodeStateFrame decoded
  rw [(encode_of_decodeNodeStateFrame hdecode).2, peekSyncFrameType_encodeAckFrame] at hpeek
  cases hpeek

theorem cutsLocalStates_encodeAckFrame (frame : AckFrame) :
    CutsLocalStates aether (encodeAckFrame frame) := by
  intro decoded parsed object shared states hdecode
  exact absurd hdecode decodeNodeStateFrame_encodeAckFrame

theorem drawsNewIds_ack {history : PacketHistory Messages MessageAddedEvent}
    {eventId : UInt32} {sourceEndpoint : Bytes} {frame : AckFrame}
    (hvalid : (⟨eventId⟩ : ObjId).isValid = true) (hnew : ⟨eventId⟩ ∉ history.drawn) :
    DrawsNewIds chatAether history
      (.receive (drawingEnv eventId) sourceEndpoint (encodeAckFrame frame) :
        ReplicaAction MessageAddedEvent) :=
  ⟨hvalid, hnew, fun _ hdecode => absurd hdecode decodeNodeStateFrame_encodeAckFrame⟩

/-- Both packets were sent. -/
def sentBoth (history : PacketHistory Messages MessageAddedEvent) : Bool :=
  decide ((⟨⟨10⟩, ⟨16⟩, ⟨77⟩⟩, carriedPacket 1) ∈ history.sent) &&
    decide ((⟨⟨10⟩, ⟨16⟩, ⟨77⟩⟩, carriedPacket 2) ∈ history.sent)

end CarriedPackets

section RoomRetry

/-- A host that has not synchronized its room. -/
def hostHistory : PacketHistory Messages MessageAddedEvent := { replica := unsyncedHost }

/-- It sends the room, restarts, sends it again, and receives the Ack. -/
def roomRetry : List (ReplicaAction MessageAddedEvent) :=
  [.syncInitialState (drawingEnv 2000) ⟨10⟩ ⟨15⟩, .restart,
    .syncInitialState (drawingEnv 2001) ⟨10⟩ ⟨15⟩,
    .receive (drawingEnv 2002) clientEndpoint (encodeAckFrame ⟨⟨2000⟩, ⟨10⟩, ⟨15⟩⟩)]

end RoomRetry

end AppTraverse
