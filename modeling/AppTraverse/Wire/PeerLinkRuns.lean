import AppTraverse.Wire.AetherThread
import AppTraverse.Wire.WritePumpRuns

/-!
# The peers of the thread, each for itself

Every step of the thread makes each peer take steps of its own, and each of these makes the
write pump of the peer take its steps.  So what holds along the runs of a pump holds for every
peer of the thread, whatever happens to the others in between.
-/

namespace AppTraverse

open Foundations

namespace PeerState

variable {peer : PeerState} {kind other : AetherFrameKind} {bytes : Bytes}

/-- The frames of a kind that were queued, or fell together with an equal one. -/
def queuedFrames (peer : PeerState) (kind : AetherFrameKind) : List Bytes :=
  ((peer.accepted ++ peer.coalesced).filter fun item => decide (item.kind = kind)).map
    PendingOut.bytes

/-- What a frame adds to the queued frames of a kind. -/
def addsTo (kind other : AetherFrameKind) (bytes : Bytes) : List Bytes :=
  if kind = other then [bytes] else []

theorem queuedFrames_push :
    ((peer.push kind bytes).queuedFrames other).Perm
      (peer.queuedFrames other ++ addsTo kind other bytes) := by
  unfold queuedFrames push addsTo
  rw [List.append_assoc, List.filter_append, List.filter_append, List.filter_append,
    List.map_append, List.map_append, List.map_append, List.append_assoc]
  apply List.Perm.append_left
  apply List.perm_append_comm.trans
  apply List.Perm.append_left
  by_cases hkind : kind = other
  · simp [hkind]
  · simp [hkind]

theorem queuedFrames_queuePending :
    ((peer.queuePending kind bytes).queuedFrames other).Perm
      (peer.queuedFrames other ++ addsTo kind other bytes) := by
  unfold queuePending
  split
  case isTrue =>
    unfold queuedFrames addsTo
    rw [← List.append_assoc, List.filter_append, List.map_append]
    apply List.Perm.append_left
    by_cases hkind : kind = other
    · simp [hkind]
    · simp [hkind]
  case isFalse => exact queuedFrames_push

/-- A frame of the application or of the join protocol. -/
def isCommanded (kind : AetherFrameKind) : Prop :=
  kind = .application ∨ kind = .control

theorem queuedFrames_heartbeat {nonce : UInt64} (hkind : isCommanded kind) :
    ((peer.scheduleHeartbeatPing nonce).queuedFrames kind).Perm (peer.queuedFrames kind) := by
  unfold scheduleHeartbeatPing
  split
  case isTrue => exact List.Perm.refl _
  case isFalse =>
  split
  case isTrue => exact List.Perm.refl _
  case isFalse =>
    have hadds : addsTo .heartbeatPing kind (encodeHeartbeatNonce nonce) = [] := by
      rcases hkind with rfl | rfl
      · rfl
      · rfl
    refine queuedFrames_queuePending.trans ?_
    rw [hadds, List.append_nil]

theorem queuedFrames_queuePong {pongBytes : Bytes} (hkind : isCommanded kind) :
    ((peer.queuePong pongBytes).queuedFrames kind).Perm (peer.queuedFrames kind) := by
  unfold queuePong
  split
  case isTrue => exact List.Perm.refl _
  case isFalse =>
    have hadds : addsTo .heartbeatPong kind pongBytes = [] := by
      rcases hkind with rfl | rfl
      · rfl
      · rfl
    refine queuedFrames_push.trans ?_
    rw [hadds, List.append_nil]
    exact List.Perm.refl _

theorem queuedFrames_processWriteNotice :
    peer.processWriteNotice.queuedFrames kind = peer.queuedFrames kind := by
  unfold processWriteNotice
  split
  case isTrue => rfl
  case isFalse =>
  split
  case h_1 => rfl
  case h_2 =>
    dsimp only
    split
    case isTrue => rfl
    case isFalse =>
    split
    case isTrue => rfl
    case isFalse => rfl

theorem queuedFrames_applyWriteStatus {token incarnation : UInt64} {status : WriteStatus} :
    (peer.applyWriteStatus token incarnation status).queuedFrames kind =
      peer.queuedFrames kind := by
  unfold applyWriteStatus
  split
  case isTrue => rfl
  case isFalse =>
  split
  case isTrue => rfl
  case isFalse => rfl

theorem queuedFrames_tryStartWrite {info : StreamInfo} {finished : Bool} :
    (peer.tryStartWrite info finished).queuedFrames kind = peer.queuedFrames kind := by
  unfold tryStartWrite
  split
  case isTrue => rfl
  case isFalse =>
    obtain ⟨dropped, rest, -, -, ⟨hresult, -⟩ | ⟨item, tail, -, -, hresult⟩⟩ :=
      tryStartWriteLoop_cases info finished peer.pendingOut peer
    · rw [hresult]
      rfl
    · rw [hresult]
      rfl

end PeerState

namespace PeerLink

variable {config : EndpointConfig} {nowMs : UInt64} {link next : PeerLink}

@[simp] theorem emit_pump {effect : PeerEffect} : (link.emit effect).pump = link.pump := rfl

@[simp] theorem setPresence_pump {reported : PeerPresence} :
    (link.setPresence nowMs reported).pump = link.pump := by
  unfold setPresence
  split
  case isTrue => rfl
  case isFalse => rfl

@[simp] theorem connect_pump : (link.connect nowMs).pump = link.pump := by
  unfold connect
  split
  case isTrue => exact setPresence_pump
  case isFalse => rfl

@[simp] theorem disconnect_pump : (link.disconnect nowMs).pump = link.pump := by
  unfold disconnect
  split
  case isTrue => exact setPresence_pump
  case isFalse => rfl

@[simp] theorem startRx_pump : (link.startRx nowMs).pump = link.pump := by
  unfold startRx
  split
  case isTrue => rfl
  case isFalse => rfl

@[simp] theorem onStreamUpdate_pump {state : LinkState} :
    (link.onStreamUpdate nowMs state).pump = link.pump := by
  unfold onStreamUpdate
  split
  case isFalse => rfl
  case isTrue =>
    cases state with
    | linked => exact connect_pump
    | unlinked => exact disconnect_pump
    | linkError => exact disconnect_pump
    | other => rfl

@[simp] theorem bindPeerStream_pump {linked : Bool} :
    (link.bindPeerStream nowMs linked).pump = link.pump.bindPeerStream :=
  startRx_pump.trans connect_pump

@[simp] theorem closePeer_pump : (link.closePeer nowMs).pump = link.pump.closePeer :=
  setPresence_pump

@[simp] theorem processWriteNotice_pump :
    (link.processWriteNotice config nowMs).pump = link.pump.processWriteNotice := by
  unfold processWriteNotice
  dsimp only
  split
  case isTrue => exact setPresence_pump
  case isFalse => rfl

@[simp] theorem pumpRound_pump {info : StreamInfo} {finished : Bool} :
    (link.pumpRound config nowMs info finished).pump = link.pump.pump info finished := by
  show (link.processWriteNotice config nowMs).pump.tryStartWrite info finished = _
  rw [processWriteNotice_pump]
  rfl

@[simp] theorem checkSilence_pump : (link.checkSilence config nowMs).pump = link.pump := by
  unfold checkSilence
  split
  case isTrue =>
    split
    case isTrue => exact setPresence_pump
    case isFalse => rfl
  case isFalse => rfl

/-- The pump sends its ping when one is due. -/
theorem onTimers_pump {nonce : UInt64} :
    (link.onTimers config nowMs nonce).pump =
      if link.pingIsDue config nowMs then link.pump.scheduleHeartbeatPing nonce
      else link.pump := by
  show ((link.sendHeartbeat config nowMs nonce).checkSilence config nowMs).pump = _
  rw [checkSilence_pump]
  unfold sendHeartbeat
  by_cases hdue : link.pingIsDue config nowMs = true
  · rw [if_pos hdue, if_pos hdue]
    dsimp only
    split
    case isTrue => rfl
    case isFalse => rfl
  · rw [if_neg hdue, if_neg hdue]

/-- What a frame does to the peer that it came from, by its kind. -/
def onFrame (nowMs : UInt64) (link : PeerLink) (frame : AetherFrame) (nonce : UInt64) :
    PeerLink :=
  let heard := link.hear nowMs frame.kind
  match frame.kind with
  | .heartbeatPing =>
      let answered := { heard with lastHeartbeatRxMs := nowMs }.setPresence nowMs .online
      { answered with pump := answered.pump.queuePong (encodeHeartbeatNonce nonce) }
  | .heartbeatPong => { heard with lastHeartbeatRxMs := nowMs }.setPresence nowMs .online
  | .application => (heard.setPresence nowMs .online).emit (.frame frame.payload)
  | .control => heard.emit (.control frame.payload)

/-- Data is no frame and changes nothing, or it is a frame. -/
theorem onStreamData_cases {data : Bytes} (h : link.onStreamData nowMs data = .ok next) :
    (∃ frame, decodeAetherFrame data ⟨.application, []⟩ = .ok (false, frame) ∧ next = link) ∨
      ∃ frame nonce, decodeAetherFrame data ⟨.application, []⟩ = .ok (true, frame) ∧
        (frame.kind = .heartbeatPing → decodeHeartbeatNonce frame.payload = .ok nonce) ∧
        next = link.onFrame nowMs frame nonce := by
  unfold onStreamData at h
  obtain ⟨⟨accepted, kind, payload⟩, hdecode, h⟩ := except_bind_eq_ok_iff.mp h
  cases accepted with
  | false =>
      cases h
      exact Or.inl ⟨⟨kind, payload⟩, hdecode, rfl⟩
  | true =>
      refine Or.inr ?_
      cases kind with
      | heartbeatPing =>
          obtain ⟨nonce, hnonce, h⟩ := except_bind_eq_ok_iff.mp h
          cases h
          exact ⟨_, nonce, hdecode, fun _ => hnonce, rfl⟩
      | heartbeatPong =>
          cases h
          exact ⟨_, 0, hdecode, (fun hkind => by cases hkind), rfl⟩
      | application =>
          cases h
          exact ⟨_, 0, hdecode, (fun hkind => by cases hkind), rfl⟩
      | control =>
          cases h
          exact ⟨_, 0, hdecode, (fun hkind => by cases hkind), rfl⟩

/-- The pump of a peer answers pings, and other frames leave it alone. -/
theorem onFrame_pump {frame : AetherFrame} {nonce : UInt64} :
    (link.onFrame nowMs frame nonce).pump =
      if frame.kind = .heartbeatPing then link.pump.queuePong (encodeHeartbeatNonce nonce)
      else link.pump := by
  obtain ⟨kind, payload⟩ := frame
  cases kind with
  | heartbeatPing =>
      show (setPresence nowMs _ .online).pump.queuePong _ = link.pump.queuePong _
      rw [setPresence_pump]
      rfl
  | heartbeatPong => exact setPresence_pump
  | application => exact setPresence_pump
  | control => rfl

/-- The pump answers the ping of a frame. -/
theorem onStreamData_pump {data : Bytes} (h : link.onStreamData nowMs data = .ok next) :
    next.pump = link.pump ∨ link.pump.onStreamData data = .ok next.pump := by
  obtain ⟨frame, -, rfl⟩ | ⟨frame, nonce, hdecode, hnonce, rfl⟩ := onStreamData_cases h
  · exact Or.inl rfl
  · by_cases hkind : frame.kind = .heartbeatPing
    · refine Or.inr ?_
      rw [onFrame_pump, if_pos hkind]
      unfold PeerState.onStreamData
      rw [hdecode]
      simp [hkind, hnonce hkind, bind, Except.bind, pure, Except.pure]
    · exact Or.inl (by rw [onFrame_pump, if_neg hkind])

/-- A step of a peer is a run of its pump. -/
theorem step_pump {action : LinkAction} (h : link.step config nowMs action = some next) :
    ∃ inputs, runActions PeerState.step link.pump inputs = some next.pump := by
  cases action with
  | send bytes =>
      cases h
      exact ⟨[.send bytes], rfl⟩
  | sendControl bytes =>
      cases h
      exact ⟨[.sendControl bytes], rfl⟩
  | bindStream linked =>
      cases h
      exact ⟨[.bindStream], congrArg some bindPeerStream_pump.symm⟩
  | close =>
      cases h
      exact ⟨[.close], congrArg some closePeer_pump.symm⟩
  | streamData data =>
      unfold step at h
      dsimp only at h
      split at h
      case isFalse => cases h
      case isTrue =>
        rcases onStreamData_pump (toOption_eq_some_iff.mp h) with hsame | hpong
        · exact ⟨[], congrArg some hsame.symm⟩
        · refine ⟨[.streamData data], ?_⟩
          simp [runActions, PeerState.step, hpong, Except.toOption]
  | streamUpdate state =>
      cases h
      exact ⟨[], congrArg some onStreamUpdate_pump.symm⟩
  | writeStatus token incarnation status =>
      cases h
      exact ⟨[.writeStatus token incarnation status], rfl⟩
  | timers nonce =>
      cases h
      rw [onTimers_pump]
      split
      case isTrue => exact ⟨[.heartbeat nonce], rfl⟩
      case isFalse => exact ⟨[], rfl⟩
  | pump info finished =>
      cases h
      exact ⟨[.pump info finished], congrArg some pumpRound_pump.symm⟩

/-- A run of a peer is a run of its pump. -/
theorem run_pump {actions : List LinkAction}
    (h : runActions (step config nowMs) link actions = some next) :
    ∃ inputs, runActions PeerState.step link.pump inputs = some next.pump := by
  induction actions generalizing link with
  | nil =>
      cases h
      exact ⟨[], rfl⟩
  | cons action rest ih =>
      obtain ⟨middle, hstep, hrest⟩ := runActions_cons.mp h
      obtain ⟨first, hfirst⟩ := step_pump hstep
      obtain ⟨others, hothers⟩ := ih hrest
      exact ⟨first ++ others, runActions_append.mpr ⟨middle.pump, hfirst, hothers⟩⟩

end PeerLink

/-- What an action sends to the peer. -/
def LinkAction.sends (kind : AetherFrameKind) : LinkAction → List Bytes
  | .send bytes => PeerState.addsTo .application kind bytes
  | .sendControl bytes => PeerState.addsTo .control kind bytes
  | _ => []

namespace PeerLink

variable {config : EndpointConfig} {nowMs : UInt64} {link next : PeerLink}
  {kind : AetherFrameKind}

/-- Only what is sent to a peer is queued for it, apart from heartbeats. -/
theorem step_queuedFrames (hkind : PeerState.isCommanded kind) {action : LinkAction}
    (h : link.step config nowMs action = some next) :
    (next.pump.queuedFrames kind).Perm (link.pump.queuedFrames kind ++ action.sends kind) := by
  have hkept : ∀ {pump : PeerState}, pump.queuedFrames kind = link.pump.queuedFrames kind →
      (pump.queuedFrames kind).Perm (link.pump.queuedFrames kind ++ []) := by
    intro pump hsame
    rw [hsame, List.append_nil]
  cases action with
  | send bytes =>
      cases h
      exact PeerState.queuedFrames_queuePending
  | sendControl bytes =>
      cases h
      exact PeerState.queuedFrames_queuePending
  | bindStream linked =>
      cases h
      rw [bindPeerStream_pump]
      exact hkept rfl
  | close =>
      cases h
      rw [closePeer_pump]
      exact hkept rfl
  | streamData data =>
      unfold step at h
      dsimp only at h
      split at h
      case isFalse => cases h
      case isTrue =>
        obtain ⟨frame, -, rfl⟩ | ⟨frame, nonce, -, -, rfl⟩ :=
          onStreamData_cases (toOption_eq_some_iff.mp h)
        · exact hkept rfl
        · rw [onFrame_pump]
          split
          case isTrue => simpa [LinkAction.sends] using PeerState.queuedFrames_queuePong hkind
          case isFalse => exact hkept rfl
  | streamUpdate state =>
      cases h
      rw [onStreamUpdate_pump]
      exact hkept rfl
  | writeStatus token incarnation status =>
      cases h
      exact hkept PeerState.queuedFrames_applyWriteStatus
  | timers nonce =>
      cases h
      rw [onTimers_pump]
      split
      case isTrue => simpa [LinkAction.sends] using PeerState.queuedFrames_heartbeat hkind
      case isFalse => exact hkept rfl
  | pump info finished =>
      cases h
      rw [pumpRound_pump]
      exact hkept (PeerState.queuedFrames_tryStartWrite.trans
        PeerState.queuedFrames_processWriteNotice)

theorem run_queuedFrames (hkind : PeerState.isCommanded kind) {actions : List LinkAction}
    (h : runActions (step config nowMs) link actions = some next) :
    (next.pump.queuedFrames kind).Perm
      (link.pump.queuedFrames kind ++ actions.flatMap (LinkAction.sends kind)) := by
  induction actions generalizing link with
  | nil =>
      cases h
      rw [List.flatMap_nil, List.append_nil]
  | cons action rest ih =>
      obtain ⟨middle, hstep, hrest⟩ := runActions_cons.mp h
      rw [List.flatMap_cons, ← List.append_assoc]
      exact (ih hrest).trans ((step_queuedFrames hkind hstep).append_right _)

end PeerLink
end AppTraverse
