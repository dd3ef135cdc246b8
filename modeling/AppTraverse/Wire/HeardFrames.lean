import AppTraverse.Wire.AetherThreadRuns

/-!
# What one thread writes is what another one hears

A frame that a pump handed to `Write` is decoded by the thread that it is delivered to, if its
size is one that the decoder allows: it counts as a sign of life, is handed on if it carries
something, and a ping is answered with its own nonce.  Nothing checks the size before, so that a
larger frame is written and not heard.
-/

namespace AppTraverse

open Foundations

/-- A heartbeat carries a nonce. -/
def PendingOut.IsCoded (item : PendingOut) : Prop :=
  item.kind = .heartbeatPing ∨ item.kind = .heartbeatPong →
    ∃ nonce, item.bytes = encodeHeartbeatNonce nonce

theorem encodeHeartbeatNonce_length (nonce : UInt64) :
    (encodeHeartbeatNonce nonce).length = kHeartbeatPayloadSize := by
  simp [encodeHeartbeatNonce]

/-- The size of a heartbeat is allowed. -/
theorem PendingOut.IsCoded.allowsSize {item : PendingOut} (h : item.IsCoded)
    (hkind : item.kind = .heartbeatPing ∨ item.kind = .heartbeatPong) :
    item.kind.allowsSize item.bytes.length = true := by
  obtain ⟨nonce, hbytes⟩ := h hkind
  rw [hbytes, encodeHeartbeatNonce_length]
  rcases hkind with hkind | hkind
  · rw [hkind]
    rfl
  · rw [hkind]
    rfl

/-- A frame of another size is not decoded. -/
theorem decodeAetherFrame_tooLarge {kind : AetherFrameKind} {payload : Bytes}
    (hsize : kind.allowsSize payload.length = false) (out : AetherFrame) :
    decodeAetherFrame (encodeAetherFrame kind payload) out = .ok (false, out) := by
  obtain ⟨accepted, result, hdecode, hrejected, hread⟩ :=
    decodeAetherFrame_spec (encodeAetherFrame kind payload) out
  cases accepted with
  | false => rw [hdecode, hrejected rfl]
  | true =>
      obtain ⟨hencoded, hallowed⟩ := hread rfl
      unfold encodeAetherFrame at hencoded
      obtain ⟨-, hencoded⟩ := List.append_inj hencoded rfl
      obtain ⟨-, hencoded⟩ := List.cons.inj hencoded
      obtain ⟨hkind, hencoded⟩ := List.cons.inj hencoded
      obtain ⟨-, hpayload⟩ := List.append_inj hencoded rfl
      have hsame : kind = result.kind := by
        have hraw := AetherFrameKind.ofRaw_eq_some_iff.mpr hkind
        rw [AetherFrameKind.ofRaw_eq_some_iff.mpr rfl] at hraw
        exact Option.some.inj hraw
      rw [← hsame, ← hpayload, hsize] at hallowed
      cases hallowed

namespace PeerState

variable {peer next : PeerState}

/-- What waits and what was written is coded. -/
structure IsCoded (peer : PeerState) : Prop where
  waiting : ∀ item ∈ peer.pendingOut, item.IsCoded
  written : ∀ write ∈ peer.writes, write.item.IsCoded

namespace IsCoded

theorem initial : ({} : PeerState).IsCoded where
  waiting := by simp
  written := by simp

theorem push (h : peer.IsCoded) {kind : AetherFrameKind} {bytes : Bytes}
    (hcoded : kind = .heartbeatPing ∨ kind = .heartbeatPong →
      ∃ nonce, bytes = encodeHeartbeatNonce nonce) : (peer.push kind bytes).IsCoded := by
  refine ⟨fun item hitem => ?_, h.written⟩
  rcases List.mem_append.mp hitem with hitem | hitem
  · exact h.waiting item hitem
  · cases List.mem_singleton.mp hitem
    exact hcoded

theorem queuePending (h : peer.IsCoded) {kind : AetherFrameKind} {bytes : Bytes}
    (hcoded : kind = .heartbeatPing ∨ kind = .heartbeatPong →
      ∃ nonce, bytes = encodeHeartbeatNonce nonce) : (peer.queuePending kind bytes).IsCoded := by
  unfold PeerState.queuePending
  split
  case isTrue => exact ⟨h.waiting, h.written⟩
  case isFalse => exact h.push hcoded

/-- Frames leave the queue unwritten. -/
theorem shrink (h : peer.IsCoded) (hwaiting : ∀ item ∈ next.pendingOut, item ∈ peer.pendingOut)
    (hwrites : next.writes = peer.writes) : next.IsCoded :=
  ⟨fun item hitem => h.waiting item (hwaiting item hitem), hwrites ▸ h.written⟩

theorem scheduleHeartbeatPing (h : peer.IsCoded) (nonce : UInt64) :
    (peer.scheduleHeartbeatPing nonce).IsCoded := by
  unfold PeerState.scheduleHeartbeatPing
  split
  case isTrue => exact h
  case isFalse =>
  split
  case isTrue => exact h
  case isFalse => exact h.queuePending fun _ => ⟨nonce, rfl⟩

theorem queuePong (h : peer.IsCoded) (nonce : UInt64) :
    (peer.queuePong (encodeHeartbeatNonce nonce)).IsCoded := by
  unfold PeerState.queuePong
  split
  case isTrue => exact h
  case isFalse =>
    have hleft : IsCoded { peer with
        pendingOut := peer.pendingOut.filter fun item => !decide (item.kind = .heartbeatPong) } :=
      h.shrink (fun item hitem => List.mem_of_mem_filter hitem) rfl
    exact hleft.push fun _ => ⟨nonce, rfl⟩

theorem onStreamData (h : peer.IsCoded) {data : Bytes}
    (hdata : peer.onStreamData data = .ok next) : next.IsCoded := by
  unfold PeerState.onStreamData at hdata
  obtain ⟨⟨accepted, frame⟩, -, hdata⟩ := except_bind_eq_ok_iff.mp hdata
  dsimp only at hdata
  split at hdata
  case isTrue =>
    obtain ⟨nonce, -, hdata⟩ := except_bind_eq_ok_iff.mp hdata
    cases hdata
    exact h.queuePong nonce
  case isFalse =>
    cases hdata
    exact h

theorem processWriteNotice (h : peer.IsCoded) : peer.processWriteNotice.IsCoded := by
  unfold PeerState.processWriteNotice
  split
  case isTrue => exact h
  case isFalse =>
  split
  case h_1 => exact ⟨h.waiting, h.written⟩
  case h_2 =>
    dsimp only
    split
    case isTrue => exact ⟨h.waiting, h.written⟩
    case isFalse =>
    split
    case isTrue => exact ⟨h.waiting, h.written⟩
    case isFalse => exact ⟨h.waiting, h.written⟩

theorem tryStartWrite (h : peer.IsCoded) (info : StreamInfo) (finished : Bool) :
    (peer.tryStartWrite info finished).IsCoded := by
  unfold PeerState.tryStartWrite
  split
  case isTrue => exact h
  case isFalse =>
    obtain ⟨dropped, rest, hpending, -, ⟨hresult, -⟩ | ⟨item, tail, rfl, -, hresult⟩⟩ :=
      tryStartWriteLoop_cases info finished peer.pendingOut peer
    · rw [hresult]
      exact h.shrink (fun item hitem => hpending ▸ List.mem_append_right _ hitem) rfl
    · rw [hresult]
      have hback : ∀ other ∈ item :: tail, other.IsCoded := fun other hother =>
        h.waiting other (hpending ▸ List.mem_append_right _ hother)
      refine ⟨fun other hother => hback other (List.mem_cons_of_mem _ hother),
        fun write hwrite => ?_⟩
      rcases List.mem_append.mp hwrite with hwrite | hwrite
      · exact h.written write hwrite
      · cases List.mem_singleton.mp hwrite
        exact hback item List.mem_cons_self

theorem step (h : peer.IsCoded) {action : PeerAction} (hstep : peer.step action = some next) :
    next.IsCoded := by
  cases action with
  | send bytes =>
      cases hstep
      exact h.queuePending (by simp)
  | sendControl bytes =>
      cases hstep
      exact h.queuePending (by simp)
  | heartbeat nonce =>
      cases hstep
      exact h.scheduleHeartbeatPing nonce
  | streamData data => exact h.onStreamData (toOption_eq_some_iff.mp hstep)
  | bindStream =>
      cases hstep
      exact ⟨h.waiting, h.written⟩
  | close =>
      cases hstep
      exact ⟨by simp [PeerState.closePeer], h.written⟩
  | writeStatus token incarnation status =>
      cases hstep
      unfold PeerState.applyWriteStatus
      split
      case isTrue => exact h
      case isFalse =>
      split
      case isTrue => exact h
      case isFalse => exact ⟨h.waiting, h.written⟩
  | pump info finished =>
      cases hstep
      exact h.processWriteNotice.tryStartWrite info finished

end IsCoded

/-- A pong waits once it is queued. -/
theorem queuePong_samePending {pongBytes : Bytes} :
    (peer.queuePong pongBytes).samePending .heartbeatPong pongBytes = true := by
  unfold queuePong
  split
  case isTrue hsame => exact hsame
  case isFalse => simp [samePending, push]

end PeerState

/-- The frame that an effect hands on. -/
def PeerEffect.delivered : PeerEffect → Option AetherFrame
  | .frame payload => some ⟨.application, payload⟩
  | .control payload => some ⟨.control, payload⟩
  | _ => none

/-- The frames that were handed on. -/
def deliveredFrames (log : List PeerEffect) : List AetherFrame :=
  log.filterMap PeerEffect.delivered

/-- What a frame does where it is heard. -/
structure PeerLink.Hears (nowMs : UInt64) (frame : AetherFrame) (link next : PeerLink) :
    Prop where
  time : next.lastRxMs = nowMs
  online : frame.kind ≠ .control → next.reportedPresence = .online
  kept : frame.kind = .control → next.reportedPresence = link.reportedPresence
  delivered : deliveredFrames next.log = deliveredFrames link.log ++
    if frame.kind = .application ∨ frame.kind = .control then [frame] else []
  answered : frame.kind = .heartbeatPing →
    next.pump.samePending .heartbeatPong frame.payload = true

namespace PeerLink

variable {nowMs : UInt64} {link : PeerLink}

theorem setPresence_fields (nowMs : UInt64) (link : PeerLink) (reported : PeerPresence) :
    (link.setPresence nowMs reported).lastRxMs = link.lastRxMs ∧
      (link.setPresence nowMs reported).reportedPresence = reported ∧
      deliveredFrames (link.setPresence nowMs reported).log = deliveredFrames link.log := by
  unfold setPresence
  split
  case isTrue => simp [emit, deliveredFrames, PeerEffect.delivered]
  case isFalse hsame => exact ⟨rfl, not_not.mp hsame, rfl⟩

theorem deliveredFrames_hear {kind : AetherFrameKind} :
    deliveredFrames (link.hear nowMs kind).log = deliveredFrames link.log := by
  simp [hear, emit, deliveredFrames, PeerEffect.delivered]

theorem onFrame_hears {frame : AetherFrame} {nonce : UInt64}
    (hnonce : frame.kind = .heartbeatPing → frame.payload = encodeHeartbeatNonce nonce) :
    Hears nowMs frame link (link.onFrame nowMs frame nonce) := by
  obtain ⟨kind, payload⟩ := frame
  have hquiet : deliveredFrames (link.hear nowMs kind).log = deliveredFrames link.log ++ [] := by
    rw [deliveredFrames_hear, List.append_nil]
  cases kind with
  | heartbeatPing =>
      obtain ⟨htime, honline, hsame⟩ := setPresence_fields nowMs
        { link.hear nowMs .heartbeatPing with lastHeartbeatRxMs := nowMs } .online
      refine ⟨htime, fun _ => honline, (fun hkind => by cases hkind), hsame.trans hquiet,
        fun _ => ?_⟩
      have hbytes : payload = encodeHeartbeatNonce nonce := hnonce rfl
      subst hbytes
      exact PeerState.queuePong_samePending
  | heartbeatPong =>
      obtain ⟨htime, honline, hsame⟩ := setPresence_fields nowMs
        { link.hear nowMs .heartbeatPong with lastHeartbeatRxMs := nowMs } .online
      exact ⟨htime, fun _ => honline, (fun hkind => by cases hkind), hsame.trans hquiet,
        (fun hkind => by cases hkind)⟩
  | application =>
      obtain ⟨htime, honline, hsame⟩ := setPresence_fields nowMs
        (link.hear nowMs .application) .online
      refine ⟨htime, fun _ => honline, (fun hkind => by cases hkind), ?_,
        (fun hkind => by cases hkind)⟩
      show deliveredFrames (_ ++ [PeerEffect.frame payload]) = _
      unfold deliveredFrames at hsame hquiet ⊢
      rw [List.filterMap_append, hsame, hquiet, List.append_nil]
      rfl
  | control =>
      refine ⟨rfl, fun hkind => absurd rfl hkind, fun _ => rfl, ?_, (fun hkind => by cases hkind)⟩
      show deliveredFrames (_ ++ [PeerEffect.control payload]) = _
      unfold deliveredFrames at hquiet ⊢
      rw [List.filterMap_append, hquiet, List.append_nil]
      rfl

/-- Data that is a frame. -/
theorem onStreamData_of_decode {data : Bytes} {frame : AetherFrame} (nonce : UInt64)
    (hdecode : decodeAetherFrame data ⟨.application, []⟩ = .ok (true, frame))
    (hnonce : frame.kind = .heartbeatPing → decodeHeartbeatNonce frame.payload = .ok nonce) :
    link.onStreamData nowMs data = .ok (link.onFrame nowMs frame nonce) := by
  obtain ⟨kind, payload⟩ := frame
  unfold onStreamData
  rw [hdecode]
  cases kind with
  | heartbeatPing =>
      simp only [bind, Except.bind, if_true, pure, Except.pure]
      rw [hnonce rfl]
      rfl
  | heartbeatPong => rfl
  | application => rfl
  | control => rfl

end PeerLink

namespace AetherThread

variable {isUid : String → Bool} {config : EndpointConfig} {thread : AetherThread}
  {source : String} {data : Bytes} {link : PeerLink}

/-- A peer that has a stream is known. -/
theorem lookup_of_stream (h : (thread.peer source).pump.stream = true) :
    thread.peers.lookup source = some (thread.peer source) := by
  cases hlookup : thread.peers.lookup source with
  | none => simp [peer, hlookup] at h
  | some found => simp [peer, hlookup]

/-- Data of a peer that has a stream. -/
theorem step_streamData (h : (thread.peer source).pump.stream = true)
    (hdata : (thread.peer source).onStreamData thread.clockMs data = .ok link) :
    thread.step isUid config (.streamData source data) = some (thread.setPeer source link) := by
  unfold step onPeer
  dsimp only
  rw [lookup_of_stream h]
  simp [PeerLink.step, h, hdata, Except.toOption]

end AetherThread

/-- What a thread wrote to a peer is heard where it is delivered, if the size of the frame is one
that is allowed, which that of a heartbeat is; else it has no effect.  No other peer of the
receiving thread is touched. -/
theorem writtenFrame_isHeard {isUid : String → Bool} {config : EndpointConfig}
    (isUid' : String → Bool) (config' : EndpointConfig) {startMs : UInt64} {actions : List AetherAction} {sender receiver : AetherThread}
    {target source : String} {write : IssuedWrite}
    (hrun : runActions (AetherThread.step isUid config) { clockMs := startMs } actions =
      some sender)
    (hwrite : write ∈ (sender.peer target).pump.writes)
    (hstream : (receiver.peer source).pump.stream = true) :
    ∃ after, receiver.step isUid' config' (.streamData source
        (encodeAetherFrame write.item.kind write.item.bytes)) = some after ∧
      (∀ other, other ≠ source → after.peer other = receiver.peer other) ∧
      (write.item.kind.allowsSize write.item.bytes.length = true →
        PeerLink.Hears receiver.clockMs ⟨write.item.kind, write.item.bytes⟩
          (receiver.peer source) (after.peer source)) ∧
      (write.item.kind.allowsSize write.item.bytes.length = false →
        write.item.kind ≠ .heartbeatPing ∧ write.item.kind ≠ .heartbeatPong ∧
          after.peer source = receiver.peer source) := by
  obtain ⟨inputs, hinputs⟩ := AetherThread.run_pump target hrun
  have hstart : ({ clockMs := startMs } : AetherThread).peer target = {} := by
    simp [AetherThread.peer]
  rw [hstart] at hinputs
  have hcoded : (sender.peer target).pump.IsCoded :=
    runActions_preserves PeerState.IsCoded (fun _ _ _ h => h.step) .initial hinputs
  have hitem := hcoded.written write hwrite
  cases hsize : write.item.kind.allowsSize write.item.bytes.length with
  | true =>
      obtain ⟨nonce, hnonce⟩ : ∃ nonce, write.item.kind = .heartbeatPing →
          write.item.bytes = encodeHeartbeatNonce nonce := by
        by_cases hping : write.item.kind = .heartbeatPing
        · obtain ⟨nonce, hbytes⟩ := hitem (Or.inl hping)
          exact ⟨nonce, fun _ => hbytes⟩
        · exact ⟨0, fun hkind => absurd hkind hping⟩
      have hdata : (receiver.peer source).onStreamData receiver.clockMs
          (encodeAetherFrame write.item.kind write.item.bytes) = .ok _ :=
        PeerLink.onStreamData_of_decode nonce
          (decodeAetherFrame_encodeAetherFrame hsize _) fun hkind => by
            rw [hnonce hkind]
            exact decodeHeartbeatNonce_encodeHeartbeatNonce nonce
      refine ⟨_, AetherThread.step_streamData hstream hdata, fun other hother =>
        AetherThread.peer_setPeer_of_ne hother, fun _ => ?_, by simp⟩
      rw [AetherThread.peer_setPeer_self]
      exact PeerLink.onFrame_hears hnonce
  | false =>
      have hdata : (receiver.peer source).onStreamData receiver.clockMs
          (encodeAetherFrame write.item.kind write.item.bytes) = .ok (receiver.peer source) := by
        unfold PeerLink.onStreamData
        rw [decodeAetherFrame_tooLarge hsize]
        rfl
      have hbeat : ¬(write.item.kind = .heartbeatPing ∨ write.item.kind = .heartbeatPong) := by
        intro hkind
        rw [hitem.allowsSize hkind] at hsize
        cases hsize
      obtain ⟨hping, hpong⟩ := not_or.mp hbeat
      refine ⟨_, AetherThread.step_streamData hstream hdata, fun other hother =>
        AetherThread.peer_setPeer_of_ne hother, by simp, fun _ => ⟨hping, hpong, ?_⟩⟩
      exact AetherThread.peer_setPeer_self

/-- A ping is written. -/
def pingIsWritten : List AetherAction :=
  [.openPeer "b" true, .timers ["b"], .pump "b" writableStream false]

/-- A thread that was not yet told anything of its peer. -/
def waitingThread : AetherThread :=
  ({ clockMs := 9 } : AetherThread).openPeerInternal (· == "a") "a" true

theorem pingIsWritten_isHeard : ∃ sender after,
    runActions (AetherThread.step (· == "b") {}) { clockMs := 5 } pingIsWritten = some sender ∧
      waitingThread.step (· == "a") {} (.streamData "a"
        (encodeAetherFrame .heartbeatPing (encodeHeartbeatNonce 1))) = some after ∧
      (after.peer "a").reportedPresence = .online ∧
      (after.peer "a").pump.samePending .heartbeatPong (encodeHeartbeatNonce 1) = true := by
  have hseen : (runActions (AetherThread.step (· == "b") {}) { clockMs := 5 }
      pingIsWritten).map (fun final => (final.peer "b").pump.writes) =
        some [⟨1, 1, ⟨0, .heartbeatPing, encodeHeartbeatNonce 1⟩⟩] := by
    decide +kernel
  obtain ⟨sender, hrun, hfinal⟩ := Option.map_eq_some_iff.mp hseen
  have hwrite : (⟨1, 1, ⟨0, .heartbeatPing, encodeHeartbeatNonce 1⟩⟩ : IssuedWrite) ∈
      (sender.peer "b").pump.writes := by
    rw [hfinal]
    exact List.mem_singleton_self _
  have hstream : (waitingThread.peer "a").pump.stream = true := by decide +kernel
  obtain ⟨after, hafter, -, hallowed, -⟩ :=
    writtenFrame_isHeard (· == "a") {} hrun hwrite hstream
  have hears := hallowed (by decide +kernel)
  exact ⟨sender, after, hrun, hafter, hears.online (by decide), hears.answered rfl⟩

end AppTraverse
