import AppTraverse.Wire.PeerPresenceRuns

/-!
# The evidence for a presence

A peer that is shown as online was heard, and one that is shown as connecting was heard or
bound, at the time that the timers go by.  So a round of the timers leaves none of them that
was silent for the configured time.
-/

namespace AppTraverse

open Foundations

/-- The stream stays, and no write is active that was not, unless there is a stream. -/
structure PeerState.KeepsStream (peer next : PeerState) : Prop where
  stream : next.stream = peer.stream
  active : next.activeWriteToken ≠ 0 → peer.activeWriteToken ≠ 0 ∨ peer.stream = true

namespace PeerState.KeepsStream

variable {peer middle next : PeerState}

theorem refl : peer.KeepsStream peer :=
  ⟨rfl, Or.inl⟩

theorem trans (h : peer.KeepsStream middle) (h' : middle.KeepsStream next) :
    peer.KeepsStream next := by
  refine ⟨h'.stream.trans h.stream, fun hactive => ?_⟩
  rcases h'.active hactive with hactive | hstream
  · exact h.active hactive
  · exact Or.inr (h.stream ▸ hstream)

theorem queuePending (kind : AetherFrameKind) (bytes : Bytes) :
    peer.KeepsStream (peer.queuePending kind bytes) := by
  unfold PeerState.queuePending
  split
  case isTrue => exact ⟨rfl, Or.inl⟩
  case isFalse => exact ⟨rfl, Or.inl⟩

theorem scheduleHeartbeatPing (nonce : UInt64) :
    peer.KeepsStream (peer.scheduleHeartbeatPing nonce) := by
  unfold PeerState.scheduleHeartbeatPing
  split
  case isTrue => exact refl
  case isFalse =>
  split
  case isTrue => exact refl
  case isFalse => exact queuePending _ _

theorem queuePong (pongBytes : Bytes) : peer.KeepsStream (peer.queuePong pongBytes) := by
  unfold PeerState.queuePong
  split
  case isTrue => exact refl
  case isFalse => exact ⟨rfl, Or.inl⟩

theorem applyWriteStatus (token incarnation : UInt64) (status : WriteStatus) :
    peer.KeepsStream (peer.applyWriteStatus token incarnation status) := by
  unfold PeerState.applyWriteStatus
  split
  case isTrue => exact refl
  case isFalse =>
  split
  case isTrue => exact refl
  case isFalse => exact ⟨rfl, Or.inl⟩

theorem processWriteNotice : peer.KeepsStream peer.processWriteNotice := by
  unfold PeerState.processWriteNotice
  split
  case isTrue => exact refl
  case isFalse =>
  split
  case h_1 => exact ⟨rfl, Or.inl⟩
  case h_2 =>
    dsimp only
    split
    case isTrue => exact ⟨rfl, Or.inl⟩
    case isFalse =>
    split
    case isTrue => exact ⟨rfl, Or.inl⟩
    case isFalse => exact ⟨rfl, fun hactive => absurd rfl hactive⟩

theorem tryStartWrite (info : StreamInfo) (finished : Bool) :
    peer.KeepsStream (peer.tryStartWrite info finished) := by
  unfold PeerState.tryStartWrite
  split
  case isTrue => exact refl
  case isFalse hready =>
    have hstream : peer.stream = true := by simpa using (not_or.mp hready).2
    obtain ⟨dropped, rest, -, -, ⟨hresult, -⟩ | ⟨item, tail, -, -, hresult⟩⟩ :=
      tryStartWriteLoop_cases info finished peer.pendingOut peer
    · rw [hresult]
      exact ⟨rfl, Or.inl⟩
    · rw [hresult]
      exact ⟨rfl, fun _ => Or.inr hstream⟩

theorem pump (info : StreamInfo) (finished : Bool) :
    peer.KeepsStream (peer.pump info finished) :=
  processWriteNotice.trans (tryStartWrite info finished)

end PeerState.KeepsStream

/-- A write that fails is one that is active. -/
theorem PeerState.active_of_noticeFails {peer : PeerState} (h : peer.noticeFails = true) :
    peer.activeWriteToken ≠ 0 := by
  unfold noticeFails at h
  obtain ⟨-, hnotice⟩ := Bool.and_eq_true_iff.mp h
  cases hterminal : peer.terminalNotice with
  | none => simp [hterminal] at hnotice
  | some notice =>
      rw [hterminal] at hnotice
      simp only [Option.any_some, Bool.and_eq_true, decide_eq_true_eq] at hnotice
      exact hnotice.1.1.2

namespace PeerLink

variable {config : EndpointConfig} {nowMs : UInt64} {link next : PeerLink}

/-- A peer that has a stream, or is not reported as gone, was heard or bound at the time that is
remembered, and one that is online was heard then. -/
structure HasEvidence (link : PeerLink) : Prop where
  active : link.pump.activeWriteToken ≠ 0 → link.pump.stream = true
  known : link.pump.stream = true → link.reportedPresence ≠ .unknown
  time : link.pump.stream = true ∨ link.reportedPresence = .connecting ∨
    link.reportedPresence = .online → link.lastRxMs ≠ 0
  source : link.lastRxMs ≠ 0 →
    (∃ kind, .heard kind link.lastRxMs ∈ link.log) ∨ .bound link.lastRxMs ∈ link.log
  online : link.reportedPresence = .online → ∃ kind, .heard kind link.lastRxMs ∈ link.log

namespace HasEvidence

theorem initial : HasEvidence {} where
  active := by simp
  known := by simp
  time := by simp
  source := by simp
  online := by simp

theorem with_link (h : link.HasEvidence) (streamLinked : Bool) :
    HasEvidence { link with streamLinked := streamLinked } :=
  ⟨h.active, h.known, h.time, h.source, h.online⟩

theorem with_pump (h : link.HasEvidence) {pump : PeerState}
    (hkeeps : link.pump.KeepsStream pump) : HasEvidence { link with pump := pump } := by
  refine ⟨fun hactive => ?_, fun hstream => h.known (hkeeps.stream ▸ hstream), fun hseen => ?_,
    h.source, h.online⟩
  · have hbefore : link.pump.stream = true := (hkeeps.active hactive).elim h.active id
    exact hkeeps.stream ▸ hbefore
  · exact h.time (hseen.imp_left fun hstream => hkeeps.stream ▸ hstream)

theorem emit (h : link.HasEvidence) (effect : PeerEffect) : (link.emit effect).HasEvidence := by
  refine ⟨h.active, h.known, h.time, fun hrx => ?_, fun honline => ?_⟩
  · rcases h.source hrx with ⟨kind, hheard⟩ | hbound
    · exact Or.inl ⟨kind, List.mem_append_left _ hheard⟩
    · exact Or.inr (List.mem_append_left _ hbound)
  · obtain ⟨kind, hheard⟩ := h.online honline
    exact ⟨kind, List.mem_append_left _ hheard⟩

/-- The evidence for another presence. -/
theorem setPresence (h : link.HasEvidence) {reported : PeerPresence}
    (hknown : reported ≠ .unknown) (htime : reported ≠ .offline → link.lastRxMs ≠ 0)
    (honline : reported = .online → ∃ kind, .heard kind link.lastRxMs ∈ link.log) :
    (link.setPresence nowMs reported).HasEvidence := by
  unfold PeerLink.setPresence
  split
  case isFalse => exact h
  case isTrue =>
    have hreported : HasEvidence { link with reportedPresence := reported } := by
      refine ⟨h.active, fun _ => hknown, ?_, h.source, honline⟩
      rintro (hstream | rfl | rfl)
      · exact h.time (Or.inl hstream)
      · exact htime (by simp)
      · exact htime (by simp)
    exact hreported.emit _

theorem setOffline (h : link.HasEvidence) : (link.setPresence nowMs .offline).HasEvidence :=
  h.setPresence (by simp) (by simp) (by simp)

theorem setConnecting (h : link.HasEvidence) (hrx : link.lastRxMs ≠ 0) :
    (link.setPresence nowMs .connecting).HasEvidence :=
  h.setPresence (by simp) (fun _ => hrx) (by simp)

theorem setOnline (h : link.HasEvidence) (hrx : link.lastRxMs ≠ 0)
    (hheard : ∃ kind, .heard kind link.lastRxMs ∈ link.log) :
    (link.setPresence nowMs .online).HasEvidence :=
  h.setPresence (by simp) (fun _ => hrx) fun _ => hheard

/-- What a frame shows. -/
theorem hear (h : link.HasEvidence) (hnow : nowMs ≠ 0) (kind : AetherFrameKind) :
    (link.hear nowMs kind).HasEvidence := by
  have hmem : PeerEffect.heard kind nowMs ∈ link.log ++ [.heard kind nowMs] := by simp
  exact ⟨h.active, h.known, fun _ => hnow, fun _ => Or.inl ⟨kind, hmem⟩, fun _ => ⟨kind, hmem⟩⟩

theorem heartbeat (h : link.HasEvidence) (nowMs : UInt64) :
    HasEvidence { link with lastHeartbeatRxMs := nowMs } :=
  ⟨h.active, h.known, h.time, h.source, h.online⟩

theorem onFrame (h : link.HasEvidence) (hnow : nowMs ≠ 0) (frame : AetherFrame)
    (nonce : UInt64) : (link.onFrame nowMs frame nonce).HasEvidence := by
  obtain ⟨kind, payload⟩ := frame
  have hheard := h.hear hnow kind
  have hmem : ∃ other, PeerEffect.heard other nowMs ∈ (link.hear nowMs kind).log :=
    ⟨kind, by simp [PeerLink.hear, PeerLink.emit]⟩
  cases kind with
  | heartbeatPing =>
      have honline : HasEvidence (PeerLink.setPresence nowMs _ .online) :=
        (hheard.heartbeat nowMs).setOnline hnow hmem
      exact honline.with_pump (PeerState.KeepsStream.queuePong _)
  | heartbeatPong =>
      exact (hheard.heartbeat nowMs).setOnline hnow hmem
  | application =>
      have honline : HasEvidence (PeerLink.setPresence nowMs _ .online) :=
        hheard.setOnline hnow hmem
      exact honline.emit _
  | control => exact hheard.emit _

theorem onStreamData (h : link.HasEvidence) (hnow : nowMs ≠ 0) {data : Bytes}
    (hdata : link.onStreamData nowMs data = .ok next) : next.HasEvidence := by
  obtain ⟨frame, -, rfl⟩ | ⟨frame, nonce, -, -, rfl⟩ := onStreamData_cases hdata
  · exact h
  · exact h.onFrame hnow frame nonce

theorem connect (h : link.HasEvidence) (hrx : link.lastRxMs ≠ 0) :
    (link.connect nowMs).HasEvidence := by
  unfold PeerLink.connect
  split
  case isTrue => exact h.setConnecting hrx
  case isFalse => exact h

theorem disconnect (h : link.HasEvidence) : (link.disconnect nowMs).HasEvidence := by
  unfold PeerLink.disconnect
  split
  case isTrue honline => exact h.setConnecting (h.time (Or.inr (Or.inr honline)))
  case isFalse => exact h

theorem onStreamUpdate (h : link.HasEvidence) (state : LinkState) :
    (link.onStreamUpdate nowMs state).HasEvidence := by
  unfold PeerLink.onStreamUpdate
  split
  case isFalse => exact h
  case isTrue hstream =>
    have hrx := h.time (Or.inl hstream)
    cases state with
    | linked => exact (h.with_link true).connect hrx
    | unlinked => exact (h.with_link false).disconnect
    | linkError => exact (h.with_link false).disconnect
    | other => exact h

/-- The time of the first stream is the time at which one was bound. -/
theorem startRx (h : link.HasEvidence) (hnow : nowMs ≠ 0) (hbound : .bound nowMs ∈ link.log) :
    (link.startRx nowMs).HasEvidence ∧ (link.startRx nowMs).lastRxMs ≠ 0 := by
  unfold PeerLink.startRx
  split
  case isFalse hrx => exact ⟨h, hrx⟩
  case isTrue hrx =>
    refine ⟨⟨h.active, h.known, fun _ => hnow, fun _ => Or.inr hbound, fun honline => ?_⟩, hnow⟩
    exact absurd hrx (h.time (Or.inr (Or.inr honline)))

/-- A peer that is connecting or online is known. -/
theorem connect_known : (link.connect nowMs).reportedPresence ≠ .unknown := by
  unfold PeerLink.connect PeerLink.setPresence
  split
  case isFalse honline =>
    rw [not_not.mp honline]
    simp
  case isTrue =>
  split
  case isTrue => exact fun hunknown => by cases hunknown
  case isFalse hsame =>
    rw [not_not.mp hsame]
    simp

/-- The order in which a new stream is taken note of does not matter. -/
theorem bindPeerStream_eq {linked : Bool} :
    link.bindPeerStream nowMs linked =
      { ((link.emit (.bound nowMs)).startRx nowMs).connect nowMs with
        pump := link.pump.bindPeerStream
        streamLinked := linked } := by
  unfold PeerLink.bindPeerStream PeerLink.connect PeerLink.startRx PeerLink.setPresence
  by_cases hrx : link.lastRxMs = 0 <;> by_cases honline : link.reportedPresence = .online <;>
    by_cases hconnecting : link.reportedPresence = .connecting <;>
      simp [PeerLink.emit, hrx, honline, hconnecting]

theorem connect_lastRxMs : (link.connect nowMs).lastRxMs = link.lastRxMs := by
  unfold PeerLink.connect PeerLink.setPresence
  split
  case isFalse => rfl
  case isTrue =>
  split
  case isTrue => rfl
  case isFalse => rfl

theorem bindPeerStream (h : link.HasEvidence) (hnow : nowMs ≠ 0) (linked : Bool) :
    (link.bindPeerStream nowMs linked).HasEvidence := by
  have hmem : PeerEffect.bound nowMs ∈ (link.emit (.bound nowMs)).log := by
    simp [PeerLink.emit]
  obtain ⟨hstarted, hrx⟩ := (h.emit (.bound nowMs)).startRx hnow hmem
  have hconnected : HasEvidence (((link.emit (.bound nowMs)).startRx nowMs).connect nowMs) :=
    hstarted.connect hrx
  rw [bindPeerStream_eq]
  refine ⟨fun hactive => absurd rfl hactive, fun _ => connect_known, fun _ => ?_,
    hconnected.source, hconnected.online⟩
  rw [connect_lastRxMs]
  exact hrx

theorem closePeer (h : link.HasEvidence) : (link.closePeer nowMs).HasEvidence := by
  have hclosed : HasEvidence { link with
      pump := link.pump.closePeer
      streamLinked := false } := by
    refine ⟨fun hactive => absurd rfl hactive, (fun hstream => by cases hstream), ?_, h.source,
      h.online⟩
    rintro (hstream | hreported)
    · cases hstream
    · exact h.time (Or.inr hreported)
  exact (hclosed.emit .closed).setOffline

theorem processWriteNotice (h : link.HasEvidence) :
    (link.processWriteNotice config nowMs).HasEvidence := by
  unfold PeerLink.processWriteNotice
  dsimp only
  split
  case isFalse => exact h.with_pump PeerState.KeepsStream.processWriteNotice
  case isTrue hfails =>
    have hunlinked := (h.with_pump PeerState.KeepsStream.processWriteNotice).with_link false
    split
    case isTrue => exact hunlinked.setOffline
    case isFalse => exact hunlinked.setConnecting (h.time (Or.inl (h.active (PeerState.active_of_noticeFails hfails))))

theorem pumpRound (h : link.HasEvidence) (info : StreamInfo) (finished : Bool) :
    (link.pumpRound config nowMs info finished).HasEvidence :=
  h.processWriteNotice.with_pump (PeerState.KeepsStream.tryStartWrite info finished)

theorem sendHeartbeat (h : link.HasEvidence) (nonce : UInt64) :
    (link.sendHeartbeat config nowMs nonce).HasEvidence := by
  unfold PeerLink.sendHeartbeat
  split
  case isFalse => exact h
  case isTrue =>
    have hpinged := h.with_pump (PeerState.KeepsStream.scheduleHeartbeatPing nonce)
    have hsent : HasEvidence { link with
        pump := link.pump.scheduleHeartbeatPing nonce
        lastHeartbeatTxMs := nowMs } :=
      ⟨hpinged.active, hpinged.known, hpinged.time, hpinged.source, hpinged.online⟩
    dsimp only
    split
    case isTrue => exact hsent.emit _
    case isFalse => exact hsent

theorem checkSilence (h : link.HasEvidence) : (link.checkSilence config nowMs).HasEvidence := by
  unfold PeerLink.checkSilence
  split
  case isFalse => exact h
  case isTrue =>
  split
  case isFalse => exact h
  case isTrue => exact h.setOffline

theorem step (h : link.HasEvidence) (hnow : nowMs ≠ 0) {action : LinkAction}
    (hstep : link.step config nowMs action = some next) : next.HasEvidence := by
  cases action with
  | send bytes =>
      cases hstep
      exact h.with_pump (PeerState.KeepsStream.queuePending _ bytes)
  | sendControl bytes =>
      cases hstep
      exact h.with_pump (PeerState.KeepsStream.queuePending _ bytes)
  | bindStream linked =>
      cases hstep
      exact h.bindPeerStream hnow linked
  | close =>
      cases hstep
      exact h.closePeer
  | streamData data =>
      unfold PeerLink.step at hstep
      dsimp only at hstep
      split at hstep
      case isTrue => exact h.onStreamData hnow (toOption_eq_some_iff.mp hstep)
      case isFalse => cases hstep
  | streamUpdate state =>
      cases hstep
      exact h.onStreamUpdate state
  | writeStatus token incarnation status =>
      cases hstep
      exact h.with_pump (PeerState.KeepsStream.applyWriteStatus token incarnation status)
  | timers nonce =>
      cases hstep
      exact (h.sendHeartbeat nonce).checkSilence
  | pump info finished =>
      cases hstep
      exact h.pumpRound info finished

end HasEvidence

/-- A peer that is shown as connecting or online is not silent. -/
def IsSettled (config : EndpointConfig) (nowMs : UInt64) (link : PeerLink) : Prop :=
  link.reportedPresence = .connecting ∨ link.reportedPresence = .online →
    link.lastActive = 0 ∨ link.isSilent config nowMs = false

theorem checkSilence_isSettled : (link.checkSilence config nowMs).IsSettled config nowMs := by
  unfold checkSilence
  split
  case isFalse hgone => exact fun hshown => absurd hshown hgone
  case isTrue hshown =>
  split
  case isFalse hactive =>
    intro _
    by_cases hnever : link.lastActive = 0
    · exact Or.inl hnever
    · exact Or.inr (by simpa [hnever] using hactive)
  case isTrue =>
    have hoffline : (link.setPresence nowMs .offline).reportedPresence = .offline := by
      unfold setPresence
      split
      case isTrue => rfl
      case isFalse hsame => exact not_not.mp hsame
    intro hcontrary
    rw [hoffline] at hcontrary
    simp at hcontrary

end PeerLink

namespace AetherThread

open PeerLink

variable {isUid : String → Bool} {config : EndpointConfig} {thread final : AetherThread}
  {uid other : String} {visit : List String} {actions : List AetherAction} {startMs : UInt64}

/-- The timers settle the peer that they visit, and leave the other ones alone. -/
theorem visitPeer_isSettled
    (h : other = uid ∨ (thread.peer uid).IsSettled config thread.clockMs) :
    ((thread.visitPeer config other).peer uid).IsSettled config thread.clockMs := by
  have hpeer : (thread.visitPeer config other).peer uid = (thread.setPeer other
      ((thread.peer other).onTimers config thread.clockMs thread.nextNonce)).peer uid := rfl
  rw [hpeer]
  by_cases hsame : other = uid
  · subst hsame
    rw [peer_setPeer_self]
    exact checkSilence_isSettled
  · rw [peer_setPeer_of_ne (Ne.symm hsame)]
    exact h.resolve_left hsame

theorem visitPeers_isSettled
    (h : uid ∈ visit ∨ (thread.peer uid).IsSettled config thread.clockMs) :
    ((thread.visitPeers config visit).peer uid).IsSettled config thread.clockMs := by
  induction visit generalizing thread with
  | nil => exact h.resolve_left (by simp)
  | cons first rest ih =>
      show (((thread.visitPeer config first).visitPeers config rest).peer uid).IsSettled config
        (thread.visitPeer config first).clockMs
      apply ih
      by_cases hrest : uid ∈ rest
      · exact Or.inl hrest
      · refine Or.inr (visitPeer_isSettled ?_)
        rcases h with hmem | hsettled
        · exact Or.inl ((List.mem_cons.mp hmem).resolve_right hrest).symm
        · exact Or.inr hsettled

/-- A round of the timers settles every peer. -/
theorem timers_areSettled (h : thread.step isUid config (.timers visit) = some final)
    (uid : String) :
    (final.peer uid).IsSettled config final.clockMs := by
  unfold step at h
  dsimp only at h
  split at h
  case isFalse => cases h
  case isTrue hvisit =>
    cases h
    rw [visitPeers_clockMs]
    apply visitPeers_isSettled
    by_cases hknown : uid ∈ thread.peers
    · exact Or.inl (hvisit.mem_iff.mpr hknown)
    · have hnew : thread.peer uid = {} := by
        simp [peer, AList.lookup_eq_none.mpr hknown]
      rw [hnew]
      exact Or.inr (by simp [IsSettled])

/-- What holds of a peer after every run of the thread. -/
theorem run_isLogged (hstart : startMs ≠ 0)
    (hrun : runActions (step isUid config) { clockMs := startMs } actions = some final)
    (uid : String) :
    final.clockMs ≠ 0 ∧ (final.peer uid).IsLogged config final.clockMs ∧
      (final.peer uid).HasEvidence := by
  refine run_preserves (fun nowMs link =>
    nowMs ≠ 0 ∧ link.IsLogged config nowMs ∧ link.HasEvidence) ?_ ?_ ?_ hrun
  · rintro nowMs link action next ⟨hnow, hlogged, hevidence⟩ hstep
    exact ⟨hnow, hlogged.step hnow hstep, hevidence.step hnow hstep⟩
  · rintro nowMs laterMs link ⟨hnow, hlogged, hevidence⟩ hlater
    refine ⟨fun hzero => hnow ?_, hlogged.later hlater, hevidence⟩
    exact UInt64.le_antisymm (hzero ▸ hlater) UInt64.zero_le
  · have hnew : ({ clockMs := startMs } : AetherThread).peer uid = {} := by simp [peer]
    rw [hnew]
    exact ⟨hstart, IsLogged.initial, HasEvidence.initial⟩

end AetherThread

/-- What the thread reports of a peer is true.  The reports of a peer never repeat, and the last
one is what it is taken for.  Online follows a heartbeat or an application frame of the peer,
Offline follows the command that closed it, or all its frames are at least as old as the
configured time; and its pings are at least a period apart. -/
theorem reports_areHonest {isUid : String → Bool} {config : EndpointConfig} {startMs : UInt64}
    {actions : List AetherAction} {final : AetherThread} (hstart : startMs ≠ 0)
    (hrun : runActions (AetherThread.step isUid config) { clockMs := startMs } actions =
      some final) (uid : String) :
    (reportsOf (final.peer uid).log).getLastD .unknown = (final.peer uid).reportedPresence ∧
    (.unknown :: reportsOf (final.peer uid).log).IsChain (· ≠ ·) ∧
    ∀ before effect after, (final.peer uid).log = before ++ effect :: after →
      effect.Grounded config before := by
  obtain ⟨-, hlogged, -⟩ := AetherThread.run_isLogged hstart hrun uid
  exact ⟨hlogged.current, hlogged.changes, hlogged.grounded⟩

/-- A peer answers once, and falls silent. -/
def peerFallsSilent : List AetherAction :=
  [.openPeer "a" false, .timers ["a"], .streamUpdate "a" .linked, .clock 100,
    .streamData "a" (encodeAetherFrame .heartbeatPong (encodeHeartbeatNonce 1)), .timers ["a"],
    .newPort "a" true, .clock 7100]

theorem peerFallsSilent_isHonest : ∃ final,
    runActions (AetherThread.step (· == "a") {}) { clockMs := 5 }
      (peerFallsSilent ++ [.timers ["a"]]) = some final ∧
      reportsOf (final.peer "a").log = [.connecting, .online, .offline] ∧
      (.unknown :: reportsOf (final.peer "a").log).IsChain (· ≠ ·) := by
  have hseen : (runActions (AetherThread.step (· == "a") {}) { clockMs := 5 }
      (peerFallsSilent ++ [.timers ["a"]])).map
        (fun final => reportsOf (final.peer "a").log) =
          some [.connecting, .online, .offline] := by
    decide +kernel
  obtain ⟨final, hrun, hfinal⟩ := Option.map_eq_some_iff.mp hseen
  obtain ⟨-, hchanges, -⟩ := reports_areHonest (by decide) hrun "a"
  exact ⟨final, hrun, hfinal, hchanges⟩

end AppTraverse
