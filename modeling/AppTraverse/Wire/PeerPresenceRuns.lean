import AppTraverse.Foundations.JustifiedLog
import AppTraverse.Wire.AetherThreadRuns

/-!
# What is reported of a peer is true

Online is reported of a peer that was just heard, and Offline of one that was closed or not
heard for the configured time.  The last time of a frame is never behind that of a heartbeat,
and as the clock goes only forward a frame that was heard earlier was heard longer ago.
-/

namespace AppTraverse

open Foundations

/-- The presence that an effect reports. -/
def PeerEffect.report : PeerEffect → Option PeerPresence
  | .presence reported _ => some reported
  | _ => none

/-- The presences that were reported. -/
def reportsOf (log : List PeerEffect) : List PeerPresence :=
  log.filterMap PeerEffect.report

/-- Why something may happen to a peer, after what happened to it before. -/
def PeerEffect.Grounded (config : EndpointConfig) (before : List PeerEffect) :
    PeerEffect → Prop
  | .presence .unknown _ => False
  | .presence .connecting _ => True
  | .presence .online nowMs =>
      ∃ earlier kind, before = earlier ++ [.heard kind nowMs] ∧ kind ≠ .control
  | .presence .offline nowMs => before.getLast? = some .closed ∨
      ∀ kind heardMs, .heard kind heardMs ∈ before →
        heardMs ≤ nowMs ∧ config.offlineAfterMs ≤ nowMs - heardMs
  | .pinged nowMs => ∀ pingedMs, .pinged pingedMs ∈ before →
      pingedMs ≤ nowMs ∧ config.heartbeatPeriodMs ≤ nowMs - pingedMs
  | _ => True

/-- Later means longer ago. -/
theorem sub_le_sub_of_le {earlier later now : UInt64} (h : earlier ≤ later) (h' : later ≤ now) :
    now - later ≤ now - earlier := by
  rw [UInt64.le_iff_toNat_le, UInt64.toNat_sub_of_le _ _ h',
    UInt64.toNat_sub_of_le _ _ (UInt64.le_trans h h')]
  rw [UInt64.le_iff_toNat_le] at h
  omega

namespace PeerLink

variable {config : EndpointConfig} {nowMs laterMs : UInt64} {link next : PeerLink}

/-- What the log and the times of a peer have to do with each other. -/
structure IsLogged (config : EndpointConfig) (nowMs : UInt64) (link : PeerLink) : Prop where
  current : (reportsOf link.log).getLastD .unknown = link.reportedPresence
  changes : (.unknown :: reportsOf link.log).IsChain (· ≠ ·)
  grounded : Justified (PeerEffect.Grounded config) link.log
  heard : ∀ kind heardMs, .heard kind heardMs ∈ link.log → heardMs ≤ link.lastRxMs
  pinged : ∀ pingedMs, .pinged pingedMs ∈ link.log →
    pingedMs ≠ 0 ∧ pingedMs ≤ link.lastHeartbeatTxMs
  beat : link.lastHeartbeatRxMs ≤ link.lastRxMs
  rx : link.lastRxMs ≤ nowMs
  tx : link.lastHeartbeatTxMs ≤ nowMs

namespace IsLogged

theorem initial : IsLogged config nowMs {} where
  current := rfl
  changes := List.isChain_singleton _
  grounded := Justified.nil
  heard := by simp
  pinged := by simp
  beat := UInt64.le_refl _
  rx := UInt64.zero_le
  tx := UInt64.zero_le

theorem later (h : link.IsLogged config nowMs) (hlater : nowMs ≤ laterMs) :
    link.IsLogged config laterMs :=
  { h with
    rx := UInt64.le_trans h.rx hlater
    tx := UInt64.le_trans h.tx hlater }

/-- The pump and the state of the link are not logged. -/
theorem with_pump (h : link.IsLogged config nowMs) (pump : PeerState) (streamLinked : Bool) :
    IsLogged config nowMs { link with pump := pump, streamLinked := streamLinked } :=
  ⟨h.current, h.changes, h.grounded, h.heard, h.pinged, h.beat, h.rx, h.tx⟩

/-- Something else than a report, a frame or a ping is logged. -/
theorem emit (h : link.IsLogged config nowMs) (effect : PeerEffect)
    (hreport : effect.report = none) (hground : effect.Grounded config link.log)
    (hheard : ∀ kind heardMs, effect ≠ .heard kind heardMs)
    (hpinged : ∀ pingedMs, effect ≠ .pinged pingedMs) :
    (link.emit effect).IsLogged config nowMs := by
  have hreports : reportsOf (link.emit effect).log = reportsOf link.log := by
    simp [PeerLink.emit, reportsOf, hreport]
  refine ⟨hreports ▸ h.current, hreports ▸ h.changes, h.grounded.write hground, ?_, ?_, h.beat,
    h.rx, h.tx⟩
  · intro kind heardMs hmem
    rcases List.mem_append.mp hmem with hmem | hmem
    · exact h.heard kind heardMs hmem
    · exact absurd (List.mem_singleton.mp hmem).symm (hheard kind heardMs)
  · intro pingedMs hmem
    rcases List.mem_append.mp hmem with hmem | hmem
    · exact h.pinged pingedMs hmem
    · exact absurd (List.mem_singleton.mp hmem).symm (hpinged pingedMs)

/-- A presence for which there is a ground is reported, if it is another one. -/
theorem setPresence (h : link.IsLogged config nowMs) {reported : PeerPresence}
    (hground : (PeerEffect.presence reported nowMs).Grounded config link.log) :
    (link.setPresence nowMs reported).IsLogged config nowMs := by
  unfold PeerLink.setPresence
  split
  case isFalse => exact h
  case isTrue hother =>
    have hreports : reportsOf (link.log ++ [.presence reported nowMs]) =
        reportsOf link.log ++ [reported] := by
      simp [reportsOf, PeerEffect.report]
    refine ⟨?_, ?_, h.grounded.write hground, ?_, ?_, h.beat, h.rx, h.tx⟩
    · show (reportsOf (link.log ++ [.presence reported nowMs])).getLastD .unknown = reported
      rw [hreports, List.getLastD_concat]
    · show (.unknown :: reportsOf (link.log ++ [.presence reported nowMs])).IsChain (· ≠ ·)
      rw [hreports]
      exact isChain_ne_write h.changes (h.current ▸ hother)
    · intro kind heardMs hmem
      exact h.heard kind heardMs (by simpa [PeerLink.emit] using hmem)
    · intro pingedMs hmem
      exact h.pinged pingedMs (by simpa [PeerLink.emit] using hmem)

/-- A frame is heard. -/
theorem hear (h : link.IsLogged config nowMs) (kind : AetherFrameKind) :
    (link.hear nowMs kind).IsLogged config nowMs := by
  have hreports : reportsOf (link.hear nowMs kind).log = reportsOf link.log := by
    simp [PeerLink.hear, PeerLink.emit, reportsOf, PeerEffect.report]
  refine ⟨hreports ▸ h.current, hreports ▸ h.changes, h.grounded.write trivial, ?_, ?_,
    UInt64.le_trans h.beat h.rx, UInt64.le_refl _, h.tx⟩
  · intro other heardMs hmem
    rcases List.mem_append.mp hmem with hmem | hmem
    · exact UInt64.le_trans (h.heard other heardMs hmem) h.rx
    · cases List.mem_singleton.mp hmem
      exact UInt64.le_refl _
  · intro pingedMs hmem
    exact h.pinged pingedMs (by simpa [PeerLink.hear, PeerLink.emit] using hmem)

/-- The frame that was heard is a heartbeat. -/
theorem heartbeat (h : (link.hear nowMs kind).IsLogged config nowMs) :
    IsLogged config nowMs { link.hear nowMs kind with lastHeartbeatRxMs := nowMs } :=
  ⟨h.current, h.changes, h.grounded, h.heard, h.pinged, UInt64.le_refl _, h.rx, h.tx⟩

/-- A peer that was just heard is online. -/
theorem setOnline (h : link.IsLogged config nowMs) {kind : AetherFrameKind}
    (hkind : kind ≠ .control) {before : List PeerEffect}
    (hlog : link.log = before ++ [.heard kind nowMs]) :
    (link.setPresence nowMs .online).IsLogged config nowMs :=
  h.setPresence ⟨before, kind, hlog, hkind⟩

theorem onFrame (h : link.IsLogged config nowMs) (frame : AetherFrame) (nonce : UInt64) :
    (link.onFrame nowMs frame nonce).IsLogged config nowMs := by
  obtain ⟨kind, payload⟩ := frame
  have hheard := h.hear kind
  cases kind with
  | heartbeatPing =>
      have honline := hheard.heartbeat.setOnline (by decide) rfl
      exact honline.with_pump _ _
  | heartbeatPong => exact hheard.heartbeat.setOnline (by simp) rfl
  | application =>
      have honline := hheard.setOnline (by decide) rfl
      exact honline.emit (.frame payload) rfl trivial (by simp) (by simp)
  | control => exact hheard.emit (.control payload) rfl trivial (by simp) (by simp)

theorem onStreamData (h : link.IsLogged config nowMs) {data : Bytes}
    (hdata : link.onStreamData nowMs data = .ok next) : next.IsLogged config nowMs := by
  obtain ⟨frame, -, rfl⟩ | ⟨frame, nonce, -, -, rfl⟩ := onStreamData_cases hdata
  · exact h
  · exact h.onFrame frame nonce

theorem connect (h : link.IsLogged config nowMs) :
    (link.connect nowMs).IsLogged config nowMs := by
  unfold PeerLink.connect
  split
  case isTrue => exact h.setPresence trivial
  case isFalse => exact h

theorem disconnect (h : link.IsLogged config nowMs) :
    (link.disconnect nowMs).IsLogged config nowMs := by
  unfold PeerLink.disconnect
  split
  case isTrue => exact h.setPresence trivial
  case isFalse => exact h

theorem startRx (h : link.IsLogged config nowMs) :
    (link.startRx nowMs).IsLogged config nowMs := by
  unfold PeerLink.startRx
  split
  case isFalse => exact h
  case isTrue =>
    refine ⟨h.current, h.changes, h.grounded, ?_, h.pinged, UInt64.le_trans h.beat h.rx,
      UInt64.le_refl _, h.tx⟩
    exact fun kind heardMs hmem => UInt64.le_trans (h.heard kind heardMs hmem) h.rx

theorem onStreamUpdate (h : link.IsLogged config nowMs) (state : LinkState) :
    (link.onStreamUpdate nowMs state).IsLogged config nowMs := by
  unfold PeerLink.onStreamUpdate
  split
  case isFalse => exact h
  case isTrue =>
    cases state with
    | linked => exact (h.with_pump link.pump true).connect
    | unlinked => exact (h.with_pump link.pump false).disconnect
    | linkError => exact (h.with_pump link.pump false).disconnect
    | other => exact h

theorem bindPeerStream (h : link.IsLogged config nowMs) (linked : Bool) :
    (link.bindPeerStream nowMs linked).IsLogged config nowMs := by
  have hbound := (h.with_pump link.pump.bindPeerStream linked).emit (.bound nowMs)
    rfl trivial (by simp) (by simp)
  exact hbound.connect.startRx

theorem closePeer (h : link.IsLogged config nowMs) :
    (link.closePeer nowMs).IsLogged config nowMs := by
  have hclosed := (h.with_pump link.pump.closePeer false).emit .closed
    rfl trivial (by simp) (by simp)
  exact hclosed.setPresence (Or.inl List.getLast?_concat)

/-- The time of the last frame is that of the last activity. -/
theorem lastActive_eq (h : link.IsLogged config nowMs) : link.lastActive = link.lastRxMs :=
  if_pos h.beat

/-- All that was heard of a peer that is silent was heard long ago. -/
theorem of_isSilent (h : link.IsLogged config nowMs) (hsilent : link.isSilent config nowMs = true) :
    (PeerEffect.presence .offline nowMs).Grounded config link.log := by
  have hlong : config.offlineAfterMs ≤ nowMs - link.lastRxMs := by
    have hactive : config.offlineAfterMs ≤ nowMs - link.lastActive := of_decide_eq_true hsilent
    rwa [h.lastActive_eq] at hactive
  refine Or.inr fun kind heardMs hmem => ?_
  have hheard := h.heard kind heardMs hmem
  exact ⟨UInt64.le_trans hheard h.rx, UInt64.le_trans hlong (sub_le_sub_of_le hheard h.rx)⟩

theorem processWriteNotice (h : link.IsLogged config nowMs) :
    (link.processWriteNotice config nowMs).IsLogged config nowMs := by
  have htaken := h.with_pump link.pump.processWriteNotice link.streamLinked
  unfold PeerLink.processWriteNotice
  dsimp only
  split
  case isFalse => exact htaken
  case isTrue =>
    have hunlinked := h.with_pump link.pump.processWriteNotice false
    split
    case isTrue hsilent => exact hunlinked.setPresence (hunlinked.of_isSilent hsilent)
    case isFalse => exact hunlinked.setPresence trivial

theorem pumpRound (h : link.IsLogged config nowMs) (info : StreamInfo) (finished : Bool) :
    (link.pumpRound config nowMs info finished).IsLogged config nowMs :=
  h.processWriteNotice.with_pump _ _

theorem checkSilence (h : link.IsLogged config nowMs) :
    (link.checkSilence config nowMs).IsLogged config nowMs := by
  unfold PeerLink.checkSilence
  split
  case isFalse => exact h
  case isTrue =>
  split
  case isFalse => exact h
  case isTrue hsilent => exact h.setPresence (h.of_isSilent hsilent.2)

/-- The time of a ping is remembered, whether or not one was queued. -/
theorem sent (h : link.IsLogged config nowMs) (pump : PeerState) :
    IsLogged config nowMs { link with pump := pump, lastHeartbeatTxMs := nowMs } := by
  refine ⟨h.current, h.changes, h.grounded, h.heard, ?_, h.beat, h.rx, UInt64.le_refl _⟩
  intro pingedMs hmem
  obtain ⟨hpositive, hpinged⟩ := h.pinged pingedMs hmem
  exact ⟨hpositive, UInt64.le_trans hpinged h.tx⟩

/-- A ping that is due comes at least a period after the pings before it. -/
theorem of_pingIsDue (h : link.IsLogged config nowMs)
    (hdue : link.pingIsDue config nowMs = true) :
    (PeerEffect.pinged nowMs).Grounded config link.log := by
  intro pingedMs hmem
  obtain ⟨hpositive, hpinged⟩ := h.pinged pingedMs hmem
  obtain ⟨-, htimes⟩ := Bool.and_eq_true_iff.mp hdue
  rcases Bool.or_eq_true_iff.mp htimes with hnever | hperiod
  · rw [of_decide_eq_true hnever] at hpinged
    exact absurd (UInt64.le_antisymm hpinged UInt64.zero_le) hpositive
  · have hlong : config.heartbeatPeriodMs ≤ nowMs - link.lastHeartbeatTxMs :=
      of_decide_eq_true hperiod
    exact ⟨UInt64.le_trans hpinged h.tx,
      UInt64.le_trans hlong (sub_le_sub_of_le hpinged h.tx)⟩

theorem sendHeartbeat (h : link.IsLogged config nowMs) (hnow : nowMs ≠ 0) (nonce : UInt64) :
    (link.sendHeartbeat config nowMs nonce).IsLogged config nowMs := by
  unfold PeerLink.sendHeartbeat
  split
  case isFalse => exact h
  case isTrue hdue =>
    have hsent := h.sent (link.pump.scheduleHeartbeatPing nonce)
    dsimp only
    split
    case isFalse => exact hsent
    case isTrue =>
      have hreports : reportsOf (link.log ++ [.pinged nowMs]) = reportsOf link.log := by
        simp [reportsOf, PeerEffect.report]
      refine ⟨hreports ▸ hsent.current, hreports ▸ hsent.changes,
        hsent.grounded.write (h.of_pingIsDue hdue), ?_, ?_, hsent.beat, hsent.rx, hsent.tx⟩
      · intro kind heardMs hmem
        exact h.heard kind heardMs (by simpa [PeerLink.emit] using hmem)
      · intro pingedMs hmem
        rcases List.mem_append.mp hmem with hmem | hmem
        · exact hsent.pinged pingedMs hmem
        · cases List.mem_singleton.mp hmem
          exact ⟨hnow, UInt64.le_refl _⟩

theorem step (h : link.IsLogged config nowMs) (hnow : nowMs ≠ 0) {action : LinkAction}
    (hstep : link.step config nowMs action = some next) : next.IsLogged config nowMs := by
  cases action with
  | send bytes =>
      cases hstep
      exact h.with_pump _ _
  | sendControl bytes =>
      cases hstep
      exact h.with_pump _ _
  | bindStream linked =>
      cases hstep
      exact h.bindPeerStream linked
  | close =>
      cases hstep
      exact h.closePeer
  | streamData data =>
      unfold PeerLink.step at hstep
      dsimp only at hstep
      split at hstep
      case isTrue => exact h.onStreamData (toOption_eq_some_iff.mp hstep)
      case isFalse => cases hstep
  | streamUpdate state =>
      cases hstep
      exact h.onStreamUpdate state
  | writeStatus token incarnation status =>
      cases hstep
      exact h.with_pump _ _
  | timers nonce =>
      cases hstep
      exact (h.sendHeartbeat hnow nonce).checkSilence
  | pump info finished =>
      cases hstep
      exact h.pumpRound info finished

end IsLogged
end PeerLink

end AppTraverse
