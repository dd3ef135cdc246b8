import AppTraverse.Wire.AetherThreadRuns

/-!
# What waits for a peer

However long a peer is out of reach, no frame waits for it twice, and of all the heartbeats that
fall due in that time one ping and one pong wait.
-/

namespace AppTraverse

open Foundations

/-- The frame that is to be written. -/
def PendingOut.frame (item : PendingOut) : AetherFrame :=
  ⟨item.kind, item.bytes⟩

namespace PeerState

variable {peer next : PeerState} {kind : AetherFrameKind} {bytes : Bytes}

/-- The frames that wait. -/
def waiting (peer : PeerState) : List AetherFrame :=
  peer.pendingOut.map PendingOut.frame

/-- The frames of a kind that wait or are being written. -/
def unfinished (peer : PeerState) (kind : AetherFrameKind) : Nat :=
  peer.waiting.countP (fun frame => decide (frame.kind = kind)) +
    if peer.activeWriteToken ≠ 0 ∧ peer.activeKind = kind then 1 else 0

/-- Nothing waits twice. -/
structure NoRepeats (peer : PeerState) : Prop where
  distinct : peer.waiting.Nodup
  active : peer.activeWriteToken ≠ 0 → ⟨peer.activeKind, peer.activePayload⟩ ∉ peer.waiting
  pings : peer.unfinished .heartbeatPing ≤ 1
  pongs : peer.waiting.countP (fun frame => decide (frame.kind = .heartbeatPong)) ≤ 1

/-- What it means that no equal frame is pending. -/
theorem samePending_eq_false (h : peer.samePending kind bytes = false) :
    (peer.activeWriteToken ≠ 0 → (⟨peer.activeKind, peer.activePayload⟩ : AetherFrame) ≠
      ⟨kind, bytes⟩) ∧ (⟨kind, bytes⟩ : AetherFrame) ∉ peer.waiting := by
  obtain ⟨hactive, hpending⟩ := Bool.or_eq_false_iff.mp h
  constructor
  · rintro htoken hsame
    cases hsame
    simp [htoken] at hactive
  · intro hmem
    obtain ⟨item, hitem, hframe⟩ := List.mem_map.mp hmem
    cases hframe
    have hnone := List.any_eq_false.mp hpending item hitem
    simp at hnone

theorem hasPendingKind_eq_false (h : peer.hasPendingKind kind = false) :
    peer.unfinished kind = 0 := by
  obtain ⟨hactive, hpending⟩ := Bool.or_eq_false_iff.mp h
  have hnone : peer.waiting.countP (fun frame => decide (frame.kind = kind)) = 0 := by
    rw [List.countP_eq_zero]
    intro frame hmem
    obtain ⟨item, hitem, rfl⟩ := List.mem_map.mp hmem
    exact List.any_eq_false.mp hpending item hitem
  have hidle : ¬(peer.activeWriteToken ≠ 0 ∧ peer.activeKind = kind) := by
    simpa using hactive
  unfold unfinished
  rw [hnone, if_neg hidle]

namespace NoRepeats

theorem initial : ({} : PeerState).NoRepeats where
  distinct := List.nodup_nil
  active := by simp
  pings := by decide
  pongs := by decide

/-- A frame is queued that neither waits nor is being written. -/
theorem push (h : peer.NoRepeats) (hnew : peer.samePending kind bytes = false)
    (hping : kind = .heartbeatPing → peer.unfinished .heartbeatPing = 0)
    (hpong : kind = .heartbeatPong →
      peer.waiting.countP (fun frame => decide (frame.kind = .heartbeatPong)) = 0) :
    (peer.push kind bytes).NoRepeats := by
  obtain ⟨hactive, hwaiting⟩ := samePending_eq_false hnew
  have hpushed : (peer.push kind bytes).waiting = peer.waiting ++ [⟨kind, bytes⟩] := by
    simp [waiting, PeerState.push, PendingOut.frame]
  refine ⟨?_, ?_, ?_, ?_⟩
  · rw [hpushed]
    exact h.distinct.append (List.nodup_singleton _) (List.disjoint_singleton.mpr hwaiting)
  · intro htoken hmem
    rw [hpushed] at hmem
    rcases List.mem_append.mp hmem with hmem | hmem
    · exact h.active htoken hmem
    · exact hactive htoken (List.mem_singleton.mp hmem)
  · by_cases hkind : kind = .heartbeatPing
    · have hnone := hping hkind
      unfold unfinished at hnone ⊢
      rw [hpushed, List.countP_append]
      have hidle : ¬((peer.push kind bytes).activeWriteToken ≠ 0 ∧
          (peer.push kind bytes).activeKind = .heartbeatPing) := by
        intro hbusy
        have hsame : peer.activeWriteToken ≠ 0 ∧ peer.activeKind = .heartbeatPing := hbusy
        simp [hsame] at hnone
      rw [if_neg hidle, Nat.eq_zero_of_add_eq_zero_right hnone]
      simp [hkind]
    · have hsame : (peer.push kind bytes).unfinished .heartbeatPing =
          peer.unfinished .heartbeatPing := by
        have hother : [(⟨kind, bytes⟩ : AetherFrame)].countP
            (fun frame => decide (frame.kind = .heartbeatPing)) = 0 := by
          simp [hkind]
        unfold unfinished
        rw [hpushed, List.countP_append, hother]
        rfl
      rw [hsame]
      exact h.pings
  · rw [hpushed, List.countP_append]
    by_cases hkind : kind = .heartbeatPong
    · simp [hkind, hpong hkind]
    · simpa [hkind] using h.pongs

/-- Frames leave the queue, and no other write becomes active. -/
theorem shrink (h : peer.NoRepeats) (hwaiting : next.waiting.Sublist peer.waiting)
    (hactive : next.activeWriteToken ≠ 0 → peer.activeWriteToken ≠ 0 ∧
      next.activeKind = peer.activeKind ∧ next.activePayload = peer.activePayload) :
    next.NoRepeats := by
  refine ⟨h.distinct.sublist hwaiting, fun htoken hmem => ?_, ?_,
    Nat.le_trans hwaiting.countP_le h.pongs⟩
  · obtain ⟨hbefore, hkind, hpayload⟩ := hactive htoken
    rw [hkind, hpayload] at hmem
    exact h.active hbefore (hwaiting.subset hmem)
  · refine Nat.le_trans (Nat.add_le_add hwaiting.countP_le ?_) h.pings
    by_cases hbusy : next.activeWriteToken ≠ 0 ∧ next.activeKind = .heartbeatPing
    · obtain ⟨hbefore, hkind, -⟩ := hactive hbusy.1
      rw [if_pos hbusy, if_pos ⟨hbefore, hkind ▸ hbusy.2⟩]
    · rw [if_neg hbusy]
      exact Nat.zero_le _

theorem queuePending (h : peer.NoRepeats)
    (hping : kind = .heartbeatPing → peer.unfinished .heartbeatPing = 0)
    (hpong : kind ≠ .heartbeatPong) : (peer.queuePending kind bytes).NoRepeats := by
  unfold PeerState.queuePending
  split
  case isTrue => exact ⟨h.distinct, h.active, h.pings, h.pongs⟩
  case isFalse hnew =>
    exact h.push (by simpa using hnew) hping fun hkind => absurd hkind hpong

theorem scheduleHeartbeatPing (h : peer.NoRepeats) (nonce : UInt64) :
    (peer.scheduleHeartbeatPing nonce).NoRepeats := by
  unfold PeerState.scheduleHeartbeatPing
  split
  case isTrue => exact h
  case isFalse =>
  split
  case isTrue => exact h
  case isFalse hnone =>
    exact h.queuePending (fun _ => hasPendingKind_eq_false (by simpa using hnone)) (by simp)

/-- The pongs that wait leave before another one is queued. -/
theorem queuePong (h : peer.NoRepeats) (pongBytes : Bytes) :
    (peer.queuePong pongBytes).NoRepeats := by
  unfold PeerState.queuePong
  split
  case isTrue => exact h
  case isFalse hnew =>
    have hleft : NoRepeats { peer with
        pendingOut := peer.pendingOut.filter fun item => !decide (item.kind = .heartbeatPong) } :=
      h.shrink (List.filter_sublist.map _) fun htoken => ⟨htoken, rfl, rfl⟩
    refine hleft.push ?_ (by simp) fun _ => ?_
    · obtain ⟨hactive, hpending⟩ := Bool.or_eq_false_iff.mp (by simpa using hnew :
        peer.samePending .heartbeatPong pongBytes = false)
      refine Bool.or_eq_false_iff.mpr ⟨hactive, List.any_eq_false.mpr fun item hitem => ?_⟩
      exact List.any_eq_false.mp hpending item (List.mem_of_mem_filter hitem)
    · rw [List.countP_eq_zero]
      intro frame hmem
      obtain ⟨item, hitem, rfl⟩ := List.mem_map.mp hmem
      have hkind := (List.mem_filter.mp hitem).2
      simp only [Bool.not_eq_true', decide_eq_false_iff_not] at hkind
      simp [PendingOut.frame, hkind]

theorem onStreamData (h : peer.NoRepeats) {data : Bytes}
    (hdata : peer.onStreamData data = .ok next) : next.NoRepeats := by
  unfold PeerState.onStreamData at hdata
  obtain ⟨⟨accepted, frame⟩, -, hdata⟩ := except_bind_eq_ok_iff.mp hdata
  dsimp only at hdata
  split at hdata
  case isTrue =>
    obtain ⟨nonce, -, hdata⟩ := except_bind_eq_ok_iff.mp hdata
    cases hdata
    exact h.queuePong _
  case isFalse =>
    cases hdata
    exact h

theorem processWriteNotice (h : peer.NoRepeats) : peer.processWriteNotice.NoRepeats := by
  unfold PeerState.processWriteNotice
  split
  case isTrue => exact h
  case isFalse =>
  split
  case h_1 => exact ⟨h.distinct, h.active, h.pings, h.pongs⟩
  case h_2 =>
    dsimp only
    split
    case isTrue => exact ⟨h.distinct, h.active, h.pings, h.pongs⟩
    case isFalse =>
    split
    case isTrue => exact ⟨h.distinct, h.active, h.pings, h.pongs⟩
    case isFalse =>
      exact h.shrink (List.Sublist.refl _) fun htoken => absurd rfl htoken

/-- The frame that is written no longer waits. -/
theorem write (h : peer.NoRepeats) (hidle : peer.activeWriteToken = 0) {item : PendingOut}
    {rest : List PendingOut} (hpending : peer.pendingOut = item :: rest) (finished : Bool) :
    (peer.write item rest finished).NoRepeats := by
  have hwaiting : peer.waiting = item.frame :: (peer.write item rest finished).waiting := by
    simp [waiting, hpending, PeerState.write]
  have hdistinct := h.distinct
  have hpings := h.pings
  have hpongs := h.pongs
  rw [hwaiting] at hdistinct hpongs
  refine ⟨hdistinct.of_cons, fun _ => (List.nodup_cons.mp hdistinct).1, ?_, ?_⟩
  · have hnone : ¬(peer.activeWriteToken ≠ 0 ∧ peer.activeKind = .heartbeatPing) :=
      fun hbusy => hbusy.1 hidle
    unfold unfinished at hpings ⊢
    rw [if_neg hnone, hwaiting, List.countP_cons] at hpings
    refine Nat.le_trans (Nat.add_le_add_left ?_ _) hpings
    by_cases hping : item.frame.kind = .heartbeatPing
    · rw [if_pos (decide_eq_true hping)]
      split
      case isTrue => exact Nat.le_refl 1
      case isFalse => exact Nat.zero_le 1
    · have hother : ¬((peer.write item rest finished).activeWriteToken ≠ 0 ∧
          (peer.write item rest finished).activeKind = .heartbeatPing) :=
        fun hbusy => hping hbusy.2
      rw [if_neg hother]
      exact Nat.zero_le _
  · rw [List.countP_cons] at hpongs
    omega

theorem tryStartWrite (h : peer.NoRepeats) (info : StreamInfo) (finished : Bool) :
    (peer.tryStartWrite info finished).NoRepeats := by
  unfold PeerState.tryStartWrite
  split
  case isTrue => exact h
  case isFalse hready =>
    have hidle : peer.activeWriteToken = 0 := not_not.mp (not_or.mp hready).1
    obtain ⟨dropped, rest, hpending, -, ⟨hresult, -⟩ | ⟨item, tail, rfl, -, hresult⟩⟩ :=
      tryStartWriteLoop_cases info finished peer.pendingOut peer
    · rw [hresult]
      have hsub : rest.Sublist peer.pendingOut := hpending ▸ List.sublist_append_right _ _
      exact h.shrink (hsub.map _) fun htoken => ⟨htoken, rfl, rfl⟩
    · rw [hresult]
      have hsub : (item :: tail).Sublist peer.pendingOut :=
        hpending ▸ List.sublist_append_right _ _
      have hdropped : NoRepeats { peer with
          departed := peer.departed ++ dropped.map fun item => (item, .oversize)
          pendingOut := item :: tail } :=
        h.shrink (hsub.map _) fun htoken => ⟨htoken, rfl, rfl⟩
      exact hdropped.write hidle rfl finished

theorem step (h : peer.NoRepeats) {action : PeerAction}
    (hstep : peer.step action = some next) : next.NoRepeats := by
  cases action with
  | send bytes =>
      cases hstep
      exact h.queuePending (by simp) (by simp)
  | sendControl bytes =>
      cases hstep
      exact h.queuePending (by simp) (by simp)
  | heartbeat nonce =>
      cases hstep
      exact h.scheduleHeartbeatPing nonce
  | streamData data => exact h.onStreamData (toOption_eq_some_iff.mp hstep)
  | bindStream =>
      cases hstep
      exact h.shrink (List.Sublist.refl _) fun htoken => absurd rfl htoken
  | close =>
      cases hstep
      exact h.shrink (List.nil_sublist _) fun htoken => absurd rfl htoken
  | writeStatus token incarnation status =>
      cases hstep
      unfold PeerState.applyWriteStatus
      split
      case isTrue => exact h
      case isFalse =>
      split
      case isTrue => exact h
      case isFalse => exact ⟨h.distinct, h.active, h.pings, h.pongs⟩
  | pump info finished =>
      cases hstep
      exact h.processWriteNotice.tryStartWrite info finished

end NoRepeats
end PeerState

/-- Whatever happens on the thread, no frame waits twice for a peer, none waits that is being
written, and of the heartbeats at most one ping and one pong wait. -/
theorem backlog_hasNoRepeats {isUid : String → Bool} {config : EndpointConfig}
    {startMs : UInt64} {actions : List AetherAction} {final : AetherThread}
    (hrun : runActions (AetherThread.step isUid config) { clockMs := startMs } actions =
      some final) (uid : String) :
    (final.peer uid).pump.waiting.Nodup ∧
    ((final.peer uid).pump.activeWriteToken ≠ 0 →
      ⟨(final.peer uid).pump.activeKind, (final.peer uid).pump.activePayload⟩ ∉
        (final.peer uid).pump.waiting) ∧
    (final.peer uid).pump.unfinished .heartbeatPing ≤ 1 ∧
    (final.peer uid).pump.waiting.countP (fun frame => decide (frame.kind = .heartbeatPong)) ≤
      1 := by
  obtain ⟨inputs, hinputs⟩ := AetherThread.run_pump uid hrun
  have hstart : ({ clockMs := startMs } : AetherThread).peer uid = {} := by
    simp [AetherThread.peer]
  rw [hstart] at hinputs
  have hnone : (final.peer uid).pump.NoRepeats :=
    runActions_preserves PeerState.NoRepeats (fun _ _ _ h => h.step) .initial hinputs
  exact ⟨hnone.distinct, hnone.active, hnone.pings, hnone.pongs⟩

/-- A peer that never becomes writable. -/
def peerOutOfReach : List AetherAction :=
  [.openPeer "a" true, .timers ["a"], .send "a" [1] true, .send "a" [1] true,
    .streamData "a" (encodeAetherFrame .heartbeatPing (encodeHeartbeatNonce 7)), .clock 5000,
    .timers ["a"], .streamData "a" (encodeAetherFrame .heartbeatPing (encodeHeartbeatNonce 8))]

theorem peerOutOfReach_hasNoRepeats : ∃ final,
    runActions (AetherThread.step (· == "a") {}) { clockMs := 5 } peerOutOfReach = some final ∧
      (final.peer "a").pump.waiting = [⟨.heartbeatPing, encodeHeartbeatNonce 1⟩,
        ⟨.application, [1]⟩, ⟨.heartbeatPong, encodeHeartbeatNonce 8⟩] ∧
      (final.peer "a").pump.waiting.Nodup := by
  have hseen : (runActions (AetherThread.step (· == "a") {}) { clockMs := 5 }
      peerOutOfReach).map (fun final => (final.peer "a").pump.waiting) =
        some [⟨.heartbeatPing, encodeHeartbeatNonce 1⟩, ⟨.application, [1]⟩,
          ⟨.heartbeatPong, encodeHeartbeatNonce 8⟩] := by
    decide +kernel
  obtain ⟨final, hrun, hfinal⟩ := Option.map_eq_some_iff.mp hseen
  exact ⟨final, hrun, hfinal, (backlog_hasNoRepeats hrun "a").1⟩

end AppTraverse
