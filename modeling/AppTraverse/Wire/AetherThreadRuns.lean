import AppTraverse.Wire.PeerLinkRuns

/-!
# Runs of the thread

What a peer goes through on the thread is a run of the peer, so that what every step of a peer
keeps is kept by every run of the thread, whatever it does for the other peers.
-/

namespace AppTraverse

open Foundations

/-- What an action sends to a peer. -/
def AetherAction.sentTo (uid : String) (kind : AetherFrameKind) : AetherAction → List Bytes
  | .send peerUid bytes _ =>
      if peerUid = uid then PeerState.addsTo .application kind bytes else []
  | .sendControl peerUid bytes _ =>
      if peerUid = uid then PeerState.addsTo .control kind bytes else []
  | _ => []

/-- A peer takes steps of its own, in which it is sent some frames. -/
def PeerLink.Moves (config : EndpointConfig) (nowMs : UInt64) (link next : PeerLink)
    (sent : AetherFrameKind → List Bytes) : Prop :=
  ∃ inputs, runActions (PeerLink.step config nowMs) link inputs = some next ∧
    ∀ kind, inputs.flatMap (LinkAction.sends kind) = sent kind

namespace PeerLink.Moves

variable {config : EndpointConfig} {nowMs : UInt64} {link middle next : PeerLink}
  {sent more : AetherFrameKind → List Bytes}

theorem refl : Moves config nowMs link link fun _ => [] :=
  ⟨[], rfl, fun _ => rfl⟩

theorem of_step {action : LinkAction} (h : link.step config nowMs action = some next) :
    Moves config nowMs link next fun kind => action.sends kind := by
  refine ⟨[action], ?_, fun kind => by simp⟩
  simp [runActions, h]

theorem trans (h : Moves config nowMs link middle sent)
    (h' : Moves config nowMs middle next more) :
    Moves config nowMs link next fun kind => sent kind ++ more kind := by
  obtain ⟨inputs, hrun, hsent⟩ := h
  obtain ⟨others, hothers, hmore⟩ := h'
  refine ⟨inputs ++ others, runActions_append.mpr ⟨middle, hrun, hothers⟩, fun kind => ?_⟩
  rw [List.flatMap_append, hsent kind, hmore kind]

/-- Steps in which nothing is sent. -/
theorem trans_quiet (h : Moves config nowMs link middle sent)
    (h' : Moves config nowMs middle next fun _ => []) : Moves config nowMs link next sent := by
  simpa using h.trans h'

end PeerLink.Moves

namespace AetherThread

open PeerLink

variable {isUid : String → Bool} {config : EndpointConfig} {thread next : AetherThread}
  {uid other : String} {link : PeerLink}

@[simp] theorem peer_setPeer_self : (thread.setPeer uid link).peer uid = link := by
  simp [peer, setPeer]

theorem peer_setPeer_of_ne (h : other ≠ uid) :
    (thread.setPeer uid link).peer other = thread.peer other := by
  simp [peer, setPeer, AList.lookup_insert_ne h]

@[simp] theorem clockMs_setPeer : (thread.setPeer uid link).clockMs = thread.clockMs := rfl

/-- A peer is replaced by what it turned into. -/
theorem moves_setPeer {sent : AetherFrameKind → List Bytes}
    (h : Moves config thread.clockMs (thread.peer uid) link sent) (other : String) :
    Moves config thread.clockMs (thread.peer other) ((thread.setPeer uid link).peer other)
      fun kind => if uid = other then sent kind else [] := by
  by_cases hsame : uid = other
  · subst hsame
    simpa using h
  · rw [peer_setPeer_of_ne (Ne.symm hsame)]
    simpa [hsame] using Moves.refl

theorem moves_setPeer_quiet
    (h : Moves config thread.clockMs (thread.peer uid) link fun _ => []) (other : String) :
    Moves config thread.clockMs (thread.peer other) ((thread.setPeer uid link).peer other)
      fun _ => [] := by
  simpa using moves_setPeer h other

theorem moves_bindPeerStream {linked : Bool} (other : String) :
    Moves config thread.clockMs (thread.peer other)
      ((thread.bindPeerStream uid linked).peer other) fun _ => [] := by
  have hbind : (thread.peer uid).step config thread.clockMs (.bindStream linked) =
      some ((thread.peer uid).bindPeerStream thread.clockMs linked) := rfl
  exact moves_setPeer_quiet (Moves.of_step hbind) other

theorem openPeerInternal_clockMs {linked : Bool} :
    (thread.openPeerInternal isUid uid linked).clockMs = thread.clockMs := by
  unfold openPeerInternal
  split
  case isTrue => rfl
  case isFalse =>
  split
  case isTrue => rfl
  case isFalse => rfl

theorem moves_openPeerInternal {linked : Bool} (other : String) :
    Moves config thread.clockMs (thread.peer other)
      ((thread.openPeerInternal isUid uid linked).peer other) fun _ => [] := by
  unfold openPeerInternal
  split
  case isTrue => exact Moves.refl
  case isFalse =>
  split
  case isTrue => exact Moves.refl
  case isFalse => exact moves_bindPeerStream other

theorem moves_sendFrame {kind : AetherFrameKind} {bytes : Bytes} {linked : Bool}
    (hkind : PeerState.isCommanded kind) (other : String) :
    Moves config thread.clockMs (thread.peer other)
      ((thread.sendFrame isUid uid kind bytes linked).peer other)
      fun sort => if uid = other then PeerState.addsTo kind sort bytes else [] := by
  have hsend : Moves config thread.clockMs (thread.peer uid)
      { thread.peer uid with pump := (thread.peer uid).pump.queuePending kind bytes }
      fun sort => PeerState.addsTo kind sort bytes := by
    rcases hkind with rfl | rfl
    · have hstep : (thread.peer uid).step config thread.clockMs (.send bytes) = some _ := rfl
      exact Moves.of_step hstep
    · have hstep : (thread.peer uid).step config thread.clockMs (.sendControl bytes) = some _ :=
        rfl
      exact Moves.of_step hstep
  have hqueued := moves_setPeer hsend other
  have hopen : ∀ queued : AetherThread, queued.clockMs = thread.clockMs →
      Moves config thread.clockMs (queued.peer other)
        ((queued.openPeerInternal isUid uid linked).peer other) fun _ => [] := by
    intro queued hclock
    rw [← hclock]
    exact moves_openPeerInternal other
  unfold sendFrame
  dsimp only
  split
  case isTrue => exact hqueued
  case isFalse => exact hqueued.trans_quiet (hopen _ rfl)

theorem sendFrame_clockMs {kind : AetherFrameKind} {bytes : Bytes} {linked : Bool} :
    (thread.sendFrame isUid uid kind bytes linked).clockMs = thread.clockMs := by
  unfold sendFrame
  dsimp only
  split
  case isTrue => rfl
  case isFalse => exact openPeerInternal_clockMs

theorem visitPeer_clockMs : (thread.visitPeer config uid).clockMs = thread.clockMs := rfl

theorem moves_visitPeer (other : String) :
    Moves config thread.clockMs (thread.peer other)
      ((thread.visitPeer config uid).peer other) fun _ => [] := by
  have htimers : (thread.peer uid).step config thread.clockMs (.timers thread.nextNonce) =
      some ((thread.peer uid).onTimers config thread.clockMs thread.nextNonce) := rfl
  exact moves_setPeer_quiet (Moves.of_step htimers) other

theorem visitPeers_clockMs {visit : List String} :
    (thread.visitPeers config visit).clockMs = thread.clockMs := by
  unfold visitPeers
  induction visit generalizing thread with
  | nil => rfl
  | cons uid rest ih => exact ih.trans visitPeer_clockMs

theorem moves_visitPeers {visit : List String} (other : String) :
    Moves config thread.clockMs (thread.peer other)
      ((thread.visitPeers config visit).peer other) fun _ => [] := by
  induction visit generalizing thread with
  | nil => exact Moves.refl
  | cons uid rest ih =>
      have hrest : Moves config thread.clockMs ((thread.visitPeer config uid).peer other)
          (((thread.visitPeer config uid).visitPeers config rest).peer other) fun _ => [] := by
        rw [← visitPeer_clockMs]
        exact ih
      exact (moves_visitPeer other).trans_quiet hrest

/-- A callback of a peer that is known. -/
theorem moves_onPeer {change : PeerLink → Option PeerLink} (other : String)
    (hchange : ∀ link moved, change link = some moved →
      Moves config thread.clockMs link moved fun _ => [])
    (hnext : thread.onPeer uid change = some next) :
    Moves config thread.clockMs (thread.peer other) (next.peer other) (fun _ => []) ∧
      next.clockMs = thread.clockMs := by
  unfold onPeer at hnext
  split at hnext
  case h_1 =>
    cases hnext
    exact ⟨Moves.refl, rfl⟩
  case h_2 link hlink =>
    obtain ⟨moved, hmoved, rfl⟩ := Option.map_eq_some_iff.mp hnext
    have hpeer : thread.peer uid = link := by simp [peer, hlink]
    have hmoves := hchange link moved hmoved
    rw [← hpeer] at hmoves
    exact ⟨by simpa using moves_setPeer hmoves other, rfl⟩

/-- In a step of the thread every peer takes steps of its own, and the clock goes on. -/
theorem step_moves {action : AetherAction} (h : thread.step isUid config action = some next)
    (other : String) :
    Moves config thread.clockMs (thread.peer other) (next.peer other)
      (fun kind => action.sentTo other kind) ∧ thread.clockMs ≤ next.clockMs := by
  have hcallback : ∀ {change : PeerLink → Option PeerLink} {uid : String},
      (∀ link moved, change link = some moved →
        Moves config thread.clockMs link moved fun _ => []) →
      thread.onPeer uid change = some next →
        Moves config thread.clockMs (thread.peer other) (next.peer other) (fun _ => []) ∧
          thread.clockMs ≤ next.clockMs := by
    intro change uid hchange hnext
    obtain ⟨hmoves, hclock⟩ := moves_onPeer other hchange hnext
    exact ⟨hmoves, hclock ▸ UInt64.le_refl _⟩
  cases action with
  | clock nowMs =>
      unfold step at h
      dsimp only at h
      split at h
      case isTrue hlater =>
        cases h
        exact ⟨Moves.refl, hlater⟩
      case isFalse => cases h
  | openPeer uid linked =>
      cases h
      exact ⟨moves_openPeerInternal other, openPeerInternal_clockMs ▸ UInt64.le_refl _⟩
  | send uid bytes linked =>
      cases h
      exact ⟨moves_sendFrame (Or.inl rfl) other, sendFrame_clockMs ▸ UInt64.le_refl _⟩
  | sendControl uid bytes linked =>
      cases h
      exact ⟨moves_sendFrame (Or.inr rfl) other, sendFrame_clockMs ▸ UInt64.le_refl _⟩
  | closePeer uid =>
      refine hcallback (fun link moved hmoved => ?_) h
      have hstep : link.step config thread.clockMs (.close) = some moved := hmoved
      exact Moves.of_step hstep
  | newPort uid linked =>
      cases h
      exact ⟨moves_bindPeerStream other, UInt64.le_refl _⟩
  | streamData uid data =>
      refine hcallback (fun link moved hmoved => ?_) h
      have hstep : link.step config thread.clockMs (.streamData data) = some moved := hmoved
      exact Moves.of_step hstep
  | streamUpdate uid state =>
      refine hcallback (fun link moved hmoved => ?_) h
      have hstep : link.step config thread.clockMs (.streamUpdate state) = some moved := hmoved
      exact Moves.of_step hstep
  | writeStatus uid token incarnation status =>
      refine hcallback (fun link moved hmoved => ?_) h
      have hstep : link.step config thread.clockMs (.writeStatus token incarnation status) = some moved := hmoved
      exact Moves.of_step hstep
  | timers visit =>
      unfold step at h
      dsimp only at h
      split at h
      case isTrue =>
        cases h
        exact ⟨moves_visitPeers other, visitPeers_clockMs ▸ UInt64.le_refl _⟩
      case isFalse => cases h
  | pump uid info finished =>
      refine hcallback (fun link moved hmoved => ?_) h
      have hstep : link.step config thread.clockMs (.pump info finished) = some moved := hmoved
      exact Moves.of_step hstep

variable {actions : List AetherAction} {final : AetherThread}

/-- What every step of a peer keeps, at the time of the step and later, holds of every peer
after every run of the thread. -/
theorem run_preserves (invariant : UInt64 → PeerLink → Prop)
    (hlink : ∀ nowMs link action next, invariant nowMs link →
      link.step config nowMs action = some next → invariant nowMs next)
    (hlater : ∀ nowMs laterMs link, invariant nowMs link → nowMs ≤ laterMs →
      invariant laterMs link)
    (hstart : invariant thread.clockMs (thread.peer uid))
    (hrun : runActions (step isUid config) thread actions = some final) :
    invariant final.clockMs (final.peer uid) := by
  refine runActions_preserves (fun thread => invariant thread.clockMs (thread.peer uid)) ?_
    hstart hrun
  intro thread action next hbefore hstep
  obtain ⟨⟨inputs, hinputs, -⟩, hclock⟩ := step_moves hstep uid
  have hmoved : invariant thread.clockMs (next.peer uid) :=
    runActions_preserves (invariant thread.clockMs) (hlink thread.clockMs) hbefore hinputs
  exact hlater _ _ _ hmoved hclock

/-- What a run of the thread does to a peer is a run of its pump. -/
theorem run_pump (uid : String) (hrun : runActions (step isUid config) thread actions = some final) :
    ∃ inputs, runActions PeerState.step (thread.peer uid).pump inputs =
      some (final.peer uid).pump := by
  induction actions generalizing thread with
  | nil =>
      cases hrun
      exact ⟨[], rfl⟩
  | cons action rest ih =>
      obtain ⟨next, hstep, hrest⟩ := runActions_cons.mp hrun
      obtain ⟨⟨inputs, hinputs, -⟩, -⟩ := step_moves hstep uid
      obtain ⟨first, hfirst⟩ := PeerLink.run_pump hinputs
      obtain ⟨others, hothers⟩ := ih hrest
      exact ⟨first ++ others, runActions_append.mpr ⟨_, hfirst, hothers⟩⟩

/-- What a run of the thread queues for a peer is what it was commanded to send to it. -/
theorem run_queuedFrames (uid : String) {kind : AetherFrameKind}
    (hkind : PeerState.isCommanded kind)
    (hrun : runActions (step isUid config) thread actions = some final) :
    ((final.peer uid).pump.queuedFrames kind).Perm
      ((thread.peer uid).pump.queuedFrames kind ++
        actions.flatMap (AetherAction.sentTo uid kind)) := by
  induction actions generalizing thread with
  | nil =>
      cases hrun
      rw [List.flatMap_nil, List.append_nil]
  | cons action rest ih =>
      obtain ⟨next, hstep, hrest⟩ := runActions_cons.mp hrun
      obtain ⟨⟨inputs, hinputs, hsent⟩, -⟩ := step_moves hstep uid
      have hnow := PeerLink.run_queuedFrames hkind hinputs
      rw [hsent kind] at hnow
      rw [List.flatMap_cons, ← List.append_assoc]
      exact (ih hrest).trans (hnow.append_right _)

end AetherThread

/-- Two peers, one of which has no stream. -/
def twoPeersTalk : List AetherAction :=
  [.openPeer "a" true, .send "a" [1] true, .send "b" [2] true, .sendControl "a" [3] true,
    .pump "a" writableStream false, .timers ["b", "a"], .writeStatus "a" 1 1 .success,
    .pump "a" writableStream false]

end AppTraverse
