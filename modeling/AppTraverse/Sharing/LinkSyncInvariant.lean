import AppTraverse.Foundations.EffectLog
import AppTraverse.Sharing.LinkSyncState

/-!
# The well-formed states of a relationship

`WellFormed` is what synchronization keeps of a `LinkSyncState`, and `Advances` is
how one moves.  `IsPermitted` lists the commits that synchronization makes on a state
that exists; each of them succeeds, keeps the state well formed and advances it.
-/

namespace AppTraverse

open Foundations

namespace LinkSyncState

/-- A well-formed state: one packet at most is pending, and the phase says which. -/
structure WellFormed (state : LinkSyncState) : Prop where
  named : state.initialSyncPhase = .notStarted ∨ state.initialSyncPhase = .pending ∨
    state.initialSyncPhase = .complete
  pending_iff : state.initialSyncPhase = .pending ↔
    state.pendingInitialPacketId.isValid = true ∧ state.pendingInitialPacket ≠ []
  event : state.hasPendingEvent = true → state.initialSyncPhase = .complete ∧
    state.pendingEventPacketId.isValid = true ∧ state.pendingEventPacket ≠ [] ∧
    state.hasDelivered state.pendingEventIdentity = false
  onePacket : ¬ (state.pendingInitialPacketId.isValid = true ∧
    state.pendingEventPacketId.isValid = true)
  deliveredOnce : state.deliveredEventIds.Nodup
  /-- No packet id is left over from an initial synchronization. -/
  settled : state.initialSyncPhase ≠ .pending → state.pendingInitialPacketId = .empty

/-- How a state moves: delivered identities are only added, and a completed initial
synchronization stays complete. -/
structure Advances (state state' : LinkSyncState) : Prop where
  sameShare : state'.shareId = state.shareId
  delivered : state.deliveredEventIds <+: state'.deliveredEventIds
  complete : state.initialSyncPhase = .complete → state'.initialSyncPhase = .complete

theorem Advances.refl (state : LinkSyncState) : state.Advances state :=
  ⟨rfl, List.prefix_refl _, id⟩

theorem Advances.trans {state state' state'' : LinkSyncState} (h : state.Advances state')
    (h' : state'.Advances state'') : state.Advances state'' :=
  ⟨h'.sameShare.trans h.sameShare, h.delivered.trans h'.delivered,
    fun hcomplete => h'.complete (h.complete hcomplete)⟩

theorem prefix_addDelivered (delivered added : List SharedEventId) :
    delivered <+: addDelivered delivered added := by
  induction added generalizing delivered with
  | nil => exact List.prefix_refl _
  | cons head rest ih =>
      unfold addDelivered
      split
      case isTrue => exact ih delivered
      case isFalse => exact (List.prefix_append delivered [head]).trans (ih _)

theorem nodup_addDelivered {delivered : List SharedEventId} (added : List SharedEventId)
    (h : delivered.Nodup) : (addDelivered delivered added).Nodup := by
  induction added generalizing delivered with
  | nil => exact h
  | cons head rest ih =>
      unfold addDelivered
      split
      case isTrue => exact ih h
      case isFalse hnew =>
        refine ih ?_
        refine List.nodup_append.mpr ⟨h, by simp, ?_⟩
        intro identity hidentity other hother
        rw [List.mem_singleton.mp hother]
        exact fun hsame => hnew (hsame ▸ hidentity)

/-- A state without a packet: new, or complete. -/
structure IsIdle (state : LinkSyncState) : Prop where
  phase : state.initialSyncPhase = .notStarted ∨ state.initialSyncPhase = .complete
  initial : state.pendingInitialPacketId = .empty
  event : state.pendingEventPacketId = .empty
  deliveredOnce : state.deliveredEventIds.Nodup

theorem isIdle_fresh (shareId link : ObjId) : (fresh shareId link).IsIdle :=
  ⟨Or.inl rfl, rfl, rfl, List.nodup_nil⟩

theorem IsIdle.hasPendingEvent {state : LinkSyncState} (h : state.IsIdle) :
    state.hasPendingEvent = false := by
  rw [LinkSyncState.hasPendingEvent, h.event]
  rfl

theorem IsIdle.not_pending {state : LinkSyncState} (h : state.IsIdle) :
    state.initialSyncPhase ≠ .pending := by
  rcases h.phase with hphase | hphase
  · simp [hphase]
  · simp [hphase]

theorem IsIdle.wellFormed {state : LinkSyncState} (h : state.IsIdle) : state.WellFormed := by
  have hinitial : state.pendingInitialPacketId.isValid = false := by
    rw [h.initial]
    rfl
  have hevent := h.hasPendingEvent
  refine ⟨?_, ⟨fun hpending => absurd hpending h.not_pending, fun hvalid => ?_⟩,
    fun hpending => ?_, fun hboth => ?_, h.deliveredOnce, fun _ => h.initial⟩
  · rcases h.phase with hphase | hphase
    · exact Or.inl hphase
    · exact Or.inr (Or.inr hphase)
  · rw [hinitial] at hvalid
    cases hvalid.1
  · rw [hevent] at hpending
    cases hpending
  · rw [hinitial] at hboth
    cases hboth.1

/-- The commits that synchronization makes on a state. -/
inductive IsPermitted (state : LinkSyncState) : LinkSyncEvent → Prop where
  | beginInitial {packet : Bytes} {covered : List SharedEventId}
      (open' : state.initialSyncPhase ≠ .complete ∧ state.initialSyncPhase ≠ .pending)
      (nonempty : packet ≠ []) : IsPermitted state (.beginInitialSync packet covered)
  | beginEvent {identity : SharedEventId} {packet : Bytes}
      (complete : state.initialSyncPhase = .complete)
      (idle : state.hasPendingEvent = false)
      (shared : identity.originUid ≠ [])
      (undelivered : state.hasDelivered identity = false)
      (nonempty : packet ≠ []) : IsPermitted state (.beginIncrementalEventSync identity packet)
  | completeInitial (pending : state.initialSyncPhase = .pending) :
      IsPermitted state .completeInitialSync
  | completeEvent (complete : state.initialSyncPhase = .complete)
      (pending : state.hasPendingEvent = true) :
      IsPermitted state .completeIncrementalEventSync

/-- A permitted commit succeeds, keeps the state well formed and advances it. -/
theorem WellFormed.commit {state : LinkSyncState} (h : state.WellFormed) {eventId : ObjId}
    (hvalid : eventId.isValid = true) {event : LinkSyncEvent} (hpermitted : state.IsPermitted event) :
    ∃ committed, state.commit eventId event = .ok committed ∧ committed.WellFormed ∧
      state.Advances committed := by
  have hempty : ObjId.empty.isValid = false := rfl
  cases hpermitted with
  | @beginInitial packet covered hopen hnonempty =>
      have hstart : state.initialSyncPhase = .notStarted := by
        rcases h.named with hphase | hphase | hphase
        · exact hphase
        · exact absurd hphase hopen.2
        · exact absurd hphase hopen.1
      have hidle : state.hasPendingEvent = false := by
        cases hpending : state.hasPendingEvent with
        | false => rfl
        | true => exact absurd (h.event hpending).1 hopen.1
      refine ⟨{ state with
          initialSyncPhase := .pending
          pendingInitialPacketId := eventId
          pendingInitialPacket := packet
          pendingInitialCoveredEventIds := covered }, ?_, ?_, ?_⟩
      · simp [LinkSyncState.commit, canApply, apply, hstart, hnonempty, assertThat, bind,
          Except.bind, pure, Except.pure]
      · refine ⟨Or.inr (Or.inl rfl), ⟨fun _ => ⟨hvalid, hnonempty⟩, fun _ => rfl⟩,
          fun hpending => ?_, fun hboth => ?_, h.deliveredOnce, fun hnot => absurd rfl hnot⟩
        · exact absurd (hidle.symm.trans hpending) Bool.false_ne_true
        · exact absurd (hidle.symm.trans hboth.2) Bool.false_ne_true
      · exact ⟨rfl, List.prefix_refl _, fun hcomplete => absurd hcomplete hopen.1⟩
  | @beginEvent identity packet hcomplete hidle hshared hundelivered hnonempty =>
      have hnot : state.initialSyncPhase ≠ .pending := by
        rw [hcomplete]
        simp
      refine ⟨{ state with
          pendingEventPacketId := eventId
          pendingEventIdentity := identity
          pendingEventPacket := packet }, ?_, ?_, ?_⟩
      · simp [LinkSyncState.commit, canApply, apply, hcomplete, hidle, hshared, hnonempty,
          assertThat, bind, Except.bind, pure, Except.pure]
      · refine ⟨h.named, h.pending_iff, fun _ => ⟨hcomplete, hvalid, hnonempty, hundelivered⟩,
          fun hboth => ?_, h.deliveredOnce, h.settled⟩
        have hinitial : state.pendingInitialPacketId.isValid = true := hboth.1
        rw [h.settled hnot] at hinitial
        cases hinitial
      · exact ⟨rfl, List.prefix_refl _, id⟩
  | completeInitial hpending =>
      refine ⟨_, rfl, ?_, ?_⟩
      · refine IsIdle.wellFormed ⟨Or.inr rfl, rfl, ?_, nodup_addDelivered _ h.deliveredOnce⟩
        show state.pendingEventPacketId = .empty
        rw [← ObjId.isValid_eq_false_iff]
        cases hevent : state.pendingEventPacketId.isValid with
        | false => rfl
        | true =>
            have hcomplete := (h.event hevent).1
            rw [hpending] at hcomplete
            cases hcomplete
      · exact ⟨rfl, prefix_addDelivered _ _, fun _ => rfl⟩
  | completeEvent hcomplete hpending =>
      have hnot : state.initialSyncPhase ≠ .pending := by
        rw [hcomplete]
        simp
      refine ⟨{ state with
          deliveredEventIds := addDelivered state.deliveredEventIds [state.pendingEventIdentity]
          pendingEventPacketId := .empty
          pendingEventIdentity := {}
          pendingEventPacket := [] }, ?_, ?_, ?_⟩
      · simp [LinkSyncState.commit, canApply, apply, hpending, assertThat, bind, Except.bind,
          pure, Except.pure]
      · exact IsIdle.wellFormed ⟨Or.inr hcomplete, h.settled hnot, rfl,
          nodup_addDelivered _ h.deliveredOnce⟩
      · exact ⟨rfl, prefix_addDelivered _ _, fun _ => hcomplete⟩

/-- A received snapshot completes a state that nothing has happened to. -/
theorem IsIdle.completeFromReceivedSnapshot {state : LinkSyncState} (h : state.IsIdle)
    (hstart : state.initialSyncPhase = .notStarted) (eventId : ObjId)
    (delivered : List SharedEventId) :
    ∃ committed, state.commit eventId (.completeFromReceivedSnapshot delivered) =
      .ok committed := by
  have hcan : state.canApply (.completeFromReceivedSnapshot delivered) = true := by
    simp [canApply, hstart, h.hasPendingEvent]
  exact ⟨_, by rw [LinkSyncState.commit, hcan]; rfl⟩

/-- A state without a packet stays without one when a receipt is recorded. -/
theorem IsIdle.of_commit {state committed : LinkSyncState} (h : state.IsIdle)
    {eventId : ObjId} {event : LinkSyncEvent}
    (hcommit : state.commit eventId event = .ok committed)
    (hevent : (∃ delivered, event = .completeFromReceivedSnapshot delivered) ∨
      ∃ packetId, event = .noteInitialSyncReceived packetId) : committed.IsIdle := by
  obtain ⟨-, -, happly⟩ := except_bind_eq_ok_iff.mp hcommit
  rcases hevent with ⟨delivered, rfl⟩ | ⟨packetId, rfl⟩
  · cases happly
    exact ⟨Or.inr rfl, rfl, h.event, nodup_addDelivered _ h.deliveredOnce⟩
  · cases happly
    exact ⟨Or.inr rfl, h.initial, h.event, h.deliveredOnce⟩

end LinkSyncState

end AppTraverse
