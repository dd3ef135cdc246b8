import AppTraverse.Chat.JoinProtocol

/-!
# The permission to import a room

The open expectations of the synchronization runtime, the waiting map and the join phase are
three copies of one fact.  They agree as long as no event fails the join over an open door:
an invalid host uid and a conflicting offer commit the failure without closing the
expectation, where a rejection, a timeout and a switch of the host close it.
-/

namespace AppTraverse

open Foundations

/-- An open expectation is the one of the accepted join. -/
structure DoorSound (session : ChatSession) : Prop where
  single : session.expectations.length ≤ 1
  named : ∀ expectation ∈ session.expectations, expectation.sourceEndpoint ≠ []
  asks : ∀ expectation ∈ session.expectations,
    session.join.joinPhase = .accepted ∧
      expectation.sourceEndpoint = session.join.expectedHostUid ∧
      expectation.expectedNodeId = session.join.acceptedRoomId ∧
      session.waitingEntryByEndpoint.lookup expectation.sourceEndpoint =
        some session.join.joinEntryId

/-- The phases in which control messages of the expected host open and close the door. -/
def ChatJoinPhase.isUnderway : ChatJoinPhase → Bool
  | .joining | .accepted => true
  | .idle | .joined | .failed => false

/-- A control message of the expected host arrives under the very text of its uid. -/
def NamesTrueSource (platform : ChatPlatform) (session : ChatSession) : SessionEvent → Prop
  | .control _ source _ => session.join.joinPhase.isUnderway = true →
      canonicalSource platform source = session.join.expectedHostUid →
      source = session.join.expectedHostUid
  | _ => True

/-- The events that keep the door in step with the join. -/
def KeepsDoor (platform : ChatPlatform) (session : ChatSession) : SessionAction → Prop
  | .handle event => NamesTrueSource platform session event ∧
      (session.expectations ≠ [] → ¬ LeavesDoorOpen platform session event)
  | .crash _ _ _ _ => True

section Moves

variable {platform : ChatPlatform} {session next : ChatSession} {source : Bytes}

/-- A closed door asks for nothing. -/
theorem doorSound_of_nil (h : session.expectations = []) : DoorSound session := by
  constructor
  · rw [h]
    exact Nat.zero_le 1
  all_goals
    intro expectation hmem
    rw [h] at hmem
    cases hmem

/-- While no room is accepted the door is closed. -/
theorem DoorSound.closed (h : DoorSound session) (hphase : session.join.joinPhase ≠ .accepted) :
    session.expectations = [] := by
  apply List.eq_nil_iff_forall_not_mem.mpr
  intro expectation hmem
  exact hphase (h.asks expectation hmem).1

/-- Only the expected host has a door. -/
theorem DoorSound.forgetHost (h : DoorSound session) :
    (session.forgetEndpoint session.join.expectedHostUid).expectations = [] := by
  apply List.eq_nil_iff_forall_not_mem.mpr
  intro expectation hmem
  obtain ⟨hold, hother⟩ := mem_forgetEndpoint hmem
  have hhost := (h.asks expectation hold).2.1
  have hnamed := h.named expectation hold
  rw [hhost] at hnamed
  exact hother hnamed hhost

/-- A join that is the same keeps its door. -/
theorem DoorSound.of_same (h : DoorSound session) (hjoin : SameJoin session.join next.join)
    (hexpectations : next.expectations = session.expectations)
    (hwaiting : next.waitingEntryByEndpoint = session.waitingEntryByEndpoint) :
    DoorSound next := by
  constructor
  · rw [hexpectations]
    exact h.single
  · rw [hexpectations]
    exact h.named
  · rw [hexpectations, hwaiting, hjoin.phase, hjoin.host, hjoin.accepted, hjoin.entry]
    exact h.asks

/-- The accepted room is expected from the host, which was the only one to have a door. -/
theorem DoorSound.of_expectRoom (h : DoorSound session) {roomId : ObjId}
    (hsource : source = session.join.expectedHostUid)
    (hold : session.expectations ≠ [] → session.join.acceptedRoomId = roomId)
    (hphase : next.join.joinPhase = .accepted)
    (hhost : next.join.expectedHostUid = session.join.expectedHostUid)
    (haccepted : next.join.acceptedRoomId = roomId)
    (hwaiting : next.waitingEntryByEndpoint.lookup source = some next.join.joinEntryId)
    (hexpectations : next.expectations = (session.expectRoom source roomId).expectations) :
    DoorSound next := by
  have hsame : ∀ other ∈ session.expectations, other.sourceEndpoint = source :=
    fun other hmem => (h.asks other hmem).2.1.trans hsource.symm
  -- An expectation that was open before is of the same endpoint and room.
  have hopen : ∀ expectation ∈ next.expectations, expectation.sourceEndpoint = source ∧
      expectation.expectedNodeId = roomId ∧ source ≠ [] := by
    intro expectation hmem
    rw [hexpectations] at hmem
    rcases mem_expectRoom hmem with hbefore | ⟨rfl, hnonempty⟩
    · have hroom := (h.asks expectation hbefore).2.2.1
      have hendpoint := hsame expectation hbefore
      refine ⟨hendpoint, hroom.trans (hold (List.ne_nil_of_mem hbefore)), ?_⟩
      rw [← hendpoint]
      exact h.named expectation hbefore
    · exact ⟨rfl, rfl, hnonempty⟩
  constructor
  · rw [hexpectations]
    exact length_expectRoom hsame h.single
  · intro expectation hmem
    obtain ⟨hendpoint, -, hnonempty⟩ := hopen expectation hmem
    rw [hendpoint]
    exact hnonempty
  · intro expectation hmem
    obtain ⟨hendpoint, hroom, -⟩ := hopen expectation hmem
    rw [hendpoint, hroom, hhost, haccepted]
    exact ⟨hphase, hsource, rfl, hwaiting⟩

/-- Every move keeps the door in step with the join. -/
theorem DoorSound.move (h : DoorSound session)
    (htrue : session.join.joinPhase.isUnderway = true →
      canonicalSource platform source = session.join.expectedHostUid →
      source = session.join.expectedHostUid)
    (hmove : JoinMove platform source session next) : DoorSound next := by
  cases hmove with
  | unmoved hjoin hoffers hwaiting hexpectations =>
      exact h.of_same hjoin hexpectations hwaiting
  | disconnected hjoin hoffers hexpectations => exact doorSound_of_nil hexpectations
  | connected hjoin hoffers hexpectations hsingle =>
      refine ⟨hsingle, ?_, ?_⟩
      · intro expectation hmem
        obtain ⟨-, rfl, -, hnonempty⟩ := hexpectations expectation hmem
        exact hnonempty
      · intro expectation hmem
        obtain ⟨hphase, rfl, hwaiting, -⟩ := hexpectations expectation hmem
        rw [hjoin.phase, hjoin.host, hjoin.accepted, hjoin.entry]
        exact ⟨hphase, rfl, rfl, hwaiting⟩
  | failed closed hphase hhost hexpectations =>
      apply doorSound_of_nil
      rw [hexpectations]
      by_cases hunderway : session.join.joinPhase.isUnderway = true
      · have hclosed : closed = session.join.expectedHostUid := by
          rcases hhost with hhost | ⟨rfl, hcanonical⟩
          · exact hhost
          · exact htrue hunderway hcanonical
        rw [hclosed]
        exact h.forgetHost
      · have hnone : session.expectations = [] := h.closed fun haccepted =>
          hunderway (by rw [haccepted]; rfl)
        apply List.eq_nil_iff_forall_not_mem.mpr
        intro expectation hmem
        have hbefore := (mem_forgetEndpoint hmem).1
        rw [hnone] at hbefore
        cases hbefore
  | requested entry hphase hfound hexpectations =>
      apply doorSound_of_nil
      rw [hexpectations]
      split
      case isTrue => exact h.forgetHost
      case isFalse hother => exact h.closed fun haccepted => hother (.inr haccepted)
  | offered roomId hbefore hprogress hvalid hhost hoffer hwaiting hexpectations =>
      have hsource := htrue (by rw [hbefore]; rfl) hhost
      have hnone : session.expectations = [] := h.closed (by rw [hbefore]; simp)
      rw [← hprogress.entry] at hwaiting
      exact h.of_expectRoom hsource (fun hopen => absurd hnone hopen) hprogress.phase
        hprogress.host hprogress.accepted hwaiting hexpectations
  | offeredAgain hbefore hjoin hoffers hhost hwaiting hothers hexpectations =>
      have hsource := htrue (by rw [hbefore]; rfl) hhost
      rw [← hjoin.entry] at hwaiting
      exact h.of_expectRoom hsource (fun _ => rfl) (hjoin.phase.trans hbefore) hjoin.host
        hjoin.accepted hwaiting hexpectations
  | completed roomId hbefore hprogress hvalid hhost hoffer hbound hroom hexpectations =>
      apply doorSound_of_nil
      rw [hexpectations]
      exact h.closed (by rw [hbefore]; simp)
  | imported endpoint expectation hbefore hprogress hoffers hbound hroom hopened hexpectations =>
      apply doorSound_of_nil
      have hmem := List.mem_of_find?_eq_some hopened
      have hlength := List.length_erase_of_mem hmem
      have hsingle := h.single
      rw [hexpectations, ← List.length_eq_zero_iff]
      omega

/-- A join that fails over a closed door leaves it closed. -/
theorem DoorSound.failedOpen (hnone : session.expectations = [])
    (hopen : FailedOpen session next) : DoorSound next :=
  doorSound_of_nil (hopen.expectations.trans hnone)

/-- The text that an event names its source by. -/
theorem NamesTrueSource.controlSource {event : SessionEvent}
    (h : NamesTrueSource platform session event)
    (hunderway : session.join.joinPhase.isUnderway = true)
    (hcanonical : canonicalSource platform event.controlSource = session.join.expectedHostUid) :
    event.controlSource = session.join.expectedHostUid := by
  cases event with
  | control env source bytes => exact h hunderway hcanonical
  | _ => exact hcanonical

/-- The invariants of the join and of its door. -/
structure JoinAndDoor (platform : ChatPlatform) (session : ChatSession) : Prop where
  join : JoinSound platform session
  door : DoorSound session

/-- One action keeps the door in step with the join. -/
theorem JoinAndDoor.sessionStep (huids : FormatsUids platform) (h : JoinAndDoor platform session)
    {action : SessionAction}
    (hallowed : SessionActionAllowed session action ∧ KeepsDoor platform session action)
    (hstep : sessionStep platform session action = some next) : JoinAndDoor platform next := by
  refine ⟨h.join.sessionStep huids hallowed.1 hstep, ?_⟩
  cases action with
  | handle event =>
      obtain ⟨⟨result, final⟩, hrun, rfl⟩ := Option.map_eq_some_iff.mp hstep
      obtain ⟨htrue, hopen⟩ := hallowed.2
      obtain ⟨-, hmove | ⟨hleaves, hfailed⟩⟩ :=
        (safe_sessionEvent huids h.join.nodes h.join.hasAttempt hallowed.1).run hrun
      · exact h.door.move htrue.controlSource hmove
      · have hnone : session.expectations = [] := by
          by_contra hdoor
          exact hopen hdoor hleaves
        exact .failedOpen hnone hfailed
  | crash event steps runtimeId runtimeBaseId =>
      obtain ⟨reached, hcut, rfl⟩ := Option.map_eq_some_iff.mp hstep
      have hreached := (safe_sessionEvent huids h.join.nodes h.join.hasAttempt
        hallowed.1.1).cutOff h.join.nodes hcut
      exact doorSound_of_nil (relaunched_eq hreached hallowed.1.2).2.2

end Moves

section Runs

variable {platform : ChatPlatform} {session : ChatSession}

/-- As long as no event fails the join over an open door, a room is expected from an
endpoint only while the join is Accepted, and it is the accepted room of the expected host
that the entry of the join waits for. -/
theorem importPermission_isJoins (huids : FormatsUids platform)
    {workspaceId baseId runtimeId runtimeBaseId : ObjId} (hbase : baseId.isValid = true)
    (hruntimeBase : runtimeBaseId.isValid = true) {actions : List SessionAction}
    (hallowed : EveryStep (sessionStep platform) SessionActionAllowed
      (firstSession workspaceId baseId runtimeId runtimeBaseId) actions)
    (hkeeps : EveryStep (sessionStep platform) (KeepsDoor platform)
      (firstSession workspaceId baseId runtimeId runtimeBaseId) actions)
    (hrun : runActions (sessionStep platform)
      (firstSession workspaceId baseId runtimeId runtimeBaseId) actions = some session) :
    ∀ expectation ∈ session.expectations,
      session.join.joinPhase = .accepted ∧
        expectation.sourceEndpoint = session.join.expectedHostUid ∧
        expectation.expectedNodeId = session.join.acceptedRoomId ∧
        session.waitingEntryByEndpoint.lookup expectation.sourceEndpoint =
          some session.join.joinEntryId := by
  have hfirst : JoinAndDoor platform
      (firstSession workspaceId baseId runtimeId runtimeBaseId) :=
    ⟨joinSound_firstSession hbase hruntimeBase, doorSound_of_nil rfl⟩
  have hsound : JoinAndDoor platform session :=
    runActions_invariant (JoinAndDoor platform)
      (fun _ _ _ hstate haction hstep => hstate.sessionStep huids haction hstep)
      hfirst (hallowed.and hkeeps) hrun
  exact hsound.door.asks

/-- The door is shut, and the host speaks under the text of its uid. -/
def findsDoorShut (session : ChatSession) : SessionAction → Bool
  | .handle (.control _ source _) =>
      decide (source = session.join.expectedHostUid) && session.expectations.isEmpty
  | .handle _ => session.expectations.isEmpty
  | .crash _ _ _ _ => true

/-- Nothing happens over a door that is shut. -/
theorem keepsDoor_of_findsDoorShut {action : SessionAction}
    (h : findsDoorShut session action = true) : KeepsDoor platform session action := by
  cases action with
  | crash event steps runtimeId runtimeBaseId => trivial
  | handle event =>
      cases event with
      | control env source bytes =>
          rw [findsDoorShut, Bool.and_eq_true, decide_eq_true_eq] at h
          exact ⟨fun _ _ => h.1, fun hopen => absurd (List.isEmpty_iff.mp h.2) hopen⟩
      | _ => exact ⟨trivial, fun hopen => absurd (List.isEmpty_iff.mp h) hopen⟩

theorem roomOffered_opensDoor : ∃ session,
    runActions (sessionStep chatPlatform) (firstSession ⟨1⟩ ⟨2⟩ ⟨3⟩ ⟨4⟩)
      (roomOffered.map ScriptedAction.action) = some session ∧
    session.expectations ≠ [] ∧
    ∀ expectation ∈ session.expectations, session.join.joinPhase = .accepted := by
  have hoffers : (runActions (sessionStep chatPlatform) (firstSession ⟨1⟩ ⟨2⟩ ⟨3⟩ ⟨4⟩)
      (roomOffered.map ScriptedAction.action)).any (fun session =>
        !session.expectations.isEmpty) = true := by decide
  have hshut : EveryStep (sessionStep chatPlatform)
      (fun session action => findsDoorShut session action = true)
      (firstSession ⟨1⟩ ⟨2⟩ ⟨3⟩ ⟨4⟩) (roomOffered.map ScriptedAction.action) := by
    decide
  obtain ⟨session, hrun, hopen⟩ := (Option.any_eq_true _ _).mp hoffers
  refine ⟨session, hrun, by simpa using hopen, fun expectation hmem => ?_⟩
  exact (importPermission_isJoins chatPlatform_formatsUids (by decide) (by decide)
    (everyStep_of_followsScript (by decide))
    (hshut.mono fun _ _ => keepsDoor_of_findsDoorShut) hrun expectation hmem).1

/-- Then it offers the room 11. -/
def otherRoomOffered : List ScriptedAction :=
  roomOffered ++
    [controlArrived 80000 hostUid ⟨.joinAccepted, ⟨50100⟩, ⟨11⟩, []⟩ rfl]

theorem conflictingOffer_leavesDoorOpen : ∃ session,
    EveryStep (sessionStep chatPlatform) SessionActionAllowed
      (firstSession ⟨1⟩ ⟨2⟩ ⟨3⟩ ⟨4⟩) (otherRoomOffered.map ScriptedAction.action) ∧
    runActions (sessionStep chatPlatform) (firstSession ⟨1⟩ ⟨2⟩ ⟨3⟩ ⟨4⟩)
      (otherRoomOffered.map ScriptedAction.action) = some session ∧
    ¬ ∀ expectation ∈ session.expectations,
      session.join.joinPhase = .accepted ∧
        expectation.sourceEndpoint = session.join.expectedHostUid ∧
        expectation.expectedNodeId = session.join.acceptedRoomId ∧
        session.waitingEntryByEndpoint.lookup expectation.sourceEndpoint =
          some session.join.joinEntryId := by
  have hfails : (runActions (sessionStep chatPlatform) (firstSession ⟨1⟩ ⟨2⟩ ⟨3⟩ ⟨4⟩)
      (otherRoomOffered.map ScriptedAction.action)).any (fun session =>
        decide (session.join.joinPhase = .failed) && !session.expectations.isEmpty) = true := by
    decide
  obtain ⟨session, hrun, hopen⟩ := (Option.any_eq_true _ _).mp hfails
  refine ⟨session, everyStep_of_followsScript (by decide), hrun, ?_⟩
  rw [Bool.and_eq_true, decide_eq_true_eq, Bool.not_eq_true'] at hopen
  obtain ⟨expectation, hmem⟩ := List.exists_mem_of_ne_nil session.expectations
    (by simpa using hopen.2)
  intro hall
  have hphase := (hall expectation hmem).1
  rw [hopen.1] at hphase
  cases hphase

end Runs

end AppTraverse
