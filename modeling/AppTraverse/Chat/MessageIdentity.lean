import AppTraverse.Chat.SubmitDraft

/-!
# A message identity is used once

`SubmitDraft` persists the reservation of a sequence number before there is a message with
it.  Whatever a crash takes away, the persisted counter is past every number that a
message was given, and the next message gets a number that is not below the counter.
What a crash can take away is a reservation that was not persisted yet; its number is
reserved again, and no message had it.
-/

namespace AppTraverse

open Foundations

/-- The counter of a replica. -/
def ChatState.counter (state : ChatState) : Nat :=
  state.workspace.fields.nextMessageSequence.toNat

/-- The sequence numbers that were reserved, persisted and used, against the persisted
counter and the one in memory. -/
structure CounterSound (world : ChatWorld) : Prop where
  saved_le : world.saved.counter ≤ world.live.counter
  unsaved : ∀ sequence ∈ world.history.unsaved,
    world.saved.counter ≤ sequence.toNat ∧ sequence.toNat < world.live.counter
  unsavedSorted : world.history.unsaved.Pairwise (· < ·)
  durable : ∀ sequence ∈ world.history.durable, sequence.toNat < world.saved.counter
  durableSorted : world.history.durable.Pairwise (· < ·)
  authored : ∀ message ∈ world.history.authored,
    message.id.originSequence ∈ world.history.durable
  authoredOnce : (world.history.authored.map fun message => message.id.originSequence).Nodup

/-- A message whose number was persisted, and that is not placed yet. -/
structure ReadyToPlace (world : ChatWorld) (message : MessageValue) : Prop where
  durable : message.id.originSequence ∈ world.history.durable
  unused : ∀ other ∈ world.history.authored,
    other.id.originSequence ≠ message.id.originSequence

section Stages

variable {roomIds : Nat → ObjId} {hids : ∀ n, (roomIds n).isValid = true}
  {world next : ChatWorld} {clockUs : UInt64}

/-- A reservation takes the number that is next, and moves the counter past it. -/
theorem reservation_of_commit {workspace after : ChatWorkspace} {eventId : ObjId}
    {event : ChatWorkspaceEvent} (h : workspace.IsLocal chatWorkspace)
    (hcommit : commit chatWorkspace.nodeClass workspace ⟨eventId, some event⟩ clockUs =
      .ok after) :
    (reservedBy event = [] ∧
        after.fields.nextMessageSequence = workspace.fields.nextMessageSequence) ∨
      (reservedBy event = [workspace.fields.nextMessageSequence] ∧
        after.fields.nextMessageSequence.toNat =
          workspace.fields.nextMessageSequence.toNat + 1) := by
  obtain ⟨hcan, -, hcommitted⟩ := h.committed rfl hcommit
  rw [hcommitted.fields]
  cases event with
  | messageSequenceReserved sequence =>
      right
      simp only [chatWorkspace, Bool.and_eq_true, decide_eq_true_eq] at hcan
      obtain ⟨⟨rfl, -⟩, hmax⟩ := hcan
      refine ⟨rfl, ?_⟩
      have hbound := workspace.fields.nextMessageSequence.toNat_lt
      have hlast : maxMessageSequence.toNat = 2 ^ 64 - 1 := rfl
      have hne : workspace.fields.nextMessageSequence.toNat ≠ maxMessageSequence.toNat :=
        fun hsame => hmax (UInt64.toNat_inj.mp hsame)
      show (workspace.fields.nextMessageSequence + 1).toNat = _
      rw [UInt64.toNat_add]
      have hone : (1 : UInt64).toNat = 1 := rfl
      omega
  | demoRoleConfigured role => exact Or.inl ⟨rfl, rfl⟩
  | hostUidInputChanged text => exact Or.inl ⟨rfl, rfl⟩
  | localEndpointBound uid => exact Or.inl ⟨rfl, rfl⟩
  | chatEntryAdded entry => exact Or.inl ⟨rfl, rfl⟩
  | chatSelected entryId => exact Or.inl ⟨rfl, rfl⟩
  | desktopBoundsChanged bounds => exact Or.inl ⟨rfl, rfl⟩

/-- Numbers in order, with a greater one behind them. -/
theorem pairwise_snoc {sequences : List UInt64} {last : UInt64}
    (hsorted : sequences.Pairwise (· < ·)) (hlast : ∀ sequence ∈ sequences, sequence < last) :
    (sequences ++ [last]).Pairwise (· < ·) := by
  rw [List.pairwise_append]
  refine ⟨hsorted, List.pairwise_singleton _ _, ?_⟩
  intro sequence hsequence other hother
  rw [List.mem_singleton.mp hother]
  exact hlast sequence hsequence

namespace CounterSound

/-- After a commit of the workspace the counter is past what was reserved. -/
theorem commitWorkspace (h : CounterSound world) (hlocal : world.live.workspace.IsLocal chatWorkspace)
    {eventId : ObjId} {event : ChatWorkspaceEvent} {workspace : ChatWorkspace}
    (hcommit : commit chatWorkspace.nodeClass world.live.workspace ⟨eventId, some event⟩
      clockUs = .ok workspace) :
    CounterSound { world with
      live := { world.live with workspace := workspace }
      history := { world.history with
        reserved := world.history.reserved ++ reservedBy event
        unsaved := world.history.unsaved ++ reservedBy event } } := by
  rcases reservation_of_commit hlocal hcommit with ⟨hnone, hsame⟩ | ⟨hone, hnext⟩
  · have hcounter : ({ world.live with workspace := workspace } : ChatState).counter =
        world.live.counter := congrArg UInt64.toNat hsame
    rw [hnone, List.append_nil, List.append_nil]
    refine ⟨?_, ?_, h.unsavedSorted, h.durable, h.durableSorted, h.authored, h.authoredOnce⟩
    · rw [hcounter]
      exact h.saved_le
    · rw [hcounter]
      exact h.unsaved
  · have hcounter : ({ world.live with workspace := workspace } : ChatState).counter =
        world.live.counter + 1 := hnext
    rw [hone]
    refine ⟨?_, ?_, ?_, h.durable, h.durableSorted, h.authored, h.authoredOnce⟩
    · rw [hcounter]
      exact Nat.le_succ_of_le h.saved_le
    · rw [hcounter]
      intro sequence hsequence
      rcases List.mem_append.mp hsequence with hold | hnew
      · obtain ⟨hle, hlt⟩ := h.unsaved sequence hold
        exact ⟨hle, Nat.lt_succ_of_lt hlt⟩
      · rw [List.mem_singleton.mp hnew]
        exact ⟨h.saved_le, Nat.lt_succ_self _⟩
    · refine pairwise_snoc h.unsavedSorted ?_
      intro sequence hsequence
      exact UInt64.lt_iff_toNat_lt.mpr (h.unsaved sequence hsequence).2

theorem persist (h : CounterSound world) : CounterSound world.persist where
  saved_le := Nat.le_refl _
  unsaved := by simp [ChatWorld.persist]
  unsavedSorted := List.Pairwise.nil
  durable := by
    intro sequence hsequence
    rcases List.mem_append.mp hsequence with hold | hnew
    · exact Nat.lt_of_lt_of_le (h.durable sequence hold) h.saved_le
    · exact (h.unsaved sequence hnew).2
  durableSorted := by
    show (world.history.durable ++ world.history.unsaved).Pairwise (· < ·)
    rw [List.pairwise_append]
    refine ⟨h.durableSorted, h.unsavedSorted, ?_⟩
    intro sequence hsequence other hother
    rw [UInt64.lt_iff_toNat_lt]
    exact Nat.lt_of_lt_of_le (h.durable sequence hsequence) (h.unsaved other hother).1
  authored := fun message hmessage => List.mem_append_left _ (h.authored message hmessage)
  authoredOnce := h.authoredOnce

/-- A restart forgets the reservations that were not persisted. -/
theorem restart (h : CounterSound world) : CounterSound world.restart where
  saved_le := Nat.le_refl _
  unsaved := by simp [ChatWorld.restart]
  unsavedSorted := List.Pairwise.nil
  durable := h.durable
  durableSorted := h.durableSorted
  authored := h.authored
  authoredOnce := h.authoredOnce

/-- A stage that places no message. -/
theorem runStage (h : CounterSound world) (hlocal : world.live.workspace.IsLocal chatWorkspace)
    {stage : ChatStage} (hstage : ∀ roomId eventId message,
      stage ≠ .commitMessage roomId eventId message)
    (hrun : world.runStage roomIds clockUs stage = .ok next) : CounterSound next := by
  cases stageRun_of_runStage hrun with
  | createEntry entryId baseId fields hresult =>
      subst hresult
      exact ⟨h.saved_le, h.unsaved, h.unsavedSorted, h.durable, h.durableSorted, h.authored,
        h.authoredOnce⟩
  | commitWorkspace eventId event workspace hcommit hresult =>
      subst hresult
      exact h.commitWorkspace hlocal hcommit
  | commitEntry entryId eventId event entry after hentry hcommit hresult =>
      subst hresult
      exact ⟨h.saved_le, h.unsaved, h.unsavedSorted, h.durable, h.durableSorted, h.authored,
        h.authoredOnce⟩
  | commitMessage roomId eventId message room after hroom hcommit hresult =>
      exact absurd rfl (hstage roomId eventId message)
  | persist hresult =>
      subst hresult
      exact h.persist

/-- A message that is ready is placed. -/
theorem placeMessage (h : CounterSound world) {roomId eventId : ObjId} {message : MessageValue}
    (hready : ReadyToPlace world message)
    (hrun : world.runStage roomIds clockUs (.commitMessage roomId eventId message) =
      .ok next) : CounterSound next := by
  cases stageRun_of_runStage hrun with
  | commitMessage _ _ _ room after hroom hcommit hresult =>
      subst hresult
      refine ⟨h.saved_le, h.unsaved, h.unsavedSorted, h.durable, h.durableSorted, ?_, ?_⟩
      · intro other hother
        rcases List.mem_append.mp hother with hold | hnew
        · exact h.authored other hold
        · rw [List.mem_singleton.mp hnew]
          exact hready.durable
      · rw [List.map_append, List.nodup_append]
        refine ⟨h.authoredOnce, List.nodup_singleton _, ?_⟩
        intro used hused fresh hfresh
        obtain ⟨other, hother, rfl⟩ := List.mem_map.mp hused
        rw [List.map_singleton, List.mem_singleton] at hfresh
        rw [hfresh]
        exact hready.unused other hother

end CounterSound

/-- The stage places a message in a room. -/
def ChatStage.placesMessage : ChatStage → Bool
  | .commitMessage _ _ _ => true
  | _ => false

/-- Stages of which none places a message. -/
theorem counterSound_runStages (h : CounterSound world) (hsound : world.Sound hids)
    {stages : List ChatStage} (hallowed : ∀ stage ∈ stages, StageAllowed world.live stage)
    (hplaces : ∀ stage ∈ stages, stage.placesMessage = false)
    (hrun : world.runStages roomIds clockUs stages = .ok next) : CounterSound next := by
  induction stages generalizing world with
  | nil =>
      cases hrun
      exact h
  | cons stage rest ih =>
      rw [ChatWorld.runStages, List.foldlM_cons] at hrun
      obtain ⟨middle, hstage, hrest⟩ := except_bind_eq_ok_iff.mp hrun
      have hfirst := hallowed stage List.mem_cons_self
      have hmiddle : middle.Sound hids := hsound.runStage hfirst hstage
      refine ih (h.runStage hsound.1.workspace ?_ hstage) hmiddle ?_ ?_ hrest
      · rintro roomId eventId message rfl
        have hnone := hplaces _ List.mem_cons_self
        cases hnone
      · intro other hother
        exact stageAllowed_of_runStage hstage (hallowed other (List.mem_cons_of_mem _ hother))
      · exact fun other hother => hplaces other (List.mem_cons_of_mem _ hother)

/-- Once its reservation is persisted, a message is ready. -/
theorem readyToPlace_of_reserved (h : CounterSound world)
    (hlocal : world.live.workspace.IsLocal chatWorkspace) {eventId : ObjId}
    {message : MessageValue}
    (hrun : world.runStage roomIds clockUs (.commitWorkspace eventId
      (.messageSequenceReserved message.id.originSequence)) = .ok next) :
    ReadyToPlace next.persist message := by
  cases stageRun_of_runStage hrun with
  | commitWorkspace _ _ workspace hcommit hresult =>
      subst hresult
      rcases reservation_of_commit hlocal hcommit with ⟨hnone, -⟩ | ⟨hone, -⟩
      · cases hnone
      have hsequence : message.id.originSequence =
          world.live.workspace.fields.nextMessageSequence := List.head_eq_of_cons_eq hone
      constructor
      · show message.id.originSequence ∈ world.history.durable ++
          (world.history.unsaved ++ [message.id.originSequence])
        simp
      · intro other hother hsame
        have hused := h.durable _ (h.authored other hother)
        have hle := h.saved_le
        rw [hsame, hsequence] at hused
        exact absurd (Nat.lt_of_lt_of_le hused hle) (Nat.lt_irrefl _)

/-- `SubmitDraft`, as far as it gets. -/
theorem counterSound_submitStages (h : CounterSound world) (hsound : world.Sound hids)
    {env : CommandEnv} {entryId roomId : ObjId} {message : MessageValue} (count : Nat)
    (hrun : world.runStages roomIds clockUs
      ((submitStages env entryId roomId message).take count) = .ok next) :
    CounterSound next := by
  have hallowed : ∀ stage ∈ submitStages env entryId roomId message,
      StageAllowed world.live stage := by
    simp [submitStages, StageAllowed]
  by_cases hshort : count ≤ 2
  · -- The message does not exist yet.
    have hplaces : ∀ stage ∈ (submitStages env entryId roomId message).take count,
        stage.placesMessage = false := by
      intro stage hstage
      have hmem : stage ∈ (submitStages env entryId roomId message).take 2 :=
        (List.take_subset_take_left _ hshort) hstage
      simp only [submitStages, List.take_succ_cons, List.take_zero, List.mem_cons,
        List.not_mem_nil, or_false] at hmem
      rcases hmem with rfl | rfl <;> rfl
    exact counterSound_runStages h hsound
      (fun stage hstage => hallowed stage (List.mem_of_mem_take hstage)) hplaces hrun
  · obtain ⟨rest, rfl⟩ : ∃ rest, count = rest + 3 := ⟨count - 3, by omega⟩
    simp only [submitStages, List.take_succ_cons, ChatWorld.runStages, List.foldlM_cons] at hrun
    obtain ⟨reserved, hreserve, hrun⟩ := except_bind_eq_ok_iff.mp hrun
    obtain ⟨persisted, hpersist, hrun⟩ := except_bind_eq_ok_iff.mp hrun
    obtain ⟨placed, hplace, hrest⟩ := except_bind_eq_ok_iff.mp hrun
    have hreservedSound : reserved.Sound hids :=
      hsound.runStage (hallowed _ List.mem_cons_self) hreserve
    have hpersistedSound : persisted.Sound hids := hreservedSound.runStage (by exact trivial) hpersist
    have hplacedSound : placed.Sound hids := hpersistedSound.runStage (by exact trivial) hplace
    cases hpersist
    have hready := readyToPlace_of_reserved h hsound.1.workspace hreserve
    have hreserved : CounterSound reserved :=
      h.runStage hsound.1.workspace (fun _ _ _ hstage => by cases hstage) hreserve
    have hplaced : CounterSound placed := hreserved.persist.placeMessage hready hplace
    refine counterSound_runStages hplaced hplacedSound ?_ ?_ hrest
    · intro stage hstage
      have hmem := List.mem_of_mem_take hstage
      simp only [List.mem_cons, List.not_mem_nil, or_false] at hmem
      rcases hmem with rfl | rfl | rfl <;> trivial
    · intro stage hstage
      have hmem := List.mem_of_mem_take hstage
      simp only [List.mem_cons, List.not_mem_nil, or_false] at hmem
      rcases hmem with rfl | rfl | rfl <;> rfl

end Stages

section Runs

variable {roomIds : Nat → ObjId} {hids : ∀ n, (roomIds n).isValid = true}
  {world next : ChatWorld}

/-- Only `SubmitDraft` places messages. -/
theorem stages_placesMessage {env : CommandEnv} {state : ChatState} {command : ChatCommand}
    (hcommand : ∀ entryId nowUs, command ≠ .submitDraft entryId nowUs) :
    ∀ stage ∈ command.stages env state, stage.placesMessage = false := by
  cases command with
  | submitDraft entryId nowUs => exact absurd rfl (hcommand entryId nowUs)
  | _ =>
      simp only [ChatCommand.stages, configureDemoRole, setHostUidInput, openOrSelectChat,
        bindChat, bindLocalEndpoint, setDraft, setScroll, setEntryField, setDesktopBounds,
        selectChat]
      repeat' split
      all_goals simp [ChatStage.placesMessage]

/-- A command, as far as it gets. -/
theorem counterSound_command (h : CounterSound world) (hsound : world.Sound hids)
    {env : CommandEnv} (henv : ∀ n, (env.ids n).isValid = true) {command : ChatCommand}
    (count : Nat) (hrun : world.runStages roomIds env.clockUs
      ((command.stages env world.live).take count) = .ok next) : CounterSound next := by
  by_cases hsubmit : ∃ entryId nowUs, command = .submitDraft entryId nowUs
  · obtain ⟨entryId, nowUs, rfl⟩ := hsubmit
    simp only [ChatCommand.stages, submitDraft] at hrun
    split at hrun
    · rw [List.take_nil] at hrun
      cases hrun
      exact h
    split at hrun
    · rw [List.take_nil] at hrun
      cases hrun
      exact h
    split at hrun
    · rw [List.take_nil] at hrun
      cases hrun
      exact h
    · exact counterSound_submitStages h hsound count hrun
  · refine counterSound_runStages h hsound ?_ ?_ hrun
    · exact fun stage hstage => stagesAllowed henv stage (List.mem_of_mem_take hstage)
    · intro stage hstage
      refine stages_placesMessage ?_ stage (List.mem_of_mem_take hstage)
      rintro entryId nowUs rfl
      exact hsubmit ⟨entryId, nowUs, rfl⟩

/-- What happens to rooms does not touch the counter. -/
theorem CounterSound.of_rooms (h : CounterSound world)
    (hlive : next.live.workspace = world.live.workspace)
    (hsaved : next.saved.workspace = world.saved.workspace)
    (hhistory : next.history = world.history) : CounterSound next := by
  have hliveCounter : next.live.counter = world.live.counter := by
    rw [ChatState.counter, hlive]
    rfl
  have hsavedCounter : next.saved.counter = world.saved.counter := by
    rw [ChatState.counter, hsaved]
    rfl
  constructor
  · rw [hliveCounter, hsavedCounter]
    exact h.saved_le
  · rw [hliveCounter, hsavedCounter, hhistory]
    exact h.unsaved
  · rw [hhistory]
    exact h.unsavedSorted
  · rw [hsavedCounter, hhistory]
    exact h.durable
  · rw [hhistory]
    exact h.durableSorted
  · rw [hhistory]
    exact h.authored
  · rw [hhistory]
    exact h.authoredOnce

theorem CounterSound.chatStep (h : CounterSound world) (hsound : world.Sound hids)
    {action : ChatAction} (hallowed : ChatActionAllowed world action)
    (hstep : chatStep roomIds world action = some next) : CounterSound next := by
  cases action with
  | run env command =>
      have hrun : world.runStages roomIds env.clockUs ((command.stages env world.live).take
          (command.stages env world.live).length) = .ok next := by
        rw [List.take_length]
        exact toOption_eq_some_iff.mp hstep
      exact counterSound_command h hsound hallowed _ hrun
  | interrupted env command count =>
      obtain ⟨reached, hrun, rfl⟩ := Option.map_eq_some_iff.mp hstep
      exact (counterSound_command h hsound hallowed count (toOption_eq_some_iff.mp hrun)).restart
  | crash =>
      cases hstep
      exact h.restart
  | persist =>
      cases hstep
      exact h.persist
  | createRoom roomId baseId =>
      cases hstep
      exact h.of_rooms rfl rfl rfl
  | importRoom snapshot =>
      obtain ⟨room, -, rfl⟩ := Option.map_eq_some_iff.mp hstep
      exact h.of_rooms rfl rfl rfl
  | callRoom roomId call =>
      obtain ⟨room, -, hstep⟩ := Option.bind_eq_some_iff.mp hstep
      obtain ⟨after, -, rfl⟩ := Option.map_eq_some_iff.mp hstep
      exact h.of_rooms rfl rfl rfl
  | saveRoom roomId =>
      obtain ⟨room, -, rfl⟩ := Option.map_eq_some_iff.mp hstep
      exact h.of_rooms rfl rfl rfl

theorem counterSound_newChatWorld {workspaceId baseId : ObjId} :
    CounterSound (newChatWorld workspaceId baseId) where
  saved_le := Nat.le_refl _
  unsaved := by simp [newChatWorld]
  unsavedSorted := List.Pairwise.nil
  durable := by simp [newChatWorld]
  durableSorted := List.Pairwise.nil
  authored := by simp [newChatWorld]
  authoredOnce := List.nodup_nil

/-- In every run with crashes at any point, no two messages that the replica placed have
the same identity, every one of them has a number whose reservation was persisted, and such
numbers are reserved once. -/
theorem messageIdentity_usedOnce {roomIds : Nat → ObjId}
    (hids : ∀ n, (roomIds n).isValid = true) {workspaceId baseId : ObjId}
    (hvalid : baseId.isValid = true) {actions : List ChatAction} {world : ChatWorld}
    (hallowed : EveryStep (chatStep roomIds) ChatActionAllowed
      (newChatWorld workspaceId baseId) actions)
    (hrun : runActions (chatStep roomIds) (newChatWorld workspaceId baseId) actions =
      some world) :
    (world.history.authored.map MessageValue.id).Nodup ∧
      (∀ message ∈ world.history.authored,
        message.id.originSequence ∈ world.history.durable) ∧
      world.history.durable.Pairwise (· < ·) ∧
      (∀ clockUs eventId sequence next,
        world.commitWorkspace clockUs eventId (.messageSequenceReserved sequence) = .ok next →
        sequence = world.live.workspace.fields.nextMessageSequence ∧
          world.live.workspace.fields.nextMessageSequence <
            next.live.workspace.fields.nextMessageSequence ∧
          sequence ∉ world.history.durable) ∧
      (world.live.workspace.fields.nextMessageSequence = maxMessageSequence →
        ∀ env entryId nowUs, submitDraft env world.live entryId nowUs = ⟨{}, []⟩) := by
  obtain ⟨hsound, hcounter⟩ : world.Sound hids ∧ CounterSound world := by
    refine runActions_invariant (fun reached => reached.Sound hids ∧ CounterSound reached) ?_
      ⟨sound_newChatWorld hvalid, counterSound_newChatWorld⟩ hallowed hrun
    rintro state action after ⟨hstate, hstateCounter⟩ haction hstep
    exact ⟨sound_chatStep hstate haction hstep, hstateCounter.chatStep hstate haction hstep⟩
  refine ⟨?_, hcounter.authored, hcounter.durableSorted, ?_, ?_⟩
  · have honce := hcounter.authoredOnce
    rw [show (fun message : MessageValue => message.id.originSequence) =
      SharedEventId.originSequence ∘ MessageValue.id from rfl, ← List.map_map] at honce
    exact honce.of_map _
  · intro clockUs eventId sequence next hreserve
    obtain ⟨workspace, hcommit, hnext⟩ := except_bind_eq_ok_iff.mp hreserve
    cases hnext
    rcases reservation_of_commit hsound.1.workspace hcommit with ⟨hnone, -⟩ | ⟨hone, hmoved⟩
    · cases hnone
    have hsequence : sequence = world.live.workspace.fields.nextMessageSequence :=
      List.head_eq_of_cons_eq hone
    refine ⟨hsequence, ?_, ?_⟩
    · rw [UInt64.lt_iff_toNat_lt]
      show _ < workspace.fields.nextMessageSequence.toNat
      omega
    · intro hmem
      have hused := hcounter.durable sequence hmem
      have hle := hcounter.saved_le
      rw [hsequence] at hused
      exact absurd (Nat.lt_of_lt_of_le hused hle) (Nat.lt_irrefl _)
  · intro hmax env entryId nowUs
    unfold submitDraft
    cases world.live.entries.lookup entryId with
    | none => rfl
    | some entry => simp [submitIsRefused, hmax]

/-- The process ends after the reservation, and the draft is submitted again. -/
def reservedTwice : List ChatAction :=
  draftTyped ++ [.persist, .interrupted (commandEnv 500 30) (.submitDraft ⟨200⟩ 30) 1,
    .run (commandEnv 500 40) (.submitDraft ⟨200⟩ 40)]

/-- A reservation that is lost in a crash is made again. -/
theorem lostReservation_isRepeated : ∃ world,
    runActions (chatStep (idsFrom 1000)) (newChatWorld ⟨1⟩ ⟨2⟩) reservedTwice = some world ∧
      world.history.reserved = [1, 1] := by
  have hrun : (runActions (chatStep (idsFrom 1000)) (newChatWorld ⟨1⟩ ⟨2⟩)
      reservedTwice).any (fun world => decide (world.history.reserved = [1, 1])) = true := by
    decide
  obtain ⟨world, hworld, hreserved⟩ := (Option.any_eq_true _ _).mp hrun
  exact ⟨world, hworld, of_decide_eq_true hreserved⟩

theorem submittedAfterCrash_usesIdentityOnce : ∃ world,
    runActions (chatStep (idsFrom 1000)) (newChatWorld ⟨1⟩ ⟨2⟩) reservedTwice = some world ∧
      world.history.authored ≠ [] ∧ (world.history.authored.map MessageValue.id).Nodup := by
  have hrun : (runActions (chatStep (idsFrom 1000)) (newChatWorld ⟨1⟩ ⟨2⟩)
      reservedTwice).any (fun world => decide (world.history.authored ≠ [])) = true := by
    decide
  obtain ⟨world, hworld, hauthored⟩ := (Option.any_eq_true _ _).mp hrun
  refine ⟨world, hworld, of_decide_eq_true hauthored,
    (messageIdentity_usedOnce roomIds_valid (by decide) ?_ hworld).1⟩
  refine ⟨commandEnv_valid (by decide), fun _ _ => ⟨commandEnv_valid (by decide), fun _ _ =>
    ⟨(by decide : (⟨51⟩ : ObjId).isValid = true), fun _ _ =>
      ⟨commandEnv_valid (by decide), fun _ _ => ⟨commandEnv_valid (by decide), fun _ _ =>
        ⟨trivial, fun _ _ => ⟨commandEnv_valid (by decide), fun _ _ =>
          ⟨commandEnv_valid (by decide), fun _ _ => trivial⟩⟩⟩⟩⟩⟩⟩⟩

end Runs

end AppTraverse
