import AppTraverse.Chat.SubmitDraft
import AppTraverse.Chat.WorkspaceForm

/-!
# The workspace commands do what their results say

A command answers before it is known what its commits do, so that the answer is right when
`CanApply` admits every Event that it commits.  One command does not see to that:
`SetHostUidInput` takes a text of any length.
-/

namespace AppTraverse

open Foundations

/-- The workspace has these fields, and nothing else has changed. -/
def LeavesWorkspace (before after : ChatState) (fields : ChatWorkspaceFields) : Prop :=
  after.workspace.fields = fields ∧ after.entries = before.entries ∧ after.rooms = before.rooms

/-- The fields of an entry were changed so, and nothing else has changed. -/
def LeavesEntry (before after : ChatState) (entryId : ObjId)
    (change : ChatEntryFields → ChatEntryFields) : Prop :=
  after.workspace = before.workspace ∧ after.rooms = before.rooms ∧ ∃ fields,
    before.entryFields entryId = some fields ∧ ∀ other, after.entryFields other =
      if other = entryId then some (change fields) else before.entryFields other

/-- The chat of a peer is selected.  It was there, or it is the one that was added. -/
structure LeavesChat (before after : ChatState) (peerUid : Bytes) (entryId : ObjId) : Prop where
  peer : after.peerOf entryId = some peerUid
  listed : entryId ∈ after.workspace.fields.chats
  workspace : after.workspace.fields = { before.workspace.fields with
    chats := after.workspace.fields.chats
    selectedChatId := entryId }
  rooms : after.rooms = before.rooms
  chats : (after.workspace.fields.chats = before.workspace.fields.chats ∧
      after.entries = before.entries) ∨
    (after.workspace.fields.chats = before.workspace.fields.chats ++ [entryId] ∧
      (∀ other ∈ before.workspace.fields.chats, before.peerOf other ≠ some peerUid) ∧
      ∀ other, after.entryFields other = if other = entryId then
        some { peerUid := peerUid
               displayName :=
                conversationDisplayName before.workspace.fields.demoRole peerUid }
        else before.entryFields other)

/-- A draft is a message of the room, its sequence is used, and it is gone. -/
structure LeavesMessage (env : CommandEnv) (before after : ChatState) (entryId : ObjId)
    (nowUs : UInt64) : Prop where
  workspace : after.workspace.fields = { before.workspace.fields with
    nextMessageSequence := before.workspace.fields.nextMessageSequence + 1 }
  placed : ∃ fields room room', before.entryFields entryId = some fields ∧
    (∀ other, after.entryFields other =
      if other = entryId then some { fields with draft := [] } else before.entryFields other) ∧
    before.rooms.lookup fields.room = some room ∧
    after.rooms = before.rooms.insert fields.room room' ∧
    MessagePlaced room room' (env.ids 1)
      (messageOfDraft before.workspace.fields fields room.fields.app nowUs) env.clockUs

namespace ChatCommand

variable (env : CommandEnv)

/-- The command returns success. -/
def succeeds (state : ChatState) : ChatCommand → Bool
  | .configureDemoRole role => (AppTraverse.configureDemoRole env state role).result
  | .setHostUidInput text => (AppTraverse.setHostUidInput env state text).result
  | .openOrSelectChat peerUid => (AppTraverse.openOrSelectChat env state peerUid).result.isValid
  | .bindChat entryId link roomId => (AppTraverse.bindChat env state entryId link roomId).result
  | .bindLocalEndpoint uid => (AppTraverse.bindLocalEndpoint env state uid).result
  | .setDraft entryId text => (AppTraverse.setDraft env state entryId text).result
  | .setScroll entryId anchor => (AppTraverse.setScroll env state entryId anchor).result
  | .setDesktopBounds bounds => (AppTraverse.setDesktopBounds env state bounds).result
  | .selectChat entryId => (AppTraverse.selectChat env state entryId).result
  | .submitDraft entryId nowUs =>
      !(AppTraverse.submitDraft env state entryId nowUs).result.originUid.isEmpty

/-- What a command that returned success leaves. -/
def Leaves (before after : ChatState) : ChatCommand → Prop
  | .configureDemoRole role =>
      LeavesWorkspace before after { before.workspace.fields with demoRole := role }
  | .setHostUidInput text =>
      LeavesWorkspace before after { before.workspace.fields with hostUidInput := text }
  | .openOrSelectChat peerUid => LeavesChat before after (trimAsciiWhitespace peerUid)
      (AppTraverse.openOrSelectChat env before peerUid).result
  | .bindChat entryId link roomId => ∃ peerLink : Ref Link, peerLink.id = link.id ∧
      LeavesEntry before after entryId fun fields =>
        { fields with peerLink := peerLink, room := roomId }
  | .bindLocalEndpoint uid =>
      LeavesWorkspace before after { before.workspace.fields with localEndpointUid := uid }
  | .setDraft entryId text =>
      LeavesEntry before after entryId fun fields => { fields with draft := text }
  | .setScroll entryId anchor =>
      LeavesEntry before after entryId fun fields => { fields with scroll := anchor }
  | .setDesktopBounds bounds =>
      LeavesWorkspace before after { before.workspace.fields with desktopBounds := bounds }
  | .selectChat entryId =>
      LeavesWorkspace before after { before.workspace.fields with selectedChatId := entryId }
  | .submitDraft entryId nowUs => LeavesMessage env before after entryId nowUs

end ChatCommand

/-- The commit of a stage gets a timestamp, and a message has a new identity. -/
def StageHasTimestamp (clockUs : UInt64) (state : ChatState) : ChatStage → Prop
  | .commitWorkspace _ _ => TimestampLeft (lastTimestamp state.workspace.journal) clockUs
  | .commitEntry entryId _ _ => ∀ entry, state.entries.lookup entryId = some entry →
      TimestampLeft (lastTimestamp entry.journal) clockUs
  | .commitMessage roomId _ message => ∀ room, state.rooms.lookup roomId = some room →
      message.timestampUs ≠ 0 ∧ hasRecordWithIdentity room.journal message.id = false
  | _ => True

section Results

variable (roomIds : Nat → ObjId) (env : CommandEnv) (world : ChatWorld) (command : ChatCommand)

/-- `CanApply` admits what a stage commits, and the stage returns if there is a timestamp. -/
def StageReturns (clockUs : UInt64) (world : ChatWorld) (stage : ChatStage) : Prop :=
  StageAdmitted world.live stage ∧ (StageHasTimestamp clockUs world.live stage →
    ∃ next, world.runStage roomIds clockUs stage = .ok next)

/-- The command does what its result says: no Event that it commits is refused, success leaves
the requested value, failure leaves everything as it was, and what was set once stays. -/
structure CommandDoes : Prop where
  returns : EveryStep (stageStep roomIds env.clockUs) (StageReturns roomIds env.clockUs) world
    (command.stages env world.live)
  leaves : ∀ next, world.runStages roomIds env.clockUs (command.stages env world.live) = .ok next →
    command.succeeds env world.live = true → command.Leaves env world.live next.live
  unchanged : ∀ next,
    world.runStages roomIds env.clockUs (command.stages env world.live) = .ok next →
      command.succeeds env world.live = false → next = world
  kept : ∀ next, world.runStages roomIds env.clockUs (command.stages env world.live) = .ok next →
    world.live.KeptIn next.live

end Results

section Returns

variable {roomIds : Nat → ObjId} {hids : ∀ n, (roomIds n).isValid = true} {env : CommandEnv}
  {clockUs : UInt64} {world next : ChatWorld}

/-- A stage that is admitted returns if there is a timestamp. -/
theorem stageReturns_of_admitted (hsound : world.live.Sound hids) {stage : ChatStage}
    (hadmitted : StageAdmitted world.live stage) : StageReturns roomIds clockUs world stage := by
  refine ⟨hadmitted, fun htimestamp => ?_⟩
  cases stage with
  | createEntry entryId baseId fields => exact ⟨_, rfl⟩
  | commitWorkspace eventId event =>
      obtain ⟨hvalid, hcan⟩ := hadmitted
      obtain ⟨workspace, hcommit⟩ := (hsound.workspace.commit_returns_iff
        ⟨eventId, some event⟩ hvalid rfl).mpr ⟨hcan, htimestamp⟩
      exact ⟨_, except_bind_eq_ok_iff.mpr ⟨workspace, hcommit, rfl⟩⟩
  | commitEntry entryId eventId event =>
      obtain ⟨hvalid, entry, hentry, hcan⟩ := hadmitted
      obtain ⟨after, hcommit⟩ := ((hsound.entries entryId entry hentry).1.commit_returns_iff
        ⟨eventId, some event⟩ hvalid rfl).mpr ⟨hcan, htimestamp entry hentry⟩
      refine ⟨{ world with live := { world.live with
        entries := world.live.entries.insert entryId after } }, ?_⟩
      simp only [ChatWorld.runStage, ChatWorld.commitEntry, hentry]
      exact except_bind_eq_ok_iff.mpr ⟨after, hcommit, rfl⟩
  | commitMessage roomId eventId message =>
      obtain ⟨hvalid, room, hroom, horigin, hsequence, htext⟩ := hadmitted
      obtain ⟨after, hcommit⟩ := (@commitMessage_returns_iff _ _ _ eventId message clockUs
        (hsound.rooms roomId room hroom) hvalid horigin hsequence htext).mpr
          (htimestamp room hroom)
      refine ⟨{ world with
        live := { world.live with rooms := world.live.rooms.insert roomId after }
        history := { world.history with
          authored := world.history.authored ++ [message] } }, ?_⟩
      simp only [ChatWorld.runStage, ChatWorld.commitMessage, hroom]
      exact except_bind_eq_ok_iff.mpr ⟨after, hcommit, rfl⟩
  | persist => exact ⟨_, rfl⟩

/-- Stages that are admitted one after the other. -/
theorem everyStep_stageReturns (hsound : world.Sound hids) {stages : List ChatStage}
    (hallowed : ∀ stage ∈ stages, StageAllowed world.live stage)
    (hadmitted : EveryStep (stageStep roomIds clockUs)
      (fun world stage => StageAdmitted world.live stage) world stages) :
    EveryStep (stageStep roomIds clockUs) (StageReturns roomIds clockUs) world stages := by
  induction stages generalizing world with
  | nil => trivial
  | cons stage rest ih =>
      obtain ⟨hnow, hlater⟩ := everyStep_cons.mp hadmitted
      refine everyStep_cons.mpr ⟨stageReturns_of_admitted hsound.1 hnow, ?_⟩
      intro next hnext
      have hstage := toOption_eq_some_iff.mp hnext
      refine ih (hsound.runStage (hallowed stage List.mem_cons_self) hstage) ?_
        (hlater next hnext)
      intro other hother
      exact stageAllowed_of_runStage hstage (hallowed other (List.mem_cons_of_mem _ hother))

end Returns

section Leaves

variable {roomIds : Nat → ObjId} {hids : ∀ n, (roomIds n).isValid = true} {env : CommandEnv}
  {clockUs : UInt64} {world next : ChatWorld}

theorem runStages_cons {stage : ChatStage} {rest : List ChatStage} :
    world.runStages roomIds clockUs (stage :: rest) = .ok next ↔ ∃ middle,
      world.runStage roomIds clockUs stage = .ok middle ∧
        middle.runStages roomIds clockUs rest = .ok next := by
  rw [ChatWorld.runStages, List.foldlM_cons, except_bind_eq_ok_iff]
  exact Iff.rfl

/-- A command that commits to the workspace and persists it. -/
theorem leavesWorkspace_of_commit (hsound : world.live.Sound hids) {eventId : ObjId}
    {event : ChatWorkspaceEvent}
    (hrun : world.runStages roomIds clockUs [.commitWorkspace eventId event, .persist] = .ok next) :
    LeavesWorkspace world.live next.live
      (chatWorkspace.apply world.live.workspace.fields event) := by
  obtain ⟨middle, hcommitted, hpersisted⟩ := runStages_cons.mp hrun
  cases hpersisted
  cases stageRun_of_runStage hcommitted with
  | commitWorkspace _ _ workspace hcommit hresult =>
  subst hresult
  exact ⟨(hsound.workspace.committed rfl hcommit).2.2.fields, rfl, rfl⟩

/-- A command that commits to an entry and persists it. -/
theorem leavesEntry_of_commit (hsound : world.live.Sound hids) {entryId eventId : ObjId}
    {event : ChatEntryEvent}
    (hrun : world.runStages roomIds clockUs [.commitEntry entryId eventId event, .persist] =
      .ok next) :
    LeavesEntry world.live next.live entryId fun fields => chatEntry.apply fields event := by
  obtain ⟨middle, hcommitted, hpersisted⟩ := runStages_cons.mp hrun
  cases hpersisted
  cases stageRun_of_runStage hcommitted with
  | commitEntry _ _ _ entry after hfound hcommit hresult =>
  subst hresult
  have hfields := ((hsound.entries entryId entry hfound).1.committed rfl hcommit).2.2.fields
  refine ⟨rfl, rfl, entry.fields, ChatState.entryFields_of_lookup hfound, ?_⟩
  intro other
  show _ = if other = entryId then some (chatEntry.apply entry.fields event) else _
  rw [← hfields]
  exact ChatState.entryFields_insert

/-- A command that succeeds has passed its guard. -/
theorem plan_of_guard {refused : Prop} [Decidable refused] {plan : Planned Bool}
    (hsucceeds : (if refused then ⟨false, []⟩ else plan).result = true) :
    (if refused then ⟨false, []⟩ else plan) = plan := by
  split at hsucceeds
  case isTrue => cases hsucceeds
  case isFalse hpasses => exact if_neg hpasses

/-- The workspace has the value already. -/
theorem leavesWorkspace_self {state : ChatState} {fields : ChatWorkspaceFields}
    (hsame : state.workspace.fields = fields) : LeavesWorkspace state state fields :=
  ⟨hsame, rfl, rfl⟩

/-- The entry has the value already. -/
theorem leavesEntry_self {state : ChatState} {entryId : ObjId} {entry : ChatEntry}
    {change : ChatEntryFields → ChatEntryFields}
    (hentry : state.entries.lookup entryId = some entry)
    (hsame : change entry.fields = entry.fields) : LeavesEntry state state entryId change := by
  have hfields := ChatState.entryFields_of_lookup hentry
  refine ⟨rfl, rfl, entry.fields, hfields, ?_⟩
  intro other
  split
  case isTrue hother => rw [hother, hfields, hsame]
  case isFalse => rfl

/-- `SetDraft` and `SetScroll`. -/
theorem leaves_setEntryField (hsound : world.live.Sound hids) {entryId : ObjId}
    {unchanged : ChatEntryFields → Bool} {event : ChatEntryEvent}
    (hunchanged : ∀ fields, unchanged fields = true → chatEntry.apply fields event = fields)
    (hrun : world.runStages roomIds clockUs
      (setEntryField env world.live entryId unchanged event).stages = .ok next)
    (hsucceeds : (setEntryField env world.live entryId unchanged event).result = true) :
    LeavesEntry world.live next.live entryId fun fields => chatEntry.apply fields event := by
  unfold setEntryField at hrun hsucceeds
  cases hentry : world.live.entries.lookup entryId with
  | none => simp [hentry] at hsucceeds
  | some entry =>
      simp only [hentry] at hrun
      split at hrun
      case isTrue hsame =>
        cases hrun
        exact leavesEntry_self hentry (hunchanged entry.fields hsame)
      case isFalse => exact leavesEntry_of_commit hsound hrun

theorem leaves_bindChat (hsound : world.live.Sound hids) {entryId roomId : ObjId}
    {link : Ref Link}
    (hrun : world.runStages roomIds clockUs
      (bindChat env world.live entryId link roomId).stages = .ok next)
    (hsucceeds : (bindChat env world.live entryId link roomId).result = true) :
    ∃ peerLink : Ref Link, peerLink.id = link.id ∧
      LeavesEntry world.live next.live entryId fun fields =>
        { fields with peerLink := peerLink, room := roomId } := by
  unfold bindChat at hrun hsucceeds
  cases hentry : world.live.entries.lookup entryId with
  | none => simp [hentry] at hsucceeds
  | some entry =>
      simp only [hentry] at hrun hsucceeds
      rw [plan_of_guard hsucceeds] at hrun hsucceeds
      rw [plan_of_guard hsucceeds] at hrun hsucceeds
      split at hrun
      case isTrue hbound =>
        cases hrun
        refine ⟨entry.fields.peerLink, hbound.2.2.1, leavesEntry_self hentry ?_⟩
        rw [← hbound.2.2.2]
      case isFalse hbound =>
      rw [if_neg hbound] at hsucceeds
      rw [plan_of_guard hsucceeds] at hrun hsucceeds
      rw [plan_of_guard hsucceeds] at hrun
      exact ⟨link, rfl, leavesEntry_of_commit hsound hrun⟩

theorem leaves_openOrSelectChat (h : world.live.Formed) (hsound : world.live.Sound hids)
    {peerUid : Bytes}
    (hrun : world.runStages roomIds clockUs (openOrSelectChat env world.live peerUid).stages =
      .ok next) (hsucceeds : (openOrSelectChat env world.live peerUid).result.isValid = true) :
    LeavesChat world.live next.live (trimAsciiWhitespace peerUid)
      (openOrSelectChat env world.live peerUid).result := by
  unfold openOrSelectChat at hrun hsucceeds ⊢
  dsimp only at hrun hsucceeds ⊢
  split at hrun
  case isTrue hempty => simp [hempty] at hsucceeds
  case isFalse hnonempty =>
  rw [if_neg hnonempty]
  cases hfind : findEntryByPeer world.live (trimAsciiWhitespace peerUid) with
  | some entryId =>
      obtain ⟨hmem, hvalid, hpeer⟩ := findEntryByPeer_some hfind
      simp only [hfind] at hrun ⊢
      split
      case isTrue hother =>
        rw [if_pos hother] at hrun
        obtain ⟨hfields, hentries, hrooms⟩ := leavesWorkspace_of_commit hsound hrun
        have hchats : next.live.workspace.fields.chats = world.live.workspace.fields.chats := by
          rw [hfields]
          rfl
        refine ⟨?_, by rw [hchats]; exact hmem, by rw [hchats, hfields]; rfl, hrooms,
          Or.inl ⟨hchats, hentries⟩⟩
        rw [← hpeer, ChatState.peerOf, ChatState.entryFields, hentries]
        rfl
      case isFalse hsame =>
        rw [if_neg hsame] at hrun
        cases hrun
        refine ⟨hpeer, hmem, ?_, rfl, Or.inl ⟨rfl, rfl⟩⟩
        rw [← not_not.mp hsame]
  | none =>
      simp only [hfind] at hrun ⊢
      obtain ⟨created, hcreate, hrun⟩ := runStages_cons.mp hrun
      cases hcreate
      obtain ⟨added, hadd, hrun⟩ := runStages_cons.mp hrun
      have hcreated : (world.createEntry (env.ids 0) (env.ids 1)
          { peerUid := trimAsciiWhitespace peerUid
            displayName := conversationDisplayName world.live.workspace.fields.demoRole
              (trimAsciiWhitespace peerUid) }).live.workspace.IsLocal chatWorkspace :=
        hsound.workspace
      cases stageRun_of_runStage hadd with
      | commitWorkspace _ _ workspace hcommit hresult =>
      obtain ⟨selected, hselect, hpersist⟩ := runStages_cons.mp hrun
      cases hpersist
      subst hresult
      cases stageRun_of_runStage hselect with
      | commitWorkspace _ _ workspace' hcommit' hresult' =>
      subst hresult'
      obtain ⟨-, -, hcommitted⟩ := hcreated.committed rfl hcommit
      obtain ⟨-, -, hcommitted'⟩ := hcommitted.isLocal.committed rfl hcommit'
      have hfields : workspace'.fields = { world.live.workspace.fields with
          chats := world.live.workspace.fields.chats ++ [env.ids 0]
          selectedChatId := env.ids 0 } := by
        rw [hcommitted'.fields, hcommitted.fields]
        rfl
      have hchats : workspace'.fields.chats =
          world.live.workspace.fields.chats ++ [env.ids 0] := by rw [hfields]
      constructor
      case peer =>
        exact congrArg _ (ChatState.entryFields_insert.trans (if_pos rfl))
      case listed =>
        show env.ids 0 ∈ workspace'.fields.chats
        rw [hchats]
        exact List.mem_append_right _ (List.mem_singleton_self _)
      case workspace =>
        show workspace'.fields = { world.live.workspace.fields with
          chats := workspace'.fields.chats
          selectedChatId := env.ids 0 }
        rw [hchats, hfields]
      case rooms => rfl
      case chats =>
        exact Or.inr ⟨hchats, findEntryByPeer_none h hfind, fun other =>
          ChatState.entryFields_insert⟩

theorem leaves_submitDraft (hsound : world.live.Sound hids)
    (henv : ∀ n, (env.ids n).isValid = true) {entryId : ObjId} {nowUs : UInt64}
    (hrun : world.runStages roomIds env.clockUs (submitDraft env world.live entryId nowUs).stages =
      .ok next)
    (hsucceeds : (submitDraft env world.live entryId nowUs).result.originUid ≠ []) :
    LeavesMessage env world.live next.live entryId nowUs := by
  unfold submitDraft at hrun hsucceeds
  cases hentry : world.live.entries.lookup entryId with
  | none => simp [hentry] at hsucceeds
  | some entry =>
      simp only [hentry] at hrun hsucceeds
      split at hrun
      case isTrue hrefused => simp [hrefused] at hsucceeds
      case isFalse hnotRefused =>
      rw [if_neg hnotRefused] at hsucceeds
      cases hroom : world.live.rooms.lookup entry.fields.room with
      | none => simp [hroom] at hsucceeds
      | some room =>
          simp only [hroom] at hrun
          have hdraft := submittable_of_not_refused (Bool.not_eq_true _ ▸ hnotRefused)
            room.fields.app
          obtain ⟨workspace, after, cleared, hworkspace, hafter, hcleared, hnext⟩ :=
            runStages_submitStages hentry hroom hrun
          have hworkspaceFields := (hsound.workspace.committed rfl hworkspace).2.2.fields
          have hclearedFields :=
            ((hsound.entries entryId entry hentry).1.committed rfl hcleared).2.2.fields
          rw [hnext]
          refine ⟨?_, entry.fields, room, after, ChatState.entryFields_of_lookup hentry, ?_, hroom,
            rfl, ?_⟩
          · show workspace.fields = _
            rw [hworkspaceFields]
            rfl
          · intro other
            have hinserted := @ChatState.entryFields_insert world.live entryId other cleared
            rw [hclearedFields] at hinserted
            exact hinserted
          · exact messagePlaced_of_commitMessage (hsound.rooms _ room hroom) (henv 1)
              hdraft.sequence hdraft.text hafter

/-- A command that returns failure commits nothing. -/
theorem stages_of_failure (henv : ∀ n, (env.ids n).isValid = true) {state : ChatState}
    {command : ChatCommand} (hfails : command.succeeds env state = false) :
    command.stages env state = [] := by
  cases command with
  | openOrSelectChat peerUid =>
      simp only [ChatCommand.succeeds, ChatCommand.stages, openOrSelectChat] at hfails ⊢
      split at hfails
      case isTrue hempty => rw [if_pos hempty]
      case isFalse hnonempty =>
      cases hfind : findEntryByPeer state (trimAsciiWhitespace peerUid) with
      | some entryId =>
          obtain ⟨-, hvalid, -⟩ := findEntryByPeer_some hfind
          simp only [hfind] at hfails
          split at hfails
          case isTrue =>
            rw [hvalid] at hfails
            cases hfails
          case isFalse =>
            rw [hvalid] at hfails
            cases hfails
      | none =>
          simp only [hfind, henv 0] at hfails
          cases hfails
  | submitDraft entryId nowUs =>
      simp only [ChatCommand.succeeds, ChatCommand.stages, submitDraft] at hfails ⊢
      split at hfails
      case h_1 hentry => rfl
      case h_2 entry hentry =>
      split at hfails
      case isTrue hrefused => rw [if_pos hrefused]
      case isFalse hnotRefused =>
      rw [if_neg hnotRefused]
      split at hfails
      case h_1 => rfl
      case h_2 room hroom =>
        have hdraft := submittable_of_not_refused (Bool.not_eq_true _ ▸ hnotRefused)
          room.fields.app
        exact absurd (by simpa using hfails) hdraft.origin
  | _ =>
      simp only [ChatCommand.succeeds, ChatCommand.stages, configureDemoRole, setHostUidInput,
        bindChat, bindLocalEndpoint, setDraft, setScroll, setEntryField, setDesktopBounds,
        selectChat] at hfails ⊢
      grind

/-- A command that returns success leaves what was asked for. -/
theorem leaves_command (h : world.live.Formed) (hsound : world.live.Sound hids)
    (henv : ∀ n, (env.ids n).isValid = true) {command : ChatCommand}
    (hrun : world.runStages roomIds env.clockUs (command.stages env world.live) = .ok next)
    (hsucceeds : command.succeeds env world.live = true) :
    command.Leaves env world.live next.live := by
  cases command with
  | configureDemoRole role =>
      simp only [ChatCommand.stages, ChatCommand.succeeds, configureDemoRole] at hrun hsucceeds
      rw [plan_of_guard hsucceeds] at hrun hsucceeds
      split at hrun
      case isTrue hsame =>
        cases hrun
        exact leavesWorkspace_self (by rw [← hsame])
      case isFalse hdiffers =>
      rw [if_neg hdiffers] at hsucceeds
      rw [plan_of_guard hsucceeds] at hrun
      exact leavesWorkspace_of_commit hsound hrun
  | setHostUidInput text =>
      simp only [ChatCommand.stages, ChatCommand.succeeds, setHostUidInput] at hrun hsucceeds
      rw [plan_of_guard hsucceeds] at hrun hsucceeds
      split at hrun
      case isTrue hsame =>
        cases hrun
        exact leavesWorkspace_self (by rw [← hsame])
      case isFalse => exact leavesWorkspace_of_commit hsound hrun
  | openOrSelectChat peerUid => exact leaves_openOrSelectChat h hsound hrun hsucceeds
  | bindChat entryId link roomId => exact leaves_bindChat hsound hrun hsucceeds
  | bindLocalEndpoint uid =>
      simp only [ChatCommand.stages, ChatCommand.succeeds, bindLocalEndpoint] at hrun hsucceeds
      rw [plan_of_guard hsucceeds] at hrun hsucceeds
      split at hrun
      case isTrue hsame =>
        cases hrun
        exact leavesWorkspace_self (by rw [← hsame])
      case isFalse hdiffers =>
      rw [if_neg hdiffers] at hsucceeds
      rw [plan_of_guard hsucceeds] at hrun
      exact leavesWorkspace_of_commit hsound hrun
  | setDraft entryId text =>
      apply leaves_setEntryField hsound _ hrun hsucceeds
      intro fields hsame
      rw [← of_decide_eq_true hsame]
      rfl
  | setScroll entryId anchor =>
      apply leaves_setEntryField hsound _ hrun hsucceeds
      intro fields hsame
      rw [← of_decide_eq_true hsame]
      rfl
  | setDesktopBounds bounds =>
      simp only [ChatCommand.stages, setDesktopBounds] at hrun
      split at hrun
      case isTrue hsame =>
        cases hrun
        exact leavesWorkspace_self (by rw [← hsame])
      case isFalse => exact leavesWorkspace_of_commit hsound hrun
  | selectChat entryId =>
      simp only [ChatCommand.stages, ChatCommand.succeeds, selectChat] at hrun hsucceeds
      rw [plan_of_guard hsucceeds] at hrun hsucceeds
      rw [plan_of_guard hsucceeds] at hrun hsucceeds
      split at hrun
      case isTrue hsame =>
        cases hrun
        exact leavesWorkspace_self (by rw [← hsame])
      case isFalse => exact leavesWorkspace_of_commit hsound hrun
  | submitDraft entryId nowUs =>
      apply leaves_submitDraft hsound henv hrun
      simpa [ChatCommand.succeeds] using hsucceeds

/-- The one command whose Event may be refused. -/
theorem hostTextFits_of_admitted {command : ChatCommand}
    (hadmitted : EveryStep (stageStep roomIds clockUs)
      (fun world stage => StageAdmitted world.live stage) world
        (command.stages env world.live)) : HostTextFits world.live command := by
  cases command with
  | setHostUidInput text =>
      intro hclient hdiffers
      simp only [ChatCommand.stages, setHostUidInput] at hadmitted
      rw [if_neg (not_not.mpr hclient), if_neg hdiffers] at hadmitted
      obtain ⟨⟨-, hcan⟩, -⟩ := everyStep_cons.mp hadmitted
      rw [chatWorkspace] at hcan
      simp only [Bool.and_eq_true, decide_eq_true_eq] at hcan
      exact hcan.2
  | _ => trivial

theorem commandDoes_iff (h : world.Formed) (hsound : world.Sound hids)
    (henv : ∀ n, (env.ids n).isValid = true)
    (hfresh : world.live.entryFields (env.ids 0) = none) (command : ChatCommand) :
    CommandDoes roomIds env world command ↔ HostTextFits world.live command := by
  constructor
  · intro hdoes
    exact hostTextFits_of_admitted (hdoes.returns.mono fun _ _ hstage => hstage.1)
  · intro hfits
    have hmeet := @stagesMeet_command roomIds env env.clockUs world henv h.1 hsound.1.nodesLocal hfresh
      command
    refine ⟨?_, ?_, ?_, ?_⟩
    · exact everyStep_stageReturns hsound (stagesAllowed henv)
        (hmeet.mono fun _ _ hstage => hstage.2 hfits)
    · intro next hrun hsucceeds
      exact leaves_command h.1 hsound.1 henv hrun hsucceeds
    · intro next hrun hfails
      rw [stages_of_failure henv hfails] at hrun
      cases hrun
      rfl
    · intro next hrun
      exact (formed_runStages h hsound (stagesAllowed henv)
        (hmeet.mono fun _ _ hstage => hstage.1) hrun).2

end Leaves

section Claim

/-- A replica is a client. -/
def clientConfigured : List ChatAction :=
  [.run (commandEnv 100 10) (.configureDemoRole .client)]

/-- A text of 129 bytes. -/
def longHostText : ChatCommand :=
  .setHostUidInput (List.replicate 129 97)

end Claim

end AppTraverse
