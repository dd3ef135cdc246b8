import AppTraverse.Chat.SessionRuns

/-!
# What the handlers of a session keep

An entry keeps its peer and the room it is bound to, and the workspace keeps its entries.
The rules below say this of every part of a handler: of the stages of a command, of the
commits on the join state, and of the calls of the synchronization runtime, which do not
touch entries at all.
-/

namespace AppTraverse

open Foundations

/-- No entry is lost, and none changes its peer or the room it is bound to. -/
structure EntriesKept (state next : ChatState) : Prop where
  entries : ∀ entryId entry, state.entries.lookup entryId = some entry →
    ∃ kept, next.entries.lookup entryId = some kept ∧
      kept.fields.peerUid = entry.fields.peerUid ∧
      (entry.fields.room.isValid = true → kept.fields.room = entry.fields.room)
  chats : ∀ entryId ∈ state.workspace.fields.chats, entryId ∈ next.workspace.fields.chats

namespace EntriesKept

variable {state middle next : ChatState}

theorem refl (state : ChatState) : EntriesKept state state :=
  ⟨fun _ entry h => ⟨entry, h, rfl, fun _ => rfl⟩, fun _ h => h⟩

theorem trans (h : EntriesKept state middle) (h' : EntriesKept middle next) :
    EntriesKept state next := by
  refine ⟨?_, fun entryId hmem => h'.chats entryId (h.chats entryId hmem)⟩
  intro entryId entry hentry
  obtain ⟨kept, hkept, hpeer, hroom⟩ := h.entries entryId entry hentry
  obtain ⟨last, hlast, hpeer', hroom'⟩ := h'.entries entryId kept hkept
  refine ⟨last, hlast, hpeer'.trans hpeer, fun hvalid => ?_⟩
  have hsame := hroom hvalid
  rw [hroom' (by rw [hsame]; exact hvalid), hsame]

end EntriesKept

/-- A world whose own Nodes are those of this replica, and whose entries are kept. -/
structure WorldKept (world next : ChatWorld) : Prop where
  live : NodesLocal next.live
  saved : NodesLocal next.saved
  entries : EntriesKept world.live next.live

/-- What holds of a session wherever it is cut off. -/
structure SessionLocal (session : ChatSession) : Prop where
  live : NodesLocal session.world.live
  saved : NodesLocal session.world.saved
  runtime : session.runtime.IsLocal chatDemoRuntime

theorem SessionLocal.worldKept {session : ChatSession} (h : SessionLocal session) :
    WorldKept session.world session.world :=
  ⟨h.live, h.saved, .refl _⟩

/-- A stage that makes a new entry, or binds an entry that has no other room. -/
def StageKeeps (state : ChatState) : ChatStage → Prop
  | .createEntry entryId baseId _ =>
      baseId.isValid = true ∧ state.entries.lookup entryId = none
  | .commitEntry entryId _ (.chatBindingChanged _ roomId) =>
      ∀ entry, state.entries.lookup entryId = some entry →
        entry.fields.room.isValid = true → roomId = entry.fields.room
  | _ => True

/-- The first stage is the only one that makes an entry or binds one. -/
def StagesKeep (state : ChatState) : List ChatStage → Prop
  | [] => True
  | stage :: rest => StageKeeps state stage ∧ ∀ other ∈ rest, ∀ later, StageKeeps later other

/-- After the first stage no stage makes or binds an entry. -/
theorem StagesKeep.rest {state : ChatState} {stage : ChatStage} {rest : List ChatStage}
    (h : StagesKeep state (stage :: rest)) {later : ChatState} : StagesKeep later rest := by
  cases rest with
  | nil => trivial
  | cons other others =>
      exact ⟨h.2 other List.mem_cons_self later,
        fun next hnext => h.2 next (List.mem_cons_of_mem _ hnext)⟩

section Stages

variable {roomIds : Nat → ObjId} {clockUs : UInt64} {world next : ChatWorld}

theorem entriesKept_setEntry {state : ChatState} {entryId : ObjId} {entry after : ChatEntry}
    (hentry : state.entries.lookup entryId = some entry)
    (hpeer : after.fields.peerUid = entry.fields.peerUid)
    (hroom : entry.fields.room.isValid = true → after.fields.room = entry.fields.room) :
    EntriesKept state { state with entries := state.entries.insert entryId after } := by
  refine ⟨?_, fun _ h => h⟩
  intro other value hvalue
  by_cases hsame : other = entryId
  · subst hsame
    cases hentry.symm.trans hvalue
    exact ⟨after, AList.lookup_insert _, hpeer, hroom⟩
  · refine ⟨value, ?_, rfl, fun _ => rfl⟩
    show (state.entries.insert entryId after).lookup other = some value
    rw [AList.lookup_insert_ne hsame, hvalue]

theorem worldKept_runStage (hlive : NodesLocal world.live) (hsaved : NodesLocal world.saved)
    {stage : ChatStage} (hkeeps : StageKeeps world.live stage)
    (hrun : world.runStage roomIds clockUs stage = .ok next) : WorldKept world next := by
  cases stageRun_of_runStage hrun with
  | createEntry entryId baseId fields hresult =>
      subst hresult
      refine ⟨⟨hlive.workspace, hlive.entries.insert (isLocal_initializeRuntimeNode hkeeps.1)⟩,
        hsaved, ⟨?_, fun _ h => h⟩⟩
      intro other value hvalue
      have hne : other ≠ entryId := by
        rintro rfl
        rw [hkeeps.2] at hvalue
        cases hvalue
      refine ⟨value, ?_, rfl, fun _ => rfl⟩
      show (world.live.entries.insert entryId _).lookup other = some value
      rw [AList.lookup_insert_ne hne, hvalue]
  | commitWorkspace eventId event workspace hcommit hresult =>
      subst hresult
      obtain ⟨-, -, hcommitted⟩ := hlive.workspace.committed rfl hcommit
      refine ⟨⟨hcommitted.isLocal, hlive.entries⟩, hsaved,
        ⟨fun _ entry h => ⟨entry, h, rfl, fun _ => rfl⟩, ?_⟩⟩
      intro entryId hmem
      show entryId ∈ workspace.fields.chats
      rw [hcommitted.fields]
      cases event with
      | chatEntryAdded entry => exact List.mem_append_left _ hmem
      | demoRoleConfigured role => exact hmem
      | hostUidInputChanged text => exact hmem
      | localEndpointBound endpointUid => exact hmem
      | messageSequenceReserved sequence => exact hmem
      | chatSelected selected => exact hmem
      | desktopBoundsChanged bounds => exact hmem
  | commitEntry entryId eventId event entry after hentry hcommit hresult =>
      subst hresult
      obtain ⟨-, -, hcommitted⟩ := (hlive.entries entryId entry hentry).committed rfl hcommit
      refine ⟨⟨hlive.workspace, hlive.entries.insert hcommitted.isLocal⟩, hsaved,
        entriesKept_setEntry hentry ?_ ?_⟩
      · rw [hcommitted.fields]
        cases event with
        | chatBindingChanged link roomId => rfl
        | draftChanged text => rfl
        | scrollChanged scroll => rfl
      · intro hvalid
        rw [hcommitted.fields]
        cases event with
        | chatBindingChanged link roomId => exact hkeeps entry hentry hvalid
        | draftChanged text => rfl
        | scrollChanged scroll => rfl
  | commitMessage roomId eventId message room after hfound hcommit hresult =>
      subst hresult
      exact ⟨⟨hlive.workspace, hlive.entries⟩, hsaved,
        ⟨fun _ entry h => ⟨entry, h, rfl, fun _ => rfl⟩, fun _ h => h⟩⟩
  | persist hresult =>
      subst hresult
      exact ⟨hlive, hlive, .refl _⟩

/-- The stages of a command keep the entries. -/
theorem worldKept_runStages (hlive : NodesLocal world.live) (hsaved : NodesLocal world.saved)
    {stages : List ChatStage} (hkeeps : StagesKeep world.live stages)
    (hrun : world.runStages roomIds clockUs stages = .ok next) : WorldKept world next := by
  induction stages generalizing world with
  | nil =>
      cases hrun
      exact ⟨hlive, hsaved, .refl _⟩
  | cons stage rest ih =>
      rw [ChatWorld.runStages, List.foldlM_cons] at hrun
      obtain ⟨middle, hstage, hrest⟩ := except_bind_eq_ok_iff.mp hrun
      have hmiddle := worldKept_runStage hlive hsaved hkeeps.1 hstage
      have hlater := ih hmiddle.live hmiddle.saved hkeeps.rest hrest
      exact ⟨hlater.live, hlater.saved, hmiddle.entries.trans hlater.entries⟩

end Stages

section Commands

variable {env : CommandEnv} {state : ChatState} {peerUid : Bytes}

/-- An entry of a peer that the workspace lists. -/
structure ListedEntry (state : ChatState) (entryId : ObjId) (peerUid : Bytes) (entry : ChatEntry) :
    Prop where
  listed : entryId ∈ state.workspace.fields.chats
  found : state.entries.lookup entryId = some entry
  peer : entry.fields.peerUid = peerUid

theorem EntriesKept.listed {next : ChatState} (h : EntriesKept state next) {entryId : ObjId}
    {entry : ChatEntry} (hentry : ListedEntry state entryId peerUid entry) :
    ∃ kept, ListedEntry next entryId peerUid kept := by
  obtain ⟨kept, hkept, hpeer, -⟩ := h.entries entryId entry hentry.found
  exact ⟨kept, h.chats entryId hentry.listed, hkept, hpeer.trans hentry.peer⟩

/-- What `findEntryByPeer` finds. -/
theorem listedEntry_of_findEntryByPeer {entryId : ObjId}
    (h : findEntryByPeer state peerUid = some entryId) :
    entryId.isValid = true ∧ ∃ entry, ListedEntry state entryId peerUid entry := by
  have hfound := List.find?_some h
  rw [Bool.and_eq_true] at hfound
  refine ⟨hfound.1, ?_⟩
  cases hentry : state.entries.lookup entryId with
  | none =>
      rw [hentry] at hfound
      cases hfound.2
  | some entry =>
      rw [hentry] at hfound
      exact ⟨entry, List.mem_of_find?_eq_some h, hentry, of_decide_eq_true hfound.2⟩

/-- `OpenOrSelectChat` makes at most one entry, which is new. -/
theorem openOrSelectChat_stagesKeep (hids : ∀ n, (env.ids n).isValid = true)
    (hfresh : state.entries.lookup (env.ids 0) = none) :
    StagesKeep state (openOrSelectChat env state peerUid).stages := by
  unfold openOrSelectChat
  simp only
  split
  · trivial
  split
  · split
    · exact ⟨trivial, by simp [StageKeeps]⟩
    · trivial
  · exact ⟨⟨hids 1, hfresh⟩, by simp [StageKeeps]⟩

/-- The entry that `OpenOrSelectChat` answers is an entry of the peer. -/
theorem listedEntry_of_openOrSelectChat {roomIds : Nat → ObjId} {clockUs : UInt64}
    {world next : ChatWorld} (hlive : NodesLocal world.live) (hsaved : NodesLocal world.saved)
    (hids : ∀ n, (env.ids n).isValid = true)
    (hfresh : world.live.entries.lookup (env.ids 0) = none)
    (hvalid : (openOrSelectChat env world.live peerUid).result.isValid = true)
    (hrun : world.runStages roomIds clockUs (openOrSelectChat env world.live peerUid).stages =
      .ok next) :
    ∃ entry, ListedEntry next.live (openOrSelectChat env world.live peerUid).result
      (trimAsciiWhitespace peerUid) entry := by
  have hkeeps : StagesKeep world.live (openOrSelectChat env world.live peerUid).stages :=
    openOrSelectChat_stagesKeep hids hfresh
  have hkept := worldKept_runStages hlive hsaved hkeeps hrun
  unfold openOrSelectChat at hvalid hrun hkeeps ⊢
  simp only at hvalid hrun hkeeps ⊢
  split
  case isTrue hempty =>
    rw [if_pos hempty] at hvalid
    cases hvalid
  case isFalse hempty =>
  rw [if_neg hempty] at hvalid hrun hkeeps
  cases hfind : findEntryByPeer world.live (trimAsciiWhitespace peerUid) with
  | some entryId =>
      obtain ⟨-, entry, hentry⟩ := listedEntry_of_findEntryByPeer hfind
      obtain ⟨kept, hlisted⟩ := hkept.entries.listed hentry
      refine ⟨kept, ?_⟩
      simp only
      split
      · exact hlisted
      · exact hlisted
  | none =>
      rw [hfind] at hrun hkeeps
      simp only at hrun hkeeps ⊢
      rw [ChatWorld.runStages, List.foldlM_cons] at hrun
      obtain ⟨created, hcreate, hrun⟩ := except_bind_eq_ok_iff.mp hrun
      rw [List.foldlM_cons] at hrun
      obtain ⟨added, hadd, hrun⟩ := except_bind_eq_ok_iff.mp hrun
      have hcreated := worldKept_runStage hlive hsaved hkeeps.1 hcreate
      have hlater : StagesKeep created.live _ := hkeeps.rest
      have hadded := worldKept_runStage hcreated.live hcreated.saved hlater.1 hadd
      have hrest := worldKept_runStages hadded.live hadded.saved hlater.rest hrun
      -- The new entry is in the table, and then in the list of the workspace.
      cases Except.ok.inj hcreate
      obtain ⟨workspace, hcommit, hresult⟩ := except_bind_eq_ok_iff.mp hadd
      cases hresult
      obtain ⟨-, -, hcommitted⟩ := hcreated.live.workspace.committed rfl hcommit
      have hmember : env.ids 0 ∈ workspace.fields.chats := by
        rw [hcommitted.fields]
        exact List.mem_append_right _ List.mem_cons_self
      exact hrest.entries.listed ⟨hmember, AList.lookup_insert _, rfl⟩

/-- `BindChat` binds an entry that has no other room. -/
theorem bindChat_stagesKeep {entryId roomId : ObjId} {link : Ref Link} :
    StagesKeep state (bindChat env state entryId link roomId).stages := by
  unfold bindChat
  cases hentry : state.entries.lookup entryId with
  | none => trivial
  | some entry =>
      simp only
      split
      · trivial
      split
      · trivial
      split
      · trivial
      split
      · trivial
      split
      · trivial
      case isFalse hother =>
        refine ⟨?_, by simp [StageKeeps]⟩
        intro found hfound hvalid
        cases hentry.symm.trans hfound
        by_contra hne
        exact hother ⟨hvalid, fun hsame => hne hsame.symm⟩

/-- After `BindChat` the entry has the room. -/
theorem room_of_bindChat {roomIds : Nat → ObjId} {clockUs : UInt64} {world next : ChatWorld}
    {entryId roomId : ObjId} {link : Ref Link} (hlive : NodesLocal world.live)
    (hbound : (bindChat env world.live entryId link roomId).result = true)
    (hrun : world.runStages roomIds clockUs
      (bindChat env world.live entryId link roomId).stages = .ok next) :
    ∃ entry, next.live.entries.lookup entryId = some entry ∧ entry.fields.room = roomId := by
  unfold bindChat at hbound hrun
  cases hentry : world.live.entries.lookup entryId with
  | none =>
      rw [hentry] at hbound
      cases hbound
  | some entry =>
      simp only [hentry] at hbound hrun
      split at hbound
      · cases hbound
      case isFalse hpointers =>
      rw [if_neg hpointers] at hrun
      split at hbound
      · cases hbound
      case isFalse hendpoint =>
      rw [if_neg hendpoint] at hrun
      split at hbound
      case isTrue hsame =>
        rw [if_pos hsame] at hrun
        cases hrun
        exact ⟨entry, hentry, hsame.2.2.2⟩
      case isFalse hother =>
      rw [if_neg hother] at hrun
      split at hbound
      · cases hbound
      case isFalse hlink =>
      rw [if_neg hlink] at hrun
      split at hbound
      · cases hbound
      case isFalse hroom =>
      rw [if_neg hroom, ChatWorld.runStages, List.foldlM_cons] at hrun
      obtain ⟨bound, hcommit, hrun⟩ := except_bind_eq_ok_iff.mp hrun
      cases hrun
      cases stageRun_of_runStage hcommit with
      | commitEntry _ eventId event found after hfound hcommitted hresult =>
          subst hresult
          cases hentry.symm.trans hfound
          obtain ⟨-, -, hfields⟩ := (hlive.entries entryId entry hentry).committed rfl hcommitted
          refine ⟨after, AList.lookup_insert _, ?_⟩
          rw [hfields.fields]
          rfl

end Commands

section Rules

variable {platform : ChatPlatform} {session : ChatSession} {invariant : ChatSession → Prop}
  {post : Unit → ChatSession → Prop} {clockUs : UInt64}

/-- The rule for one stage. -/
theorem safe_runChatStage {stage : ChatStage} (hlocal : SessionLocal session)
    (hkeeps : StageKeeps session.world.live stage)
    (h : ∀ world, session.world.runStage platform.roomIds clockUs stage = .ok world →
      WorldKept session.world world →
      invariant { session with world := world } ∧ post () { session with world := world }) :
    (runChatStage platform clockUs stage).Safe invariant post session := by
  intro changed hchanged
  obtain ⟨world, hworld, rfl⟩ := Option.map_eq_some_iff.mp hchanged
  have hrun := toOption_eq_some_iff.mp hworld
  exact h world hrun (worldKept_runStage hlocal.live hlocal.saved hkeeps hrun)

theorem SessionLocal.setWorld (h : SessionLocal session) {world : ChatWorld}
    (hworld : WorldKept session.world world) :
    SessionLocal { session with world := world } :=
  ⟨hworld.live, hworld.saved, h.runtime⟩

/-- The rule for the stages of a command. -/
theorem safe_runChatStages {stages : List ChatStage} (hlocal : SessionLocal session)
    (hkeeps : StagesKeep session.world.live stages) :
    (runChatStages platform clockUs stages).Safe SessionLocal
      (fun _ final => ∃ world, final = { session with world := world } ∧
        WorldKept session.world world ∧
        session.world.runStages platform.roomIds clockUs stages = .ok world) session := by
  induction stages generalizing session with
  | nil => exact ⟨session.world, rfl, hlocal.worldKept, rfl⟩
  | cons stage rest ih =>
      rw [runChatStages, Program.safe_bind]
      apply safe_runChatStage hlocal hkeeps.1
      intro world hrun hworld
      refine ⟨hlocal.setWorld hworld, ?_⟩
      refine (ih (hlocal.setWorld hworld) hkeeps.rest).mono ?_
      rintro - final ⟨last, rfl, hlast, hstages⟩
      refine ⟨last, rfl, ⟨hlast.live, hlast.saved, hworld.entries.trans hlast.entries⟩, ?_⟩
      rw [ChatWorld.runStages, List.foldlM_cons]
      show (session.world.runStage platform.roomIds clockUs stage >>= _) = _
      rw [hrun]
      exact hstages

/-- The rule for a command that is planned in the state it finds. -/
theorem safe_runPlanned {ρ : Type} {planned : ChatState → Planned ρ}
    (hlocal : SessionLocal session)
    (hkeeps : StagesKeep session.world.live (planned session.world.live).stages) :
    (runPlanned platform clockUs planned).Safe SessionLocal
      (fun result final => result = (planned session.world.live).result ∧
        ∃ world, final = { session with world := world } ∧ WorldKept session.world world ∧
          session.world.runStages platform.roomIds clockUs
            (planned session.world.live).stages = .ok world) session := by
  rw [runPlanned, Program.safe_bind, Program.safe_read]
  refine ⟨hlocal, ?_⟩
  rw [Program.safe_bind]
  refine (safe_runChatStages hlocal hkeeps).mono ?_
  rintro - final ⟨world, rfl, hworld, hrun⟩
  exact ⟨rfl, world, rfl, hworld, hrun⟩

/-- The rule for a commit on the join state. -/
theorem safe_commitJoin {eventId : ObjId} {event : ChatDemoRuntimeEvent}
    (hlocal : SessionLocal session)
    (h : ∀ runtime : ChatDemoRuntimeState, runtime.IsLocal chatDemoRuntime →
      chatDemoRuntime.canApply session.join event = true →
      runtime.fields = chatDemoRuntime.apply session.join event →
      invariant { session with runtime := runtime } ∧
        post () { session with runtime := runtime }) :
    (commitJoin clockUs eventId event).Safe invariant post session := by
  intro changed hchanged
  obtain ⟨runtime, hcommit, rfl⟩ := Option.map_eq_some_iff.mp hchanged
  obtain ⟨hcan, -, hcommitted⟩ :=
    hlocal.runtime.committed rfl (toOption_eq_some_iff.mp hcommit)
  exact h runtime hcommitted.isLocal hcan hcommitted.fields

/-- The rule for a commit that is made if it can be applied. -/
theorem safe_commitJoinIfPossible {eventId : ObjId} {event : ChatDemoRuntimeEvent}
    (hlocal : SessionLocal session) (hinvariant : invariant session)
    (hcan : ∀ runtime : ChatDemoRuntimeState, runtime.IsLocal chatDemoRuntime →
      chatDemoRuntime.canApply session.join event = true →
      runtime.fields = chatDemoRuntime.apply session.join event →
      invariant { session with runtime := runtime } ∧
        post () { session with runtime := runtime })
    (hcannot : chatDemoRuntime.canApply session.join event = false → post () session) :
    (commitJoinIfPossible clockUs eventId event).Safe invariant post session := by
  rw [commitJoinIfPossible, Program.safe_bind, Program.safe_read]
  refine ⟨hinvariant, ?_⟩
  cases happlicable : chatDemoRuntime.canApply session.join event with
  | true => exact safe_commitJoin hlocal hcan
  | false => exact hcannot happlicable

end Rules

end AppTraverse
