import Mathlib.Data.List.DropRight
import AppTraverse.Chat.ChatRuns

/-!
# A workspace that is well formed

The commands of `chat_commands.cpp` check what the Events they commit do not: that a peer has no
entry yet, that an endpoint was not bound before, and that a binding does not conflict with the
one that is there.  What a stage needs for the workspace to stay well formed is `StageFits`, and
every stage of every command fits the state in which it runs.
-/

namespace AppTraverse

open Foundations

section Trimmed

theorem trimAsciiWhitespace_eq_rdropWhile (text : Bytes) :
    trimAsciiWhitespace text = (text.dropWhile isSpace).rdropWhile isSpace :=
  rfl

/-- What was trimmed has nothing to trim. -/
theorem trimAsciiWhitespace_trimmed (text : Bytes) :
    trimAsciiWhitespace (trimAsciiWhitespace text) = trimAsciiWhitespace text := by
  rw [trimAsciiWhitespace_eq_rdropWhile, trimAsciiWhitespace_eq_rdropWhile]
  have hfront : ((text.dropWhile isSpace).rdropWhile isSpace).dropWhile isSpace =
      (text.dropWhile isSpace).rdropWhile isSpace := by
    rw [List.dropWhile_eq_self_iff]
    intro hlength
    have hstarts := List.rdropWhile_prefix isSpace (l := text.dropWhile isSpace)
    rw [hstarts.getElem hlength]
    exact List.dropWhile_eq_self_iff.mp (List.dropWhile_idempotent isSpace text) _
  rw [hfront]
  exact List.rdropWhile_idempotent isSpace _

end Trimmed

/-- The room and the Link of an entry come together, and the Link is one to the peer. -/
structure ChatEntryFields.IsBound (fields : ChatEntryFields) : Prop where
  together : fields.peerLink.isValid = fields.room.isValid
  endpoint : fields.peerLink.isValid = true → linkEndpointUid fields.peerLink = fields.peerUid

/-- The fields of an entry of the replica. -/
def ChatState.entryFields (state : ChatState) (entryId : ObjId) : Option ChatEntryFields :=
  (state.entries.lookup entryId).map Node.fields

/-- The peer of an entry. -/
def ChatState.peerOf (state : ChatState) (entryId : ObjId) : Option Bytes :=
  (state.entryFields entryId).map ChatEntryFields.peerUid

/-- The fields belong to an entry of a peer. -/
def ChatEntryFields.IsOfPeer (fields : ChatEntryFields) : Prop :=
  fields.peerUid ≠ [] ∧ trimAsciiWhitespace fields.peerUid = fields.peerUid

/-- The entries of a workspace are of different peers, the selection is one of them or empty,
and every binding leads to the peer. -/
structure ChatState.Formed (state : ChatState) : Prop where
  valid : ∀ entryId ∈ state.workspace.fields.chats, entryId.isValid = true
  peers : ∀ entryId ∈ state.workspace.fields.chats, ∃ fields,
    state.entryFields entryId = some fields ∧ fields.IsOfPeer
  distinct : state.workspace.fields.chats.Pairwise fun first second =>
    state.peerOf first ≠ state.peerOf second
  selected : state.workspace.fields.selectedChatId = ObjId.empty ∨
    state.workspace.fields.selectedChatId ∈ state.workspace.fields.chats
  bound : ∀ entryId fields, state.entryFields entryId = some fields → fields.IsBound

/-- What was set once is still there. -/
structure ChatState.KeptIn (state later : ChatState) : Prop where
  role : state.workspace.fields.demoRole ≠ .unconfigured →
    later.workspace.fields.demoRole = state.workspace.fields.demoRole
  endpoint : state.workspace.fields.localEndpointUid ≠ [] →
    later.workspace.fields.localEndpointUid = state.workspace.fields.localEndpointUid
  entries : ∀ entryId fields, state.entryFields entryId = some fields →
    ∃ fields', later.entryFields entryId = some fields' ∧ fields'.peerUid = fields.peerUid ∧
      (fields.peerLink.isValid = true → fields'.peerLink = fields.peerLink) ∧
      (fields.room.isValid = true → fields'.room = fields.room)

/-- An entry that may become a chat: it is of a peer that has none. -/
def ChatState.CanAddChat (state : ChatState) (entryId : ObjId) : Prop :=
  entryId.isValid = true ∧ ∃ fields, state.entryFields entryId = some fields ∧
    fields.IsOfPeer ∧ ∀ other ∈ state.workspace.fields.chats,
      state.peerOf other ≠ some fields.peerUid

/-- What the commands see to, beyond what the Events check. -/
def StageFits (state : ChatState) : ChatStage → Prop
  | .createEntry entryId _ fields => state.entryFields entryId = none ∧ fields.IsBound
  | .commitWorkspace _ (.chatEntryAdded entryId) => state.CanAddChat entryId
  | .commitWorkspace _ (.localEndpointBound _) => state.workspace.fields.localEndpointUid = []
  | .commitEntry entryId _ (.chatBindingChanged _ _) => ∀ fields,
      state.entryFields entryId = some fields →
        fields.peerLink.isValid = false ∧ fields.room.isValid = false
  | _ => True

/-- What `CanApply` asks of the Event of a stage.  The timestamp of a message is left out, since
`CommitShared` decides about it. -/
def StageAdmitted (state : ChatState) : ChatStage → Prop
  | .createEntry _ baseId _ => baseId.isValid = true
  | .commitWorkspace eventId event =>
      eventId.isValid = true ∧ chatWorkspace.canApply state.workspace.fields event = true
  | .commitEntry entryId eventId event => eventId.isValid = true ∧ ∃ entry,
      state.entries.lookup entryId = some entry ∧ chatEntry.canApply entry.fields event = true
  | .commitMessage roomId eventId message => eventId.isValid = true ∧ ∃ room,
      state.rooms.lookup roomId = some room ∧ message.id.originUid ≠ [] ∧
        message.id.originSequence ≠ 0 ∧ message.text ≠ []
  | .persist => True

/-- The text that a client puts in for the host is not longer than `CanApply` admits. -/
def HostTextFits (state : ChatState) : ChatCommand → Prop
  | .setHostUidInput text => state.workspace.fields.demoRole = .client →
      state.workspace.fields.hostUidInput ≠ text → text.length ≤ 128
  | _ => True

namespace ChatState

variable {state later last : ChatState}

theorem entryFields_of_lookup {entryId : ObjId} {entry : ChatEntry}
    (hentry : state.entries.lookup entryId = some entry) :
    state.entryFields entryId = some entry.fields := by
  rw [entryFields, hentry]
  rfl

theorem entryFields_reloaded (state : ChatState) (entryId : ObjId) :
    state.reloaded.entryFields entryId = state.entryFields entryId := by
  show ((mapValues Node.reloaded state.entries).lookup entryId).map Node.fields = _
  rw [lookup_mapValues, Option.map_map]
  rfl

theorem entryFields_insert {entryId other : ObjId} {entry : ChatEntry} :
    entryFields { state with entries := state.entries.insert entryId entry } other =
      if other = entryId then some entry.fields else state.entryFields other := by
  unfold entryFields
  split
  case isTrue hsame =>
    subst hsame
    rw [AList.lookup_insert]
    rfl
  case isFalse hother => rw [AList.lookup_insert_ne hother]

namespace KeptIn

theorem refl (state : ChatState) : state.KeptIn state :=
  ⟨fun _ => rfl, fun _ => rfl, fun _ fields hfields =>
    ⟨fields, hfields, rfl, fun _ => rfl, fun _ => rfl⟩⟩

theorem trans (h : state.KeptIn later) (h' : later.KeptIn last) : state.KeptIn last where
  role hrole := by
    have hlater := h.role hrole
    rw [h'.role (by rwa [hlater]), hlater]
  endpoint hendpoint := by
    have hlater := h.endpoint hendpoint
    rw [h'.endpoint (by rwa [hlater]), hlater]
  entries entryId fields hfields := by
    obtain ⟨fields', hfields', hpeer, hlink, hroom⟩ := h.entries entryId fields hfields
    obtain ⟨fields'', hfields'', hpeer', hlink', hroom'⟩ := h'.entries entryId fields' hfields'
    refine ⟨fields'', hfields'', hpeer'.trans hpeer, ?_, ?_⟩
    · intro hvalid
      have hsame := hlink hvalid
      rw [hlink' (by rwa [hsame]), hsame]
    · intro hvalid
      have hsame := hroom hvalid
      rw [hroom' (by rwa [hsame]), hsame]

end KeptIn

/-- Another workspace over the same entries. -/
theorem KeptIn.of_workspace {workspace : ChatWorkspace}
    (hrole : state.workspace.fields.demoRole ≠ .unconfigured →
      workspace.fields.demoRole = state.workspace.fields.demoRole)
    (hendpoint : state.workspace.fields.localEndpointUid ≠ [] →
      workspace.fields.localEndpointUid = state.workspace.fields.localEndpointUid) :
    state.KeptIn { state with workspace := workspace } :=
  ⟨hrole, hendpoint, (KeptIn.refl state).entries⟩

namespace Formed

/-- Another workspace with the same chats. -/
theorem of_workspace (h : state.Formed) {workspace : ChatWorkspace}
    (hchats : workspace.fields.chats = state.workspace.fields.chats)
    (hselected : workspace.fields.selectedChatId = state.workspace.fields.selectedChatId ∨
      workspace.fields.selectedChatId ∈ state.workspace.fields.chats) :
    Formed { state with workspace := workspace } where
  valid := by
    show ∀ entryId ∈ workspace.fields.chats, _
    rw [hchats]
    exact h.valid
  peers := by
    show ∀ entryId ∈ workspace.fields.chats, _
    rw [hchats]
    exact h.peers
  distinct := by
    show workspace.fields.chats.Pairwise _
    rw [hchats]
    exact h.distinct
  selected := by
    show workspace.fields.selectedChatId = ObjId.empty ∨
      workspace.fields.selectedChatId ∈ workspace.fields.chats
    rw [hchats]
    rcases hselected with hsame | hmem
    · rw [hsame]
      exact h.selected
    · exact Or.inr hmem
  bound := h.bound

/-- An Event that leaves the chats, and what was set once. -/
theorem keepWorkspace (h : state.Formed) {workspace : ChatWorkspace}
    {fields : ChatWorkspaceFields} (hfields : workspace.fields = fields)
    (hchats : fields.chats = state.workspace.fields.chats)
    (hselected : fields.selectedChatId = state.workspace.fields.selectedChatId ∨
      fields.selectedChatId ∈ state.workspace.fields.chats)
    (hrole : state.workspace.fields.demoRole ≠ .unconfigured →
      fields.demoRole = state.workspace.fields.demoRole)
    (hendpoint : state.workspace.fields.localEndpointUid ≠ [] →
      fields.localEndpointUid = state.workspace.fields.localEndpointUid) :
    Formed { state with workspace := workspace } ∧
      state.KeptIn { state with workspace := workspace } := by
  subst hfields
  exact ⟨h.of_workspace hchats hselected, .of_workspace hrole hendpoint⟩

/-- One more chat. -/
theorem addChat (h : state.Formed) {workspace : ChatWorkspace} {entryId : ObjId}
    (hadd : state.CanAddChat entryId)
    (hchats : workspace.fields.chats = state.workspace.fields.chats ++ [entryId])
    (hselected : workspace.fields.selectedChatId = state.workspace.fields.selectedChatId) :
    Formed { state with workspace := workspace } := by
  obtain ⟨hvalid, fields, hfields, hpeer, hother⟩ := hadd
  constructor
  case valid =>
    show ∀ entryId ∈ workspace.fields.chats, _
    rw [hchats, List.forall_mem_append, List.forall_mem_singleton]
    exact ⟨h.valid, hvalid⟩
  case peers =>
    show ∀ entryId ∈ workspace.fields.chats, ∃ fields, state.entryFields entryId = some fields ∧ _
    rw [hchats, List.forall_mem_append, List.forall_mem_singleton]
    exact ⟨h.peers, fields, hfields, hpeer⟩
  case distinct =>
    show workspace.fields.chats.Pairwise fun first second =>
      state.peerOf first ≠ state.peerOf second
    rw [hchats, List.pairwise_append]
    refine ⟨h.distinct, List.pairwise_singleton _ _, ?_⟩
    intro other hmem last hlast
    rw [List.mem_singleton.mp hlast]
    have hpeerOf : state.peerOf entryId = some fields.peerUid := by
      rw [peerOf, hfields]
      rfl
    rw [hpeerOf]
    exact hother other hmem
  case selected =>
    show workspace.fields.selectedChatId = ObjId.empty ∨
      workspace.fields.selectedChatId ∈ workspace.fields.chats
    rw [hchats, hselected]
    exact h.selected.imp_right fun hmem => List.mem_append_left _ hmem
  case bound => exact h.bound

/-- An entry whose peer stays what it is, or one that is no chat. -/
theorem setEntry (h : state.Formed) {entryId : ObjId} {entry : ChatEntry}
    (hbound : entry.fields.IsBound)
    (hpeer : state.peerOf entryId = some entry.fields.peerUid ∨
      entryId ∉ state.workspace.fields.chats) :
    Formed { state with entries := state.entries.insert entryId entry } := by
  have hpeers : ∀ other ∈ state.workspace.fields.chats,
      peerOf { state with entries := state.entries.insert entryId entry } other =
        state.peerOf other := by
    intro other hmem
    unfold peerOf
    rw [entryFields_insert]
    split
    case isTrue hsame =>
      subst hsame
      rcases hpeer with hpeer | hnone
      · exact hpeer.symm
      · exact absurd hmem hnone
    case isFalse => rfl
  constructor
  case valid => exact h.valid
  case peers =>
    intro other hmem
    obtain ⟨fields, hfields, hof⟩ := h.peers other hmem
    have hsame := hpeers other hmem
    rw [peerOf, peerOf, hfields] at hsame
    obtain ⟨fields', hfields', huid⟩ := Option.map_eq_some_iff.mp hsame
    refine ⟨fields', hfields', ?_⟩
    unfold ChatEntryFields.IsOfPeer at hof ⊢
    rw [huid]
    exact hof
  case distinct =>
    apply h.distinct.imp_of_mem
    intro first second hfirst hsecond hne
    rw [hpeers first hfirst, hpeers second hsecond]
    exact hne
  case selected => exact h.selected
  case bound =>
    intro other fields hfields
    rw [entryFields_insert] at hfields
    split at hfields
    case isTrue =>
      cases hfields
      exact hbound
    case isFalse => exact h.bound other fields hfields

theorem reloaded (h : state.Formed) : state.reloaded.Formed := by
  have hsame : state.reloaded.entryFields = state.entryFields :=
    funext state.entryFields_reloaded
  have hpeers : state.reloaded.peerOf = state.peerOf := by
    funext entryId
    rw [peerOf, hsame, peerOf]
  constructor
  case valid => exact h.valid
  case peers =>
    rw [hsame]
    exact h.peers
  case distinct =>
    rw [hpeers]
    exact h.distinct
  case selected => exact h.selected
  case bound =>
    rw [hsame]
    exact h.bound

/-- The rooms have no part in it. -/
theorem setRoom (h : state.Formed) (roomId : ObjId) (room : ChatRoom) :
    (state.setRoom roomId room).Formed :=
  ⟨h.valid, h.peers, h.distinct, h.selected, h.bound⟩

end Formed

end ChatState

section Stages

variable {roomIds : Nat → ObjId} {env : CommandEnv} {clockUs : UInt64}
  {world next : ChatWorld}

/-- One stage as a step of a run. -/
def stageStep (roomIds : Nat → ObjId) (clockUs : UInt64) (world : ChatWorld)
    (stage : ChatStage) : Option ChatWorld :=
  (world.runStage roomIds clockUs stage).toOption

/-- A stage that fits keeps the workspace well formed, and what was set once. -/
theorem formed_runStage (h : world.live.Formed) (hlocal : NodesLocal world.live)
    {stage : ChatStage} (hfits : StageFits world.live stage)
    (hrun : world.runStage roomIds clockUs stage = .ok next) :
    next.live.Formed ∧ world.live.KeptIn next.live := by
  cases stageRun_of_runStage hrun with
  | createEntry entryId baseId fields hresult =>
      subst hresult
      obtain ⟨hfresh, hbound⟩ := hfits
      refine ⟨h.setEntry hbound (Or.inr ?_), fun _ => rfl, fun _ => rfl, ?_⟩
      · intro hmem
        obtain ⟨found, hfound, -⟩ := h.peers entryId hmem
        rw [hfresh] at hfound
        cases hfound
      · intro other found hfound
        refine ⟨found, ?_, rfl, fun _ => rfl, fun _ => rfl⟩
        refine ChatState.entryFields_insert.trans ?_
        rw [if_neg, hfound]
        rintro rfl
        rw [hfresh] at hfound
        cases hfound
  | commitWorkspace eventId event workspace hcommit hresult =>
      subst hresult
      obtain ⟨hcan, -, hcommitted⟩ := hlocal.workspace.committed rfl hcommit
      have hfields := hcommitted.fields
      cases event with
      | demoRoleConfigured role =>
          rw [chatWorkspace] at hcan
          simp only [Bool.and_eq_true, decide_eq_true_eq] at hcan
          apply h.keepWorkspace hfields rfl (Or.inl rfl) _ fun _ => rfl
          intro hrole
          exact absurd hcan.2 hrole
      | hostUidInputChanged text =>
          exact h.keepWorkspace hfields rfl (Or.inl rfl) (fun _ => rfl) fun _ => rfl
      | localEndpointBound endpointUid =>
          apply h.keepWorkspace hfields rfl (Or.inl rfl) fun _ => rfl
          intro hendpoint
          exact absurd hfits hendpoint
      | messageSequenceReserved reservedSequence =>
          exact h.keepWorkspace hfields rfl (Or.inl rfl) (fun _ => rfl) fun _ => rfl
      | chatEntryAdded entryId =>
          exact ⟨h.addChat hfits (by rw [hfields]; rfl) (by rw [hfields]; rfl),
            .of_workspace (fun _ => by rw [hfields]; rfl) fun _ => by rw [hfields]; rfl⟩
      | chatSelected entryId =>
          have hmem : entryId ∈ world.live.workspace.fields.chats := by
            rw [chatWorkspace] at hcan
            simp only [Bool.and_eq_true, List.any_eq_true, decide_eq_true_eq] at hcan
            obtain ⟨-, found, hfound, -, rfl⟩ := hcan
            exact hfound
          exact h.keepWorkspace hfields rfl (Or.inr hmem) (fun _ => rfl) fun _ => rfl
      | desktopBoundsChanged bounds =>
          exact h.keepWorkspace hfields rfl (Or.inl rfl) (fun _ => rfl) fun _ => rfl
  | commitEntry entryId eventId event entry after hfound hcommit hresult =>
      subst hresult
      obtain ⟨hcan, -, hcommitted⟩ := (hlocal.entries entryId entry hfound).committed rfl hcommit
      have hentry := ChatState.entryFields_of_lookup hfound
      have hbefore := h.bound entryId entry.fields hentry
      have hafter : after.fields.IsBound ∧ after.fields.peerUid = entry.fields.peerUid ∧
          (entry.fields.peerLink.isValid = true →
            after.fields.peerLink = entry.fields.peerLink) ∧
          (entry.fields.room.isValid = true → after.fields.room = entry.fields.room) := by
        rw [hcommitted.fields]
        cases event with
        | chatBindingChanged link roomId =>
            rw [chatEntry] at hcan
            simp only [Bool.and_eq_true, decide_eq_true_eq] at hcan
            obtain ⟨⟨hlink, hroom⟩, hendpoint⟩ := hcan
            obtain ⟨hnoLink, hnoRoom⟩ := hfits entry.fields hentry
            refine ⟨⟨hlink.trans hroom.symm, fun _ => hendpoint⟩, rfl, ?_, ?_⟩
            · intro hvalid
              rw [hnoLink] at hvalid
              cases hvalid
            · intro hvalid
              rw [hnoRoom] at hvalid
              cases hvalid
        | draftChanged text =>
            exact ⟨⟨hbefore.together, hbefore.endpoint⟩, rfl, fun _ => rfl, fun _ => rfl⟩
        | scrollChanged scroll =>
            exact ⟨⟨hbefore.together, hbefore.endpoint⟩, rfl, fun _ => rfl, fun _ => rfl⟩
      obtain ⟨hbound, hpeer, hlink, hroom⟩ := hafter
      refine ⟨h.setEntry hbound (Or.inl ?_), fun _ => rfl, fun _ => rfl, ?_⟩
      · rw [ChatState.peerOf, hentry, hpeer]
        rfl
      · intro other fields hfields
        by_cases hsame : other = entryId
        · subst hsame
          cases hentry.symm.trans hfields
          exact ⟨after.fields, ChatState.entryFields_insert.trans (if_pos rfl), hpeer, hlink,
            hroom⟩
        · exact ⟨fields, ChatState.entryFields_insert.trans ((if_neg hsame).trans hfields), rfl,
            fun _ => rfl, fun _ => rfl⟩
  | commitMessage roomId eventId message room after hfound hcommit hresult =>
      subst hresult
      exact ⟨h.setRoom roomId after, fun _ => rfl, fun _ => rfl, (ChatState.KeptIn.refl _).entries⟩
  | persist hresult =>
      subst hresult
      exact ⟨h, ChatState.KeptIn.refl _⟩

/-- What the stages of a command meet: they fit, and they are admitted when `fits` holds. -/
abbrev StagesMeet (roomIds : Nat → ObjId) (clockUs : UInt64) (fits : Prop) (world : ChatWorld)
    (stages : List ChatStage) : Prop :=
  EveryStep (stageStep roomIds clockUs)
    (fun world stage => StageFits world.live stage ∧ (fits → StageAdmitted world.live stage))
    world stages

/-- A command that makes one commit and persists it. -/
theorem stagesMeet_commit {fits : Prop} {stage : ChatStage} (hfits : StageFits world.live stage)
    (hadmitted : fits → StageAdmitted world.live stage) :
    StagesMeet roomIds clockUs fits world [stage, .persist] :=
  ⟨⟨hfits, hadmitted⟩, fun _ _ => ⟨⟨trivial, fun _ => trivial⟩, fun _ _ => trivial⟩⟩

theorem findEntryByPeer_some {state : ChatState} {peerUid : Bytes} {entryId : ObjId}
    (hfind : findEntryByPeer state peerUid = some entryId) :
    entryId ∈ state.workspace.fields.chats ∧ entryId.isValid = true ∧
      state.peerOf entryId = some peerUid := by
  have hmem := List.mem_of_find?_eq_some hfind
  have hfound := List.find?_some hfind
  rw [Bool.and_eq_true] at hfound
  refine ⟨hmem, hfound.1, ?_⟩
  unfold ChatState.peerOf ChatState.entryFields
  cases hentry : state.entries.lookup entryId with
  | none => simp [hentry] at hfound
  | some entry =>
      rw [hentry] at hfound
      have huid := of_decide_eq_true hfound.2
      simp [huid]

theorem findEntryByPeer_none (h : world.live.Formed) {peerUid : Bytes}
    (hfind : findEntryByPeer world.live peerUid = none) :
    ∀ other ∈ world.live.workspace.fields.chats, world.live.peerOf other ≠ some peerUid := by
  intro other hmem hpeer
  have hnot := List.find?_eq_none.mp hfind other hmem
  rw [h.valid other hmem, Bool.true_and] at hnot
  unfold ChatState.peerOf ChatState.entryFields at hpeer
  cases hentry : world.live.entries.lookup other with
  | none =>
      rw [hentry] at hpeer
      cases hpeer
  | some entry =>
      rw [hentry] at hnot hpeer
      exact hnot (decide_eq_true (Option.some.inj hpeer))

/-- The chat that `OpenOrSelectChat` adds. -/
theorem canAddChat_createEntry (h : world.live.Formed) {entryId baseId : ObjId}
    {fields : ChatEntryFields} (hvalid : entryId.isValid = true)
    (hfresh : world.live.entryFields entryId = none) (hpeer : fields.IsOfPeer)
    (hother : ∀ other ∈ world.live.workspace.fields.chats,
      world.live.peerOf other ≠ some fields.peerUid) :
    (world.createEntry entryId baseId fields).live.CanAddChat entryId := by
  refine ⟨hvalid, fields, ChatState.entryFields_insert.trans (if_pos rfl), hpeer, ?_⟩
  intro other hmem
  have hne : other ≠ entryId := by
    rintro rfl
    obtain ⟨found, hfound, -⟩ := h.peers other hmem
    rw [hfresh] at hfound
    cases hfound
  have hsame : (world.createEntry entryId baseId fields).live.peerOf other =
      world.live.peerOf other := by
    unfold ChatState.peerOf
    exact congrArg _ (ChatState.entryFields_insert.trans (if_neg hne))
  rw [hsame]
  exact hother other hmem

theorem chatSelected_admitted {fields : ChatWorkspaceFields} {entryId : ObjId}
    (hvalid : entryId.isValid = true) (hmem : entryId ∈ fields.chats) :
    chatWorkspace.canApply fields (.chatSelected entryId) = true := by
  show (entryId.isValid && fields.chats.any fun entry =>
    entry.isValid && decide (entry = entryId)) = true
  rw [hvalid, Bool.true_and, List.any_eq_true]
  exact ⟨entryId, hmem, by simp [hvalid]⟩

variable (henv : ∀ n, (env.ids n).isValid = true)

include henv

theorem stagesMeet_openOrSelectChat (h : world.live.Formed) (hlocal : NodesLocal world.live)
    (hfresh : world.live.entryFields (env.ids 0) = none) (fits : Prop) (peerUid : Bytes) :
    StagesMeet roomIds clockUs fits world (openOrSelectChat env world.live peerUid).stages := by
  unfold openOrSelectChat
  dsimp only
  split
  case isTrue => trivial
  case isFalse hnonempty =>
  split
  case h_1 entryId hfind =>
    obtain ⟨hmem, hvalid, -⟩ := findEntryByPeer_some hfind
    split
    case isTrue =>
      exact stagesMeet_commit trivial fun _ => ⟨henv 0, chatSelected_admitted hvalid hmem⟩
    case isFalse => trivial
  case h_2 hfind =>
    have hpeer : ChatEntryFields.IsOfPeer
        { peerUid := trimAsciiWhitespace peerUid
          displayName := conversationDisplayName world.live.workspace.fields.demoRole
            (trimAsciiWhitespace peerUid) } := by
      refine ⟨?_, trimAsciiWhitespace_trimmed peerUid⟩
      simpa using hnonempty
    refine ⟨⟨⟨hfresh, ⟨rfl, fun hvalid => nomatch hvalid⟩⟩, fun _ => henv 1⟩, ?_⟩
    intro created hcreate
    cases toOption_eq_some_iff.mp hcreate
    refine ⟨⟨canAddChat_createEntry h (henv 0) hfresh hpeer (findEntryByPeer_none h hfind),
      fun _ => ⟨henv 2, rfl⟩⟩, ?_⟩
    intro added hadd
    have hrun := toOption_eq_some_iff.mp hadd
    cases stageRun_of_runStage hrun with
    | commitWorkspace _ _ workspace hcommit hresult =>
    subst hresult
    obtain ⟨-, -, hcommitted⟩ := hlocal.workspace.committed rfl hcommit
    refine stagesMeet_commit trivial fun _ => ⟨henv 3, chatSelected_admitted (henv 0) ?_⟩
    show env.ids 0 ∈ workspace.fields.chats
    rw [hcommitted.fields]
    exact List.mem_append_right _ (List.mem_singleton_self _)

theorem stagesMeet_bindChat (h : world.live.Formed) (fits : Prop) (entryId : ObjId)
    (link : Ref Link) (roomId : ObjId) :
    StagesMeet roomIds clockUs fits world
      (bindChat env world.live entryId link roomId).stages := by
  unfold bindChat
  split
  case h_1 => trivial
  case h_2 entry hentry =>
  split
  case isTrue => trivial
  case isFalse hpointers =>
  split
  case isTrue => trivial
  case isFalse hendpoint =>
  split
  case isTrue => trivial
  case isFalse hbound =>
  split
  case isTrue => trivial
  case isFalse hlink =>
  split
  case isTrue => trivial
  case isFalse hroom =>
    have hfields := ChatState.entryFields_of_lookup hentry
    apply stagesMeet_commit
    · intro fields hfound
      cases hfields.symm.trans hfound
      have htogether := (h.bound entryId entry.fields hfields).together
      -- what is bound is bound to the same, and that was answered before
      have hnot : ¬ entry.fields.peerLink.isValid = true := by
        intro hvalid
        have hvalidRoom := htogether.symm.trans hvalid
        apply hbound
        refine ⟨hvalid, hvalidRoom, ?_, ?_⟩
        · by_contra hother
          exact hlink ⟨hvalid, hother⟩
        · by_contra hother
          exact hroom ⟨hvalidRoom, hother⟩
      rw [Bool.not_eq_true] at hnot
      exact ⟨hnot, htogether.symm.trans hnot⟩
    · intro _
      refine ⟨henv 0, entry, hentry, ?_⟩
      show (link.isValid && roomId.isValid &&
        decide (linkEndpointUid link = entry.fields.peerUid)) = true
      simp only [Bool.or_eq_true, not_or, Bool.not_eq_true, Bool.not_eq_false'] at hpointers
      rw [hpointers.1.1, hpointers.1.2, decide_eq_true (not_not.mp hendpoint)]
      rfl

theorem stagesMeet_setEntryField (fits : Prop) (entryId : ObjId)
    (unchanged : ChatEntryFields → Bool) {event : ChatEntryEvent}
    (hfits : ∀ eventId, StageFits world.live (.commitEntry entryId eventId event))
    (hcan : ∀ fields, chatEntry.canApply fields event = true) :
    StagesMeet roomIds clockUs fits world
      (setEntryField env world.live entryId unchanged event).stages := by
  unfold setEntryField
  split
  case h_1 => trivial
  case h_2 entry hentry =>
  split
  case isTrue => trivial
  case isFalse =>
    exact stagesMeet_commit (hfits _) fun _ => ⟨henv 0, entry, hentry, hcan _⟩

theorem stagesMeet_submitDraft (fits : Prop) (entryId : ObjId) (nowUs : UInt64) :
    StagesMeet roomIds clockUs fits world (submitDraft env world.live entryId nowUs).stages := by
  unfold submitDraft
  split
  case h_1 => trivial
  case h_2 entry hentry =>
  split
  case isTrue => trivial
  case isFalse hnotRefused =>
  split
  case h_1 => trivial
  case h_2 room hroom =>
    have hrefused := Bool.not_eq_true _ ▸ hnotRefused
    simp only [submitIsRefused, Bool.or_eq_false_iff, decide_eq_false_iff_not,
      Bool.not_eq_false', List.isEmpty_eq_false_iff] at hrefused
    obtain ⟨⟨⟨⟨⟨horigin, -⟩, hdraft⟩, -⟩, hsequence⟩, hlast⟩ := hrefused
    refine ⟨⟨trivial, fun _ => ⟨henv 0, ?_⟩⟩, ?_⟩
    · simp [chatWorkspace, messageOfDraft, nextMessageId, hsequence, hlast]
    intro reserved hreserve
    cases stageRun_of_runStage (toOption_eq_some_iff.mp hreserve) with
    | commitWorkspace _ _ workspace hcommit hresult =>
    subst hresult
    refine ⟨⟨trivial, fun _ => trivial⟩, ?_⟩
    intro persisted hpersist
    cases toOption_eq_some_iff.mp hpersist
    refine ⟨⟨trivial, fun _ => ⟨henv 1, room, hroom, horigin, hsequence, hdraft⟩⟩, ?_⟩
    intro placed hplace
    cases stageRun_of_runStage (toOption_eq_some_iff.mp hplace) with
    | commitMessage _ _ _ _ after hfound hmessage hresult =>
    subst hresult
    refine ⟨⟨trivial, fun _ => trivial⟩, ?_⟩
    intro persisted hpersist
    cases toOption_eq_some_iff.mp hpersist
    exact stagesMeet_commit trivial fun _ => ⟨henv 2, entry, hentry, rfl⟩

/-- The stages of every command. -/
theorem stagesMeet_command (h : world.live.Formed) (hlocal : NodesLocal world.live)
    (hfresh : world.live.entryFields (env.ids 0) = none) (command : ChatCommand) :
    StagesMeet roomIds clockUs (HostTextFits world.live command) world
      (command.stages env world.live) := by
  cases command with
  | configureDemoRole role =>
      simp only [ChatCommand.stages, configureDemoRole]
      split
      case isTrue => trivial
      case isFalse hrole =>
      split
      case isTrue => trivial
      case isFalse =>
      split
      case isTrue => trivial
      case isFalse hunconfigured =>
        refine stagesMeet_commit trivial fun _ => ⟨henv 0, ?_⟩
        show (_ && decide (world.live.workspace.fields.demoRole = .unconfigured)) = true
        rw [decide_eq_true (not_not.mp hunconfigured), Bool.and_true]
        cases role with
        | unconfigured => exact absurd ⟨by simp, by simp⟩ hrole
        | host => rfl
        | client => rfl
  | setHostUidInput text =>
      simp only [ChatCommand.stages, setHostUidInput]
      split
      case isTrue => trivial
      case isFalse hclient =>
      split
      case isTrue => trivial
      case isFalse hdiffers =>
        refine stagesMeet_commit trivial fun hlength => ⟨henv 0, ?_⟩
        have hrole := not_not.mp hclient
        show (decide (world.live.workspace.fields.demoRole = .client) &&
          decide (text.length ≤ 128)) = true
        rw [decide_eq_true hrole, decide_eq_true (hlength hrole hdiffers)]
        rfl
  | openOrSelectChat peerUid => exact stagesMeet_openOrSelectChat henv h hlocal hfresh _ peerUid
  | bindChat entryId link roomId => exact stagesMeet_bindChat henv h _ entryId link roomId
  | bindLocalEndpoint uid =>
      simp only [ChatCommand.stages, bindLocalEndpoint]
      split
      case isTrue => trivial
      case isFalse =>
      split
      case isTrue => trivial
      case isFalse =>
      split
      case isTrue => trivial
      case isFalse hunbound =>
        exact stagesMeet_commit (by simpa [StageFits] using hunbound) fun _ => ⟨henv 0, rfl⟩
  | setDraft entryId text =>
      exact stagesMeet_setEntryField henv _ entryId _ (fun _ => trivial) fun _ => rfl
  | setScroll entryId anchor =>
      exact stagesMeet_setEntryField henv _ entryId _ (fun _ => trivial) fun _ => rfl
  | setDesktopBounds bounds =>
      simp only [ChatCommand.stages, setDesktopBounds]
      split
      case isTrue => trivial
      case isFalse => exact stagesMeet_commit trivial fun _ => ⟨henv 0, rfl⟩
  | selectChat entryId =>
      simp only [ChatCommand.stages, selectChat]
      split
      case isTrue => trivial
      case isFalse hvalid =>
      split
      case isTrue => trivial
      case isFalse hlisted =>
      split
      case isTrue => trivial
      case isFalse =>
        refine stagesMeet_commit trivial fun _ => ⟨henv 0, ?_⟩
        show (entryId.isValid && world.live.workspace.fields.chats.any fun entry =>
          entry.isValid && decide (entry = entryId)) = true
        simp only [Bool.not_eq_true, Bool.not_eq_false'] at hvalid hlisted
        rw [hvalid, hlisted]
        rfl
  | submitDraft entryId nowUs => exact stagesMeet_submitDraft henv _ entryId nowUs

end Stages

section Runs

variable {roomIds : Nat → ObjId} {hids : ∀ n, (roomIds n).isValid = true}
  {world next : ChatWorld}

/-- An id that is drawn for a new entry is not the id of an entry. -/
def DrawsFreshIds (world : ChatWorld) : ChatAction → Prop
  | .run env _ => world.live.entryFields (env.ids 0) = none
  | .interrupted env _ _ => world.live.entryFields (env.ids 0) = none
  | _ => True

instance decidableDrawsFreshIds (world : ChatWorld) :
    ∀ action, Decidable (DrawsFreshIds world action)
  | .run env _ => inferInstanceAs (Decidable (world.live.entryFields (env.ids 0) = none))
  | .interrupted env _ _ =>
      inferInstanceAs (Decidable (world.live.entryFields (env.ids 0) = none))
  | .crash => .isTrue trivial
  | .persist => .isTrue trivial
  | .createRoom _ _ => .isTrue trivial
  | .importRoom _ => .isTrue trivial
  | .callRoom _ _ => .isTrue trivial
  | .saveRoom _ => .isTrue trivial

/-- What is live and what is saved is well formed. -/
def ChatWorld.Formed (world : ChatWorld) : Prop :=
  world.live.Formed ∧ world.saved.Formed

/-- Stages that fit keep both well formed, and what was set once. -/
theorem formed_runStages {clockUs : UInt64} (h : world.Formed) (hsound : world.Sound hids)
    {stages : List ChatStage} (hallowed : ∀ stage ∈ stages, StageAllowed world.live stage)
    (hfits : EveryStep (stageStep roomIds clockUs)
      (fun world stage => StageFits world.live stage) world stages)
    (hrun : world.runStages roomIds clockUs stages = .ok next) :
    next.Formed ∧ world.live.KeptIn next.live := by
  induction stages generalizing world with
  | nil =>
      cases hrun
      exact ⟨h, ChatState.KeptIn.refl _⟩
  | cons stage rest ih =>
      rw [ChatWorld.runStages, List.foldlM_cons] at hrun
      obtain ⟨middle, hstage, hrest⟩ := except_bind_eq_ok_iff.mp hrun
      obtain ⟨hnow, hlater⟩ := everyStep_cons.mp hfits
      obtain ⟨hformed, hkept⟩ := formed_runStage h.1 hsound.1.nodesLocal hnow hstage
      have hmiddle : middle.Formed := by
        refine ⟨hformed, ?_⟩
        rcases saved_of_runStage hstage with hsame | ⟨-, rfl⟩
        · rw [hsame]
          exact h.2
        · exact h.1
      have hrestAllowed : ∀ other ∈ rest, StageAllowed middle.live other := fun other hother =>
        stageAllowed_of_runStage hstage (hallowed other (List.mem_cons_of_mem _ hother))
      have hmiddleSound := hsound.runStage (hallowed stage List.mem_cons_self) hstage
      obtain ⟨hnext, hkeptNext⟩ := ih hmiddle hmiddleSound hrestAllowed
        (hlater middle (toOption_eq_some_iff.mpr hstage)) hrest
      exact ⟨hnext, hkept.trans hkeptNext⟩

/-- A command, as far as it got. -/
theorem formed_command {env : CommandEnv} (henv : ∀ n, (env.ids n).isValid = true)
    (h : world.Formed) (hsound : world.Sound hids)
    (hfresh : world.live.entryFields (env.ids 0) = none) {command : ChatCommand} (count : Nat)
    (hrun : world.runStages roomIds env.clockUs ((command.stages env world.live).take count) =
      .ok next) : next.Formed ∧ world.live.KeptIn next.live := by
  have hmeet := @stagesMeet_command roomIds env env.clockUs world henv h.1 hsound.1.nodesLocal hfresh
    command
  rw [← List.take_append_drop count (command.stages env world.live)] at hmeet
  have hfits := (EveryStep.front hmeet).mono fun _ _ hstage => hstage.1
  exact formed_runStages h hsound
    (fun stage hstage => stagesAllowed henv stage (List.mem_of_mem_take hstage)) hfits hrun

/-- Every action keeps the workspace well formed. -/
theorem formed_chatStep (h : world.Formed) (hsound : world.Sound hids) {action : ChatAction}
    (hallowed : ChatActionAllowed world action) (hfresh : DrawsFreshIds world action)
    (hstep : chatStep roomIds world action = some next) : next.Formed := by
  cases action with
  | run env command =>
      have hrun := toOption_eq_some_iff.mp hstep
      rw [← List.take_length (l := command.stages env world.live)] at hrun
      exact (formed_command hallowed h hsound hfresh _ hrun).1
  | interrupted env command stages =>
      obtain ⟨reached, hrun, rfl⟩ := Option.map_eq_some_iff.mp hstep
      have hreached := formed_command hallowed h hsound hfresh stages
        (toOption_eq_some_iff.mp hrun)
      exact ⟨hreached.1.2.reloaded, hreached.1.2⟩
  | crash =>
      cases hstep
      exact ⟨h.2.reloaded, h.2⟩
  | persist =>
      cases hstep
      exact ⟨h.1, h.1⟩
  | createRoom roomId baseId =>
      cases hstep
      exact ⟨h.1.setRoom _ _, h.2⟩
  | importRoom snapshot =>
      obtain ⟨room, -, rfl⟩ := Option.map_eq_some_iff.mp hstep
      exact ⟨h.1.setRoom _ _, h.2⟩
  | callRoom roomId call =>
      obtain ⟨room, -, hstep⟩ := Option.bind_eq_some_iff.mp hstep
      obtain ⟨after, -, rfl⟩ := Option.map_eq_some_iff.mp hstep
      exact ⟨h.1.setRoom _ _, h.2⟩
  | saveRoom roomId =>
      obtain ⟨room, -, rfl⟩ := Option.map_eq_some_iff.mp hstep
      exact ⟨h.1, h.2.setRoom _ _⟩

theorem formed_newChatWorld {workspaceId baseId : ObjId} :
    (newChatWorld workspaceId baseId).Formed := by
  have hstate : (newChatState workspaceId baseId).Formed := by
    refine ⟨?_, ?_, List.Pairwise.nil, Or.inl rfl, ?_⟩
    · intro entryId hmem
      cases hmem
    · intro entryId hmem
      cases hmem
    · intro entryId fields hfields
      unfold ChatState.entryFields newChatState at hfields
      rw [AList.lookup_empty] at hfields
      cases hfields
  exact ⟨hstate, hstate⟩

/-- The workspace is well formed after every run. -/
theorem formed_chatRun {workspaceId baseId : ObjId} (hvalid : baseId.isValid = true)
    {actions : List ChatAction}
    (hallowed : EveryStep (chatStep roomIds)
      (fun world action => ChatActionAllowed world action ∧ DrawsFreshIds world action)
      (newChatWorld workspaceId baseId) actions)
    (hrun : runActions (chatStep roomIds) (newChatWorld workspaceId baseId) actions =
      some world) : world.Sound hids ∧ world.Formed :=
  runActions_invariant (fun world => world.Sound hids ∧ world.Formed)
    (fun _ _ _ hstate haction hstep =>
      ⟨sound_chatStep hstate.1 haction.1 hstep,
        formed_chatStep hstate.2 hstate.1 haction.1 haction.2 hstep⟩)
    ⟨sound_newChatWorld hvalid, formed_newChatWorld⟩ hallowed hrun

end Runs

end AppTraverse
