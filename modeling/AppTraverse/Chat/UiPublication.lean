import Mathlib.Data.List.AList
import AppTraverse.Presentation.PublicationChannel
import AppTraverse.Journal.Node

/-!
# Publications from the chat worker to the user interface

The worker publishes the workspace when it is dirty and the slot is free, with metadata
beside the channel; `TryTakeUiUpdate` takes both.  Each holds `publication_mu_`, so a step
is a whole critical section, and inside it the accesses of `PublicationChannel` follow each
other without interruption.  A queued work item is a step of the worker too; all that
matters of it here is what it leaves in the workspace and in the publication fields.
-/

namespace AppTraverse

open Foundations

/-- `ChatPublicationKind`. -/
inductive ChatPublicationKind where
  | initial
  | structural
  deriving DecidableEq, Repr

/-- `PendingPublicationMetadata`. -/
structure PendingPublicationMetadata where
  kind : ChatPublicationKind
  serial : Nat
  editRevisionsByEntry : AList fun _ : ObjId => UInt64
  selectedChatAck : Option ObjId
  deriving DecidableEq

/-- A `ChatUiUpdate` with a publication. -/
structure ChatUiUpdate where
  publicationBytes : Bytes
  kind : ChatPublicationKind
  publicationSerial : Nat
  processedEditRevisionsByEntry : AList fun _ : ObjId => UInt64
  selectedChatAck : Option ObjId
  deriving DecidableEq

/-- The update of a publication with its metadata. -/
def ChatUiUpdate.ofPublication (bytes : Bytes) (metadata : PendingPublicationMetadata) :
    ChatUiUpdate where
  publicationBytes := bytes
  kind := metadata.kind
  publicationSerial := metadata.serial
  processedEditRevisionsByEntry := metadata.editRevisionsByEntry
  selectedChatAck := metadata.selectedChatAck

section Calls

variable {n : Nat}

namespace PublicationChannel

/-- `PublicationChannel::is_publication_busy`. -/
def isPublicationBusy (channel : PublicationChannel n) : Bool :=
  channel.published.isSome || channel.inUi.isSome

/-- The accesses of the producer for one publication. -/
def publishing (bytes : Bytes) : List ChannelAction :=
  [.hasUnreadPublished, .acquireLoadPublished, .acquireLoadInUi, .acquireClear, .write bytes,
    .publishProducer]

/-- `AcquireProducer`, the writes and `PublishProducer`, without interruption. -/
def publishBytes (channel : PublicationChannel n) (bytes : Bytes) :
    Except Fault (PublicationChannel n) :=
  match runActions step channel (publishing bytes) with
  | none => .error .assertFailed
  | some next => if next.assertionFailed then .error .assertFailed else .ok next

/-- `TakePublishedCopy` without interruption: the bytes, or none when `TakePublished`
returned a null pointer. -/
def takePublishedCopy (channel : PublicationChannel n) : Bytes × PublicationChannel n :=
  match runActions step channel
      [.takeLoadPublished, .takeMarkInUi, .takeClearPublished] with
  | none => ([], channel)
  | some taken =>
      match taken.consumer with
      | .holding index =>
          (taken.buffers index, (taken.step .releaseConsumer).getD taken)
      | _ => ([], taken)

/-- No access is under way. -/
structure Quiet (channel : PublicationChannel n) : Prop where
  producer : channel.producer = .idle
  consumer : channel.consumer = .idle
  inUi : channel.inUi = none
  noAssertion : channel.assertionFailed = false

end PublicationChannel

variable {channel : PublicationChannel 3}

theorem isPublicationBusy_quiet (h : channel.Quiet) :
    channel.isPublicationBusy = channel.published.isSome := by
  simp [PublicationChannel.isPublicationBusy, h.inUi]

/-- A publication into a free slot. -/
theorem publishBytes_quiet (h : channel.Quiet) (hfree : channel.published = none)
    (bytes : Bytes) : ∃ next index, channel.publishBytes bytes = .ok next ∧ next.Quiet ∧
      next.published = some index ∧ next.buffers index = bytes := by
  obtain ⟨published, inUi, buffers, producer, consumer, serials, publications, taken,
    assertionFailed⟩ := channel
  obtain ⟨rfl, rfl, rfl, rfl⟩ := h
  cases hfree
  refine ⟨_, 0, rfl, ⟨rfl, rfl, rfl, rfl⟩, rfl, ?_⟩
  simp

/-- The copy of the publication that waits. -/
theorem takePublishedCopy_quiet (h : channel.Quiet) {index : Fin 3}
    (hpublished : channel.published = some index) :
    (channel.takePublishedCopy).1 = channel.buffers index ∧
      (channel.takePublishedCopy).2.Quiet ∧
      (channel.takePublishedCopy).2.published = none := by
  obtain ⟨published, inUi, buffers, producer, consumer, serials, publications, taken,
    assertionFailed⟩ := channel
  obtain ⟨rfl, rfl, rfl, rfl⟩ := h
  cases hpublished
  have hrun : PublicationChannel.takePublishedCopy (n := 3)
      ⟨some index, none, buffers, .idle, .idle, serials, publications, taken, false⟩ =
      (buffers index, ⟨none, none, buffers, .idle, .idle, serials, publications,
        taken ++ [serials index], false⟩) := by
    simp [PublicationChannel.takePublishedCopy, runActions, PublicationChannel.step,
      PublicationChannel.consumerStep]
  rw [hrun]
  exact ⟨rfl, ⟨rfl, rfl, rfl, rfl⟩, rfl⟩

end Calls

section Session

variable {ω : Type}

/-- `SerializeInitialPublication` and `SerializeStructuralNodePublication` of a
workspace. -/
structure WorkspaceSerializer (ω : Type) where
  serializeInitialPublication : ω → Bytes
  serializeStructuralNodePublication : ω → Bytes

/-- What a queued work item does to the fields of the publication.  `publication_dirty` is
set or left, an edit revision and a selection are noted or not. -/
structure ModelWork (ω : Type) where
  run : ω → ω
  marksDirty : Bool
  editRevision : Option (ObjId × UInt64)
  selects : Option ObjId

/-- The publication fields of `ChatSession` and of its worker.  `stored`, `delivered` and
`selections` record what was published, what `TryTakeUiUpdate` returned, and every
selection that was to be acknowledged. -/
structure UiPublication (ω : Type) where
  workspace : Option ω
  publicationDirty : Bool := false
  processedEditRevisions : AList (fun _ : ObjId => UInt64) := ∅
  pendingSelectAck : Option ObjId := none
  channel : PublicationChannel 3 := {}
  pendingPublicationMetadata : Option PendingPublicationMetadata := none
  nextPublicationSerial : Nat := 1
  stored : List ChatUiUpdate := []
  delivered : List ChatUiUpdate := []
  selections : List ObjId := []

/-- The critical sections and the work items. -/
inductive PublicationStep (ω : Type) where
  | work (work : ModelWork ω)
  | publishNow (isInitial : Bool)
  | publishWhenDirty
  | tryTakeUiUpdate

namespace UiPublication

variable (serializer : WorkspaceSerializer ω) (session : UiPublication ω)

/-- A work item on the model thread. -/
def runWork (work : ModelWork ω) : UiPublication ω :=
  { session with
    workspace := session.workspace.map work.run
    publicationDirty := session.publicationDirty || work.marksDirty
    processedEditRevisions :=
      match work.editRevision with
      | none => session.processedEditRevisions
      | some (entryId, revision) => session.processedEditRevisions.insert entryId revision
    pendingSelectAck := work.selects <|> session.pendingSelectAck
    selections := session.selections ++ work.selects.toList }

/-- The metadata of the next publication. -/
def nextMetadata (isInitial : Bool) : PendingPublicationMetadata where
  kind := if isInitial then .initial else .structural
  serial := session.nextPublicationSerial
  editRevisionsByEntry := session.processedEditRevisions
  selectedChatAck := session.pendingSelectAck

/-- The bytes of a publication of the workspace. -/
def serialize (isInitial : Bool) (workspace : ω) : Bytes :=
  if isInitial then
    serializer.serializeInitialPublication workspace
  else
    serializer.serializeStructuralNodePublication workspace

/-- `publish_now_unlocked`. -/
def publishNowUnlocked (isInitial : Bool) (workspace : ω) : Except Fault (UiPublication ω) := do
  assertThat (!session.channel.isPublicationBusy)
  let bytes := serialize serializer isInitial workspace
  let channel ← session.channel.publishBytes bytes
  pure { session with
    channel := channel
    pendingPublicationMetadata := some (session.nextMetadata isInitial)
    nextPublicationSerial := session.nextPublicationSerial + 1
    pendingSelectAck := none
    stored := session.stored ++
      [ChatUiUpdate.ofPublication bytes (session.nextMetadata isInitial)] }

/-- `publish_now`. -/
def publishNow (isInitial : Bool) : Except Fault (UiPublication ω) :=
  match session.workspace with
  | none => .ok session
  | some workspace =>
      if session.channel.isPublicationBusy then
        .ok { session with publicationDirty := true }
      else do
        let published ← session.publishNowUnlocked serializer isInitial workspace
        pure { published with publicationDirty := false }

/-- The publication step of the main loop. -/
def publishWhenDirty : Except Fault (UiPublication ω) :=
  if session.publicationDirty then
    match session.workspace with
    | none => .ok session
    | some workspace =>
        if session.channel.isPublicationBusy then
          .ok session
        else do
          let published ← session.publishNowUnlocked serializer false workspace
          pure { published with publicationDirty := false }
  else
    .ok session

/-- The first critical section of `TryTakeUiUpdate`; an update with a publication is
always returned. -/
def tryTakeUiUpdate : Except Fault (UiPublication ω) :=
  if session.channel.published.isSome then
    match session.pendingPublicationMetadata with
    | none => .error .assertFailed
    | some metadata =>
        .ok { session with
          channel := session.channel.takePublishedCopy.2
          pendingPublicationMetadata := none
          delivered := session.delivered ++
            [ChatUiUpdate.ofPublication session.channel.takePublishedCopy.1 metadata] }
  else
    .ok session

/-- One step. -/
def step : PublicationStep ω → Except Fault (UiPublication ω)
  | .work work => .ok (session.runWork work)
  | .publishNow isInitial => session.publishNow serializer isInitial
  | .publishWhenDirty => session.publishWhenDirty serializer
  | .tryTakeUiUpdate => session.tryTakeUiUpdate

end UiPublication

/-- The acknowledgements that publications carried, oldest first, and the one that waits. -/
def UiPublication.acknowledged (session : UiPublication ω) : List ObjId :=
  session.stored.filterMap ChatUiUpdate.selectedChatAck ++ session.pendingSelectAck.toList

/-- The slot and the metadata beside it: both empty, or both of the last publication. -/
inductive UiPublication.Slot (session : UiPublication ω) : Prop where
  | free (published : session.channel.published = none)
      (metadata : session.pendingPublicationMetadata = none)
      (allTaken : session.stored = session.delivered)
  | waiting (index : Fin 3) (metadata : PendingPublicationMetadata)
      (published : session.channel.published = some index)
      (beside : session.pendingPublicationMetadata = some metadata)
      (last : session.stored = session.delivered ++
        [ChatUiUpdate.ofPublication (session.channel.buffers index) metadata])

/-- What holds between the critical sections. -/
structure UiPublication.Paired (session : UiPublication ω) : Prop where
  quiet : session.channel.Quiet
  slot : session.Slot
  serials : session.stored.map ChatUiUpdate.publicationSerial =
    List.range' 1 session.stored.length
  nextSerial : session.nextPublicationSerial = session.stored.length + 1
  inOrder : session.acknowledged.Sublist session.selections
  newest : session.acknowledged.getLast? = session.selections.getLast?

variable {serializer : WorkspaceSerializer ω} {session next : UiPublication ω}

/-- A publication step that stored something: the current workspace, with the metadata of
that moment. -/
structure Published (serializer : WorkspaceSerializer ω) (session next : UiPublication ω)
    (isInitial : Bool) (workspace : ω) : Prop where
  stored : next.stored = session.stored ++
    [ChatUiUpdate.ofPublication (UiPublication.serialize serializer isInitial workspace)
      (session.nextMetadata isInitial)]
  clean : next.publicationDirty = false
  paired : next.Paired

theorem paired_new (workspace : Option ω) :
    ({ workspace := workspace } : UiPublication ω).Paired where
  quiet := ⟨rfl, rfl, rfl, rfl⟩
  slot := .free rfl rfl rfl
  serials := rfl
  nextSerial := rfl
  inOrder := List.Sublist.refl _
  newest := rfl

/-- A free slot takes the publication of the workspace. -/
theorem UiPublication.Paired.publishNowUnlocked (h : session.Paired)
    (serializer : WorkspaceSerializer ω)
    (hfree : session.channel.isPublicationBusy = false) (isInitial : Bool) (workspace : ω) :
    ∃ published, session.publishNowUnlocked serializer isInitial workspace = .ok published ∧
      Published serializer session { published with publicationDirty := false } isInitial
        workspace := by
  rw [isPublicationBusy_quiet h.quiet] at hfree
  have hnone : session.channel.published = none := by simpa using hfree
  obtain ⟨channel, index, hchannel, hquiet, hpublished, hbytes⟩ := publishBytes_quiet h.quiet
    hnone (UiPublication.serialize serializer isInitial workspace)
  have htaken : session.stored = session.delivered := by
    cases h.slot with
    | free hpublished hmetadata htaken => exact htaken
    | waiting index metadata hwaits hbeside hlast =>
        rw [hwaits] at hnone
        cases hnone
  -- The pending acknowledgement moves into the publication.
  have hsame : (session.stored ++ [ChatUiUpdate.ofPublication
      (UiPublication.serialize serializer isInitial workspace)
      (session.nextMetadata isInitial)]).filterMap ChatUiUpdate.selectedChatAck ++ [] =
      session.acknowledged := by
    rw [List.filterMap_append, List.append_nil, UiPublication.acknowledged]
    cases hack : session.pendingSelectAck <;>
      simp [ChatUiUpdate.ofPublication, UiPublication.nextMetadata, hack]
  have hrun : session.publishNowUnlocked serializer isInitial workspace = .ok { session with
      channel := channel
      pendingPublicationMetadata := some (session.nextMetadata isInitial)
      nextPublicationSerial := session.nextPublicationSerial + 1
      pendingSelectAck := none
      stored := session.stored ++
        [ChatUiUpdate.ofPublication (UiPublication.serialize serializer isInitial workspace)
          (session.nextMetadata isInitial)] } := by
    simp only [UiPublication.publishNowUnlocked, isPublicationBusy_quiet h.quiet, hfree,
      hchannel, assertThat, Bool.not_false, if_true, bind, Except.bind, pure, Except.pure]
  refine ⟨_, hrun, rfl, rfl, ?_⟩
  · refine ⟨hquiet, .waiting index (session.nextMetadata isInitial) hpublished rfl ?_, ?_, ?_,
      ?_, ?_⟩
    · rw [hbytes, ← htaken]
    · show (session.stored ++ [_]).map ChatUiUpdate.publicationSerial =
        List.range' 1 (session.stored ++ [_]).length
      rw [List.map_append, h.serials, List.length_append, List.length_singleton,
        List.range'_concat]
      simp [ChatUiUpdate.ofPublication, UiPublication.nextMetadata, h.nextSerial, Nat.add_comm]
    · show session.nextPublicationSerial + 1 = (session.stored ++ [_]).length + 1
      rw [h.nextSerial, List.length_append]
      rfl
    · have hinOrder := h.inOrder
      rw [← hsame] at hinOrder
      exact hinOrder
    · have hnewest := h.newest
      rw [← hsame] at hnewest
      exact hnewest

/-- A work item may replace the pending acknowledgement by a newer one; nothing else drops
it. -/
theorem UiPublication.Paired.runWork (h : session.Paired) (work : ModelWork ω) :
    (session.runWork work).Paired where
  quiet := h.quiet
  slot := by
    cases h.slot with
    | free published metadata allTaken => exact .free published metadata allTaken
    | waiting index metadata published beside last =>
        exact .waiting index metadata published beside last
  serials := h.serials
  nextSerial := h.nextSerial
  inOrder := by
    cases hselects : work.selects with
    | none =>
        show (session.stored.filterMap _ ++ (work.selects <|> session.pendingSelectAck).toList).Sublist
          (session.selections ++ work.selects.toList)
        rw [hselects, Option.toList_none, List.append_nil]
        exact h.inOrder
    | some entry =>
        show (session.stored.filterMap _ ++ (work.selects <|> session.pendingSelectAck).toList).Sublist
          (session.selections ++ work.selects.toList)
        rw [hselects]
        have hcarried : (session.stored.filterMap ChatUiUpdate.selectedChatAck).Sublist
            session.selections := (List.sublist_append_left _ _).trans h.inOrder
        exact hcarried.append (List.Sublist.refl _)
  newest := by
    cases hselects : work.selects with
    | none =>
        show (session.stored.filterMap _ ++ (work.selects <|> session.pendingSelectAck).toList).getLast? =
          (session.selections ++ work.selects.toList).getLast?
        rw [hselects, Option.toList_none, List.append_nil]
        exact h.newest
    | some entry =>
        show (session.stored.filterMap _ ++ (work.selects <|> session.pendingSelectAck).toList).getLast? =
          (session.selections ++ work.selects.toList).getLast?
        rw [hselects]
        simp

/-- Only the dirty flag changed. -/
theorem UiPublication.Paired.setDirty (h : session.Paired) (dirty : Bool) :
    ({ session with publicationDirty := dirty } : UiPublication ω).Paired where
  quiet := h.quiet
  slot := by
    cases h.slot with
    | free published metadata allTaken => exact .free published metadata allTaken
    | waiting index metadata published beside last =>
        exact .waiting index metadata published beside last
  serials := h.serials
  nextSerial := h.nextSerial
  inOrder := h.inOrder
  newest := h.newest

/-- The consumer takes the publication that waits, or finds none. -/
theorem UiPublication.Paired.tryTakeUiUpdate (h : session.Paired) :
    ∃ next, session.tryTakeUiUpdate = .ok next ∧ next.Paired ∧
      next.stored = session.stored ∧ next.publicationDirty = session.publicationDirty ∧
      next.channel.published = none := by
  cases h.slot with
  | free published metadata allTaken =>
      refine ⟨session, ?_, h, rfl, rfl, published⟩
      simp [UiPublication.tryTakeUiUpdate, published]
  | waiting index metadata published beside last =>
      obtain ⟨hbytes, hquiet, hnone⟩ := takePublishedCopy_quiet h.quiet published
      have hrun : session.tryTakeUiUpdate = .ok { session with
          channel := session.channel.takePublishedCopy.2
          pendingPublicationMetadata := none
          delivered := session.delivered ++ [ChatUiUpdate.ofPublication
            session.channel.takePublishedCopy.1 metadata] } := by
        simp [UiPublication.tryTakeUiUpdate, published, beside]
      refine ⟨_, hrun, ?_, rfl, rfl, hnone⟩
      refine ⟨hquiet, .free hnone rfl ?_, h.serials, h.nextSerial, h.inOrder, h.newest⟩
      rw [last, hbytes]

/-- What a step does to what is stored and to the dirty flag. -/
inductive StepOutcome (serializer : WorkspaceSerializer ω) (session next : UiPublication ω)
    (action : PublicationStep ω) : Prop where
  | stored (isInitial : Bool) (workspace : ω)
      (current : session.workspace = some workspace)
      (published : Published serializer session next isInitial workspace)
  | kept (same : next.stored = session.stored)
      (dirty : session.publicationDirty = true → next.publicationDirty = true)
      (waits : ∀ workspace, action = .publishWhenDirty → session.publicationDirty = true →
        session.workspace = some workspace → session.channel.published ≠ none)

/-- Every step returns; it stores a publication of the current workspace and clears the
dirty flag, or does neither, and the latter never at the publication step of a dirty worker
with a free slot. -/
theorem UiPublication.Paired.step (h : session.Paired) (serializer : WorkspaceSerializer ω)
    (action : PublicationStep ω) :
    ∃ next, session.step serializer action = .ok next ∧ next.Paired ∧
      StepOutcome serializer session next action := by
  cases action with
  | work work =>
      refine ⟨_, rfl, h.runWork work, .kept rfl ?_ (fun _ hother => by cases hother)⟩
      intro hdirty
      show (session.publicationDirty || work.marksDirty) = true
      rw [hdirty]
      rfl
  | publishNow isInitial =>
      show ∃ next, session.publishNow serializer isInitial = .ok next ∧ _
      unfold UiPublication.publishNow
      cases hworkspace : session.workspace with
      | none => exact ⟨_, rfl, h, .kept rfl id (fun _ hother => by cases hother)⟩
      | some workspace =>
          cases hbusy : session.channel.isPublicationBusy with
          | true =>
              exact ⟨{ session with publicationDirty := true }, by simp [hworkspace],
                h.setDirty true, .kept rfl (fun _ => rfl) (fun _ hother => by cases hother)⟩
          | false =>
              obtain ⟨published, hrun, hpublished⟩ :=
                h.publishNowUnlocked serializer hbusy isInitial workspace
              refine ⟨_, ?_, hpublished.paired, .stored isInitial workspace hworkspace hpublished⟩
              simp [hrun, bind, Except.bind, pure, Except.pure]
  | publishWhenDirty =>
      show ∃ next, session.publishWhenDirty serializer = .ok next ∧ _
      unfold UiPublication.publishWhenDirty
      cases hdirty : session.publicationDirty with
      | false =>
          exact ⟨_, rfl, h, .kept rfl id (fun _ _ htrue => by rw [hdirty] at htrue; cases htrue)⟩
      | true =>
          cases hworkspace : session.workspace with
          | none =>
              refine ⟨_, rfl, h, .kept rfl id ?_⟩
              intro workspace _ _ hsome
              rw [hworkspace] at hsome
              cases hsome
          | some workspace =>
              cases hbusy : session.channel.isPublicationBusy with
              | true =>
                  refine ⟨_, by simp, h, .kept rfl id ?_⟩
                  intro _ _ _ _ hfree
                  rw [isPublicationBusy_quiet h.quiet, hfree] at hbusy
                  cases hbusy
              | false =>
                  obtain ⟨published, hrun, hpublished⟩ :=
                    h.publishNowUnlocked serializer hbusy false workspace
                  refine ⟨_, ?_, hpublished.paired,
                    .stored false workspace hworkspace hpublished⟩
                  simp [hrun, bind, Except.bind, pure, Except.pure]
  | tryTakeUiUpdate =>
      obtain ⟨next, hrun, hpaired, hstored, hdirty, -⟩ := h.tryTakeUiUpdate
      exact ⟨next, hrun, hpaired, .kept hstored (fun hset => hdirty.trans hset)
        (fun _ hother => by cases hother)⟩

/-- A run of critical sections and work items. -/
def UiPublication.tryStep (serializer : WorkspaceSerializer ω) (session : UiPublication ω)
    (action : PublicationStep ω) : Option (UiPublication ω) :=
  (session.step serializer action).toOption

/-- Workspaces that are numbers. -/
def numberSerializer : WorkspaceSerializer Nat where
  serializeInitialPublication count := [0, count.toUInt8]
  serializeStructuralNodePublication count := [1, count.toUInt8]

/-- A selection while the first publication waits, another one before it is taken. -/
def selectionsWhileBusy : List (PublicationStep Nat) :=
  [.publishNow true, .work ⟨(· + 1), true, none, some ⟨5⟩⟩, .publishWhenDirty,
    .work ⟨(· + 1), true, some (⟨7⟩, 3), some ⟨6⟩⟩, .tryTakeUiUpdate, .publishWhenDirty,
    .tryTakeUiUpdate]

end Session

end AppTraverse
