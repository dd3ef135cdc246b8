import AppTraverse.Reference.ChatReplicas
import AppTraverse.Runtime.NodeRuns
import AppTraverse.Sharing.ShareTopology

/-!
# Share topology along runs

A SharedNode from its creation on: relationships are opened, closed and changed, shared
application Events arrive at any timestamp, the journal is rebuilt and compacted, and
synchronization makes progress on the local sync states.  The run keeps a history, which
no step reads: the identities that were ever open, and those drawn for topology Events.

The invariant ties the fields to the journal.  The base snapshot replays over the journal
to the current shared state, and whatever the journal closes is closed, so that a replay
closes nothing that is stashed.
-/

namespace AppTraverse

open Foundations

variable {α ε : Type}

/-- A SharedNode and what happened to its topology. -/
structure TopologyHistory (α ε : Type) where
  node : SharedNode α ε
  opened : List ObjId := []
  drawn : List ObjId := []

/-- The identity that an action draws for its topology Event. -/
def NodeAction.topologyEventId : NodeAction ε → Option ObjId
  | .operate _ _ (.addShare _ _ eventId) => some eventId
  | .operate _ _ (.removeShare _ eventId) => some eventId
  | .operate _ _ (.setShareAccess _ _ eventId) => some eventId
  | _ => none

/-- The relationships that a step opened. -/
def newlyOpened (node next : SharedNode α ε) : List ObjId :=
  (next.fields.shares.map Share.shareId).filter fun id =>
    decide (id ∉ node.fields.shares.map Share.shareId)

/-- A step, with its history. -/
def topologyStep (app : AppClass α ε) (history : TopologyHistory α ε)
    (action : NodeAction ε) : Option (TopologyHistory α ε) :=
  (nodeStep app history.node action).map fun next =>
    { node := next
      opened := history.opened ++ newlyOpened history.node next
      drawn := history.drawn ++ action.topologyEventId.toList }

/-- Topology changes by its own commands only: a commit holds an application Event. -/
def NodeOperation.KeepsTopologyCommands : NodeOperation ε → Prop
  | .commit event => ∃ value, event.obj = some (.app value)
  | .commitShared event _ _ => ∃ value, event.obj = some (.app value)
  | _ => True

/-- What a step of a topology run may be: topology changes by its own commands only, and
ids of new objects are valid and have not been used. -/
structure TopologyAllowed (history : TopologyHistory α ε) (action : NodeAction ε) : Prop where
  commands : ∀ ids nowUs operation, action = .operate ids nowUs operation →
    operation.KeepsTopologyCommands
  ids : ∀ ids nowUs operation, action = .operate ids nowUs operation →
    ∀ n, (ids n).isValid = true
  fresh : ∀ id ∈ action.topologyEventId, id.isValid = true ∧ id ∉ history.drawn

/-- A SharedNode as it is created. -/
def IsNewNode (app : AppClass α ε) (node : SharedNode α ε) : Prop :=
  ∃ ids objId classId baseId, ∃ fields : SharedNodeFields α,
    baseId.isValid = true ∧ baseId ≠ objId ∧ fields.shares = [] ∧
      fields.linkSyncStates = [] ∧
      node = initializeRuntimeNode (app.nodeClass ids) objId classId baseId fields

/-- A Link has at most one open Share, no identity is used by two relationships, open or
closed, and local sync states correspond one-to-one to open Shares. -/
structure TopologyIsSound (history : TopologyHistory α ε) : Prop where
  links : (history.node.fields.shares.map fun share => share.link.id).Nodup
  ids : (history.node.fields.shares.map Share.shareId).Nodup
  recorded : ∀ share ∈ history.node.fields.shares, share.shareId ∈ history.opened
  neverReused : history.opened.Nodup
  states : (history.node.fields.linkSyncStates.map syncKey).Perm
    ((history.node.fields.shares.map Share.shareId).map some)
  statesUsable : StatesUsable history.node.fields.linkSyncStates

/-- The Shares and the local sync states are what they were. -/
structure TopologyKept (node next : SharedNode α ε) : Prop where
  shares : next.fields.shares = node.fields.shares
  states : next.fields.linkSyncStates = node.fields.linkSyncStates

/-- What a step does to the topology. -/
def TopologyMoves (history : TopologyHistory α ε) (next : SharedNode α ε) :
    NodeAction ε → Prop
  | .operate _ _ (.addShare link access eventId) =>
      if link.id ∈ history.node.fields.shares.map fun share => share.link.id then
        next = history.node
      else
        eventId ∉ history.opened ∧
          next.fields.shares = history.node.fields.shares ++ [⟨eventId, link, access⟩] ∧
          ∃ stateId, next.fields.linkSyncStates =
            history.node.fields.linkSyncStates ++ [⟨stateId, some (.fresh eventId link.id)⟩]
  | .operate _ _ (.removeShare linkId _) =>
      next.fields.shares =
          history.node.fields.shares.filter (fun share => decide (share.link.id ≠ linkId)) ∧
        next.fields.linkSyncStates =
          history.node.fields.linkSyncStates.filter fun entry =>
            decide (syncKey entry ∈ (next.fields.shares.map Share.shareId).map some)
  | .operate _ _ (.setShareAccess _ _ _) =>
      next.fields.shares.map (fun share => (share.shareId, share.link)) =
          history.node.fields.shares.map (fun share => (share.shareId, share.link)) ∧
        next.fields.linkSyncStates = history.node.fields.linkSyncStates
  | .progress index _ _ =>
      next.fields.shares = history.node.fields.shares ∧
        next.fields.linkSyncStates.map Ref.id =
          history.node.fields.linkSyncStates.map Ref.id ∧
        ∀ other, other ≠ index →
          next.fields.linkSyncStates[other]? = history.node.fields.linkSyncStates[other]?
  | _ => TopologyKept history.node next

/-- The action rebuilds the Node or compacts its journal. -/
def NodeAction.isRebuild : NodeAction ε → Bool
  | .operate _ _ .replayFromBase => true
  | .operate _ _ .compactJournal => true
  | _ => false

/-- How the fields of a SharedNode follow from its base and its journal, and what its
history says about the relationships in it. -/
structure TopologyInvariant (app : AppClass α ε) (history : TopologyHistory α ε) : Prop where
  base : ∃ snapshot, history.node.base.obj = some snapshot ∧
    sharedReplay app snapshot.toSharedState history.node.journal =
      some history.node.fields.shared
  baseValid : history.node.base.isValid = true
  baseOther : history.node.base.id ≠ history.node.objId
  materialized : history.node.IsMaterialized
  sorted : JournalSorted history.node.journal
  unique : SharesUnique history.node.fields.shares
  states : StatesMatch history.node.fields.shares history.node.fields.linkSyncStates
  closed : ∀ record ∈ history.node.journal, ∀ id, isRemoveOf id record = true →
    id ∈ history.opened ∧ shareCount history.node.fields.shares id = 0
  recorded : ∀ share ∈ history.node.fields.shares, share.shareId ∈ history.opened
  opened : history.opened.Nodup
  drawn : ∀ id ∈ history.opened, id ∈ history.drawn

variable {app : AppClass α ε}

theorem topologyInvariant_new {node : SharedNode α ε} (h : IsNewNode app node) :
    TopologyInvariant app ⟨node, [], []⟩ := by
  obtain ⟨ids, objId, classId, baseId, fields, hvalid, hother, hshares, hstates, rfl⟩ := h
  have hnone : ∀ share, share ∉ fields.shares := by simp [hshares]
  constructor
  case base => exact ⟨_, rfl, rfl⟩
  case baseValid => exact hvalid
  case baseOther => exact hother
  case materialized => rfl
  case sorted => exact List.Pairwise.nil
  case unique =>
    show SharesUnique fields.shares
    rw [hshares]
    exact ⟨by simp, by simp, by simp⟩
  case states =>
    show StatesMatch fields.shares fields.linkSyncStates
    rw [hshares, hstates]
    exact ⟨by simp [StatesUsable], by simp [syncCount, shareCount]⟩
  case closed =>
    intro record hrecord
    cases hrecord
  case recorded => exact fun share hshare => absurd hshare (hnone share)
  case opened => exact List.nodup_nil
  case drawn =>
    intro id hid
    cases hid

namespace TopologyInvariant

variable {history : TopologyHistory α ε} {next : SharedNode α ε}

theorem sound (h : TopologyInvariant app history) : TopologyIsSound history where
  links := h.unique.links
  ids := h.unique.ids
  recorded := h.recorded
  neverReused := h.opened
  states := h.states.perm
  statesUsable := h.states.usable

/-- Nothing that the journal closes has a local sync state. -/
theorem spares (h : TopologyInvariant app history) :
    ∀ record ∈ history.node.journal,
      SparesStash history.node.fields.linkSyncStates record := by
  intro record hrecord id hremove
  rw [h.states.count]
  exact (h.closed record hrecord id hremove).2

/-- Replaying records over the base that leave the current Shares open leaves the local
sync states as they are. -/
theorem replay (h : TopologyInvariant app history) {ids : Nat → ObjId}
    (hids : ∀ n, (ids n).isValid = true) {snapshot : BaseSnapshot α}
    {records : List (EventRecord (SharedNodeEvent ε))} {final : SharedState α}
    (hspares : ∀ record ∈ records, SparesStash history.node.fields.linkSyncStates record)
    (hreplay : sharedReplay app snapshot.toSharedState records = some final)
    (hshares : final.shares = history.node.fields.shares) :
    ∃ applied, applyRecords (app.nodeClass ids)
        ((app.nodeClass ids).loadBase history.node.fields snapshot) records = .ok applied ∧
      applied.complete = true ∧ applied.fields.shared = final ∧
      applied.fields.linkSyncStates = history.node.fields.linkSyncStates := by
  obtain ⟨hshared, hstates⟩ := loadBase_eq app ids h.states.usable snapshot
  obtain ⟨applied, own, hrun, hcomplete, -, hfinal, hover⟩ :=
    applyRecords_of_sharedReplay hids h.states.usable hspares (statesOverStash_start hstates)
      (hshared ▸ hreplay)
  refine ⟨applied, hrun, hcomplete, hfinal, states_eq_of_statesOverStash h.states hover ?_⟩
  rw [← hshares, ← hfinal]
  rfl

/-- A step that keeps the identity and the base, opens only what was drawn for it, and
leaves closed what was closed, keeps the invariant. -/
theorem of_step (h : TopologyInvariant app history) {drawn : List ObjId}
    (hobjId : next.objId = history.node.objId) (hbaseId : next.base.id = history.node.base.id)
    (hbase : ∃ snapshot, next.base.obj = some snapshot ∧
      sharedReplay app snapshot.toSharedState next.journal = some next.fields.shared)
    (hfull : next.IsMaterialized) (hsorted : JournalSorted next.journal)
    (hunique : SharesUnique next.fields.shares)
    (hstates : StatesMatch next.fields.shares next.fields.linkSyncStates)
    (hjournal : ∀ record ∈ next.journal, ∀ id, isRemoveOf id record = true →
      (∃ other ∈ history.node.journal, isRemoveOf id other = true) ∨
        id ∈ history.opened ∧ shareCount next.fields.shares id = 0)
    (hclosed : ∀ id ∈ history.opened, shareCount history.node.fields.shares id = 0 →
      shareCount next.fields.shares id = 0)
    (hdrawn : ∀ id ∈ newlyOpened history.node next, id ∈ drawn) :
    TopologyInvariant app
      ⟨next, history.opened ++ newlyOpened history.node next, history.drawn ++ drawn⟩ := by
  constructor
  case base => exact hbase
  case baseValid =>
    show next.base.id.isValid = true
    rw [hbaseId]
    exact h.baseValid
  case baseOther =>
    show next.base.id ≠ next.objId
    rw [hbaseId, hobjId]
    exact h.baseOther
  case materialized => exact hfull
  case sorted => exact hsorted
  case unique => exact hunique
  case states => exact hstates
  case closed =>
    intro record hrecord id hremove
    rcases hjournal record hrecord id hremove with ⟨other, hother, hold⟩ | ⟨hopened, hshut⟩
    · obtain ⟨hopened, hshut⟩ := h.closed other hother id hold
      exact ⟨List.mem_append_left _ hopened, hclosed id hopened hshut⟩
    · exact ⟨List.mem_append_left _ hopened, hshut⟩
  case recorded =>
    intro share hshare
    by_cases hold : share.shareId ∈ history.node.fields.shares.map Share.shareId
    · obtain ⟨other, hother, hid⟩ := List.mem_map.mp hold
      exact List.mem_append_left _ (hid ▸ h.recorded other hother)
    · refine List.mem_append_right _ (List.mem_filter.mpr ⟨List.mem_map_of_mem hshare, ?_⟩)
      simpa using hold
  case opened =>
    refine List.nodup_append.mpr ⟨h.opened, hunique.ids.sublist List.filter_sublist, ?_⟩
    -- What is opened now was not open, and had it been opened before it would be closed.
    rintro id hid other hother rfl
    obtain ⟨hnow, hnot⟩ := List.mem_filter.mp hother
    have hshut : shareCount history.node.fields.shares id = 0 := by
      by_contra hpos
      have hopen := shareCount_pos_iff.mp (Nat.pos_of_ne_zero hpos)
      simp [hopen] at hnot
    have hopen := shareCount_pos_iff.mpr hnow
    rw [hclosed id hid hshut] at hopen
    exact Nat.lt_irrefl 0 hopen
  case drawn =>
    intro id hid
    rcases List.mem_append.mp hid with hold | hnew
    · exact List.mem_append_left _ (h.drawn id hold)
    · exact List.mem_append_right _ (hdrawn id hnew)

/-- A step that keeps the topology and whose journal closes nothing new keeps the
invariant. -/
theorem of_topologyKept (h : TopologyInvariant app history)
    (hsame : TopologyKept history.node next) (hobjId : next.objId = history.node.objId)
    (hbaseId : next.base.id = history.node.base.id)
    (hbase : ∃ snapshot, next.base.obj = some snapshot ∧
      sharedReplay app snapshot.toSharedState next.journal = some next.fields.shared)
    (hfull : next.IsMaterialized) (hsorted : JournalSorted next.journal)
    (hjournal : ∀ record ∈ next.journal, ∀ id, isRemoveOf id record = true →
      ∃ other ∈ history.node.journal, isRemoveOf id other = true) (drawn : List ObjId) :
    TopologyInvariant app
      ⟨next, history.opened ++ newlyOpened history.node next, history.drawn ++ drawn⟩ := by
  refine h.of_step hobjId hbaseId hbase hfull hsorted ?_ ?_
    (fun record hrecord id hremove => Or.inl (hjournal record hrecord id hremove)) ?_ ?_
  · rw [hsame.shares]
    exact h.unique
  · rw [hsame.shares, hsame.states]
    exact h.states
  · intro id _ hshut
    rw [hsame.shares]
    exact hshut
  · intro id hid
    rw [newlyOpened, hsame.shares, List.mem_filter] at hid
    simp [hid.1] at hid

end TopologyInvariant

/-- What a commit at the end of the journal did. -/
structure CommittedAtEnd (app : AppClass α ε) (ids : Nat → ObjId) (node next : SharedNode α ε)
    (record : EventRecord (SharedNodeEvent ε)) (eventId : ObjId) (event : SharedNodeEvent ε) :
    Prop where
  objId : next.objId = node.objId
  base : next.base = node.base
  journal : next.journal = node.journal ++ [record]
  recordEvent : record.event = ⟨eventId, some event⟩
  eventValid : eventId.isValid = true
  materialized : next.IsMaterialized
  sorted : JournalSorted next.journal
  admits : app.canApplyTo node.fields event = true
  applied : app.applyTo ids node.fields eventId event = .ok next.fields

section Commits

variable {ids : Nat → ObjId} {nowUs : UInt64} {history : TopologyHistory α ε}
  {next : SharedNode α ε}

theorem committedAtEnd_of_commit (h : TopologyInvariant app history) {eventId : ObjId}
    {event : SharedNodeEvent ε}
    (hcommit : commit (app.nodeClass ids) history.node ⟨eventId, some event⟩ nowUs = .ok next) :
    ∃ record, CommittedAtEnd app ids history.node next record eventId event := by
  obtain ⟨-, hinserted⟩ := recordInserted_of_commit hcommit
  obtain ⟨hjournal, hcan, happlied⟩ :=
    applied_of_localRecord hinserted rfl h.sorted h.materialized
  exact ⟨_, hinserted.objId, hinserted.base, hjournal, stamped_event _ _,
    hinserted.eventValid, hinserted.materialized h.materialized, hinserted.sorted h.sorted, hcan,
    happlied⟩

/-- The base replays over the longer journal to the new shared state. -/
theorem CommittedAtEnd.replay {record : EventRecord (SharedNodeEvent ε)} {eventId : ObjId}
    {event : SharedNodeEvent ε}
    (hcommitted : CommittedAtEnd app ids history.node next record eventId event)
    (h : TopologyInvariant app history) :
    ∃ snapshot, next.base.obj = some snapshot ∧
      sharedReplay app snapshot.toSharedState next.journal = some next.fields.shared := by
  obtain ⟨snapshot, hbase, hreplay⟩ := h.base
  refine ⟨snapshot, by rw [hcommitted.base, hbase], ?_⟩
  obtain ⟨hadmits, hafter⟩ := sharedStep_of_applyTo hcommitted.admits hcommitted.applied
  rw [hcommitted.journal, sharedReplay_append, hreplay, Option.bind_some,
    sharedReplay_cons_iff]
  refine ⟨?_, event, ?_, ?_, ?_⟩
  · rw [hcommitted.recordEvent]
    exact hcommitted.eventValid
  · rw [hcommitted.recordEvent]
  · rw [hcommitted.recordEvent]
    exact hadmits
  · rw [hcommitted.recordEvent, ← hafter]
    rfl

/-- A topology Event at the end of the journal keeps the invariant when what it leaves is
well formed. -/
theorem CommittedAtEnd.invariant {record : EventRecord (SharedNodeEvent ε)} {eventId : ObjId}
    {event : SharedNodeEvent ε}
    (hcommitted : CommittedAtEnd app ids history.node next record eventId event)
    (h : TopologyInvariant app history) (hunique : SharesUnique next.fields.shares)
    (hstates : StatesMatch next.fields.shares next.fields.linkSyncStates)
    (hremoves : ∀ id, isRemoveOf id record = true →
      id ∈ history.opened ∧ shareCount next.fields.shares id = 0)
    (hclosed : ∀ id ∈ history.opened, shareCount history.node.fields.shares id = 0 →
      shareCount next.fields.shares id = 0)
    (hdrawn : ∀ id ∈ newlyOpened history.node next, id = eventId) :
    TopologyInvariant app
      ⟨next, history.opened ++ newlyOpened history.node next, history.drawn ++ [eventId]⟩ := by
  refine h.of_step hcommitted.objId (by rw [hcommitted.base]) (hcommitted.replay h)
    hcommitted.materialized hcommitted.sorted hunique hstates ?_ hclosed ?_
  · intro other hother id hremove
    rw [hcommitted.journal] at hother
    rcases List.mem_append.mp hother with hold | hnew
    · exact Or.inl ⟨other, hold, hremove⟩
    · rw [List.mem_singleton.mp hnew] at hremove
      exact Or.inr (hremoves id hremove)
  · intro id hid
    rw [hdrawn id hid]
    exact List.mem_cons_self

end Commits

section Operations

variable {ids : Nat → ObjId} {nowUs : UInt64} {history : TopologyHistory α ε}
  {next : SharedNode α ε}

/-- What a step has to keep, and what it has to do. -/
def StepIsSound (app : AppClass α ε) (history : TopologyHistory α ε) (next : SharedNode α ε)
    (action : NodeAction ε) : Prop :=
  TopologyMoves history next action ∧
    TopologyInvariant app
      ⟨next, history.opened ++ newlyOpened history.node next,
        history.drawn ++ action.topologyEventId.toList⟩

/-- A step that leaves the Node alone keeps the invariant. -/
theorem TopologyInvariant.of_same (h : TopologyInvariant app history) (drawn : List ObjId) :
    TopologyInvariant app
      ⟨history.node, history.opened ++ newlyOpened history.node history.node,
        history.drawn ++ drawn⟩ :=
  h.of_topologyKept ⟨rfl, rfl⟩ rfl rfl h.base h.materialized h.sorted
    (fun record hrecord _ hremove => ⟨record, hrecord, hremove⟩) drawn

theorem stepIsSound_addShare (h : TopologyInvariant app history) (hids : ∀ n, (ids n).isValid = true)
    {link : Ref Link} {access : UInt8} {eventId : ObjId} (hfresh : eventId ∉ history.drawn)
    (hrun : addShare app ids history.node link access eventId nowUs = .ok next) :
    StepIsSound app history next (.operate ids nowUs (.addShare link access eventId)) := by
  simp only [StepIsSound, TopologyMoves]
  unfold addShare at hrun
  obtain ⟨-, -, hrun⟩ := except_bind_eq_ok_iff.mp hrun
  split at hrun
  case isTrue hshared =>
    cases hrun
    rw [if_pos ((findShareIndex_lt_iff h.unique).mp hshared)]
    exact ⟨rfl, h.of_same _⟩
  case isFalse hunshared =>
    obtain ⟨record, hcommitted⟩ := committedAtEnd_of_commit h hrun
    obtain ⟨hshares, hstates, hunique, hmatch⟩ :=
      applyAddShare_topology h.unique h.states hids hcommitted.applied
    have hnew : eventId ∉ history.opened := fun hopened => hfresh (h.drawn eventId hopened)
    rw [if_neg fun hmem => hunshared ((findShareIndex_lt_iff h.unique).mpr hmem)]
    refine ⟨⟨hnew, hshares, hstates⟩, hcommitted.invariant h hunique hmatch ?_ ?_ ?_⟩
    · intro id hremove
      simp [isRemoveOf, hcommitted.recordEvent] at hremove
    · intro id hopened hshut
      have hne : eventId ≠ id := by
        rintro rfl
        exact hnew hopened
      rw [hshares, shareCount_append, hshut, shareCount_cons, if_neg hne]
      rfl
    · intro id hid
      rw [newlyOpened, List.mem_filter, hshares, List.map_append, List.mem_append] at hid
      rcases hid with ⟨hold | hlast, hnot⟩
      · simp [hold] at hnot
      · simpa using hlast

theorem stepIsSound_removeShare (h : TopologyInvariant app history) {linkId eventId : ObjId}
    (hrun : removeShare app ids history.node linkId eventId nowUs = .ok next) :
    StepIsSound app history next (.operate ids nowUs (.removeShare linkId eventId)) := by
  simp only [StepIsSound, TopologyMoves]
  unfold removeShare at hrun
  obtain ⟨-, -, hcommit⟩ := except_bind_eq_ok_iff.mp hrun
  split at hcommit
  case h_1 hnone =>
    cases hcommit
    have hunshared : linkId ∉ history.node.fields.shares.map fun share => share.link.id := by
      intro hmem
      have hlt := (findShareIndex_lt_iff h.unique).mpr hmem
      exact absurd (List.getElem?_eq_none_iff.mp hnone) (by omega)
    refine ⟨⟨?_, h.states.filter_open.symm⟩, h.of_same _⟩
    rw [eq_comm, List.filter_eq_self]
    intro share hshare
    have hne : share.link.id ≠ linkId := by
      rintro rfl
      exact hunshared (List.mem_map_of_mem hshare)
    simpa using hne
  case h_2 share hshare =>
    obtain ⟨hmem, rfl⟩ := getElem?_findShareIndex hshare
    obtain ⟨record, hcommitted⟩ := committedAtEnd_of_commit h hcommit
    obtain ⟨hshares, hstates, hunique, hmatch, hshut⟩ :=
      applyRemoveShare_topology h.unique h.states hmem hcommitted.applied
    refine ⟨⟨hshares, hstates⟩, hcommitted.invariant h hunique hmatch ?_ ?_ ?_⟩
    · intro id hremove
      have hid : share.shareId = id := by
        simpa [isRemoveOf, hcommitted.recordEvent] using hremove
      subst hid
      exact ⟨h.recorded share hmem, hshut⟩
    · intro id _ hclosed
      rw [hshares, shareCount, List.countP_filter, List.countP_eq_zero]
      intro other hother
      have hnot := (List.countP_eq_zero.mp hclosed) other hother
      simp only [Bool.and_eq_true, not_and]
      exact fun hid => absurd hid hnot
    · intro id hid
      rw [newlyOpened, List.mem_filter, hshares] at hid
      obtain ⟨hnow, hnot⟩ := hid
      have hold : id ∈ history.node.fields.shares.map Share.shareId :=
        (List.filter_sublist.map Share.shareId).subset hnow
      simp [hold] at hnot

theorem stepIsSound_setShareAccess (h : TopologyInvariant app history)
    {linkId eventId : ObjId} {access : UInt8}
    (hrun : setShareAccess app ids history.node linkId access eventId nowUs = .ok next) :
    StepIsSound app history next (.operate ids nowUs (.setShareAccess linkId access eventId)) := by
  simp only [StepIsSound, TopologyMoves]
  unfold setShareAccess at hrun
  obtain ⟨-, -, hrun⟩ := except_bind_eq_ok_iff.mp hrun
  split at hrun
  case h_1 => cases hrun
  case h_2 share hshare =>
    split at hrun
    case isTrue =>
      cases hrun
      exact ⟨⟨rfl, rfl⟩, h.of_same _⟩
    case isFalse =>
      obtain ⟨record, hcommitted⟩ := committedAtEnd_of_commit h hrun
      obtain ⟨hshares, hstates, hunique, hmatch⟩ :=
        applyChangeShareAccess_topology h.unique h.states hcommitted.applied
      have hids : next.fields.shares.map Share.shareId =
          history.node.fields.shares.map Share.shareId := by
        have hfirst := congrArg (List.map Prod.fst) hshares
        rwa [List.map_map, List.map_map] at hfirst
      refine ⟨⟨hshares, hstates⟩, hcommitted.invariant h hunique hmatch ?_ ?_ ?_⟩
      · intro id hremove
        simp [isRemoveOf, hcommitted.recordEvent] at hremove
      · intro id _ hshut
        rw [shareCount_eq_count, hids, ← shareCount_eq_count]
        exact hshut
      · intro id hid
        rw [newlyOpened, List.mem_filter, hids] at hid
        simp [hid.1] at hid

/-- A shared application Event, appended or inserted, leaves the topology as it is. -/
theorem stepKeeps_of_appInserted (h : TopologyInvariant app history)
    (hids : ∀ n, (ids n).isValid = true) {record : EventRecord (SharedNodeEvent ε)} {value : ε}
    (hinserted : RecordInserted (app.nodeClass ids) history.node record nowUs next)
    (hvalue : record.event.obj = some (.app value)) (drawn : List ObjId) :
    TopologyKept history.node next ∧
      TopologyInvariant app
        ⟨next, history.opened ++ newlyOpened history.node next, history.drawn ++ drawn⟩ := by
  obtain ⟨snapshot, hbase, hreplay⟩ := h.base
  have hstamped : (record.stamped nowUs).event.obj = some (.app value) := by
    rw [stamped_event]
    exact hvalue
  have hnoRemove : ∀ id, isRemoveOf id (record.stamped nowUs) = false := by
    intro id
    rw [isRemoveOf, hstamped]
  obtain ⟨before, after, hsplit, hjournal⟩ := exists_lowerBoundInsert_split
    eventRecordOrderLess (record.stamped nowUs) history.node.journal
  change insertedJournal history.node record nowUs = _ at hjournal
  have hshares : ∀ final, sharedReplay app snapshot.toSharedState
      (insertedJournal history.node record nowUs) = some final →
      final.shares = history.node.fields.shares := by
    intro final hfinal
    rw [shares_of_sharedReplay hfinal, hjournal, openShares_insert_app hstamped, ← hsplit,
      ← shares_of_sharedReplay hreplay]
    rfl
  have hspares : ∀ other ∈ insertedJournal history.node record nowUs,
      SparesStash history.node.fields.linkSyncStates other := by
    intro other hother
    rw [insertedJournal, mem_lowerBoundInsert] at hother
    rcases hother with rfl | hold
    · intro id hremove
      rw [hnoRemove] at hremove
      cases hremove
    · exact h.spares other hold
  obtain ⟨applied, size, generation, hcomplete, hrun, hnext⟩ := hinserted.replay
  have hfields : next.fields = applied.fields := by rw [hnext]
  have hafter : sharedReplay app snapshot.toSharedState
        (insertedJournal history.node record nowUs) = some applied.fields.shared ∧
      applied.fields.linkSyncStates = history.node.fields.linkSyncStates := by
    cases hrun with
    | appended hend hrun =>
        have happend : insertedJournal history.node record nowUs =
            history.node.journal ++ [record.stamped nowUs] := lowerBoundInsert_eq_append hend
        rw [h.materialized, happend, List.drop_left] at hrun
        have hone := sharedReplay_of_applyRecords hrun hcomplete
        have hwhole : sharedReplay app snapshot.toSharedState
            (insertedJournal history.node record nowUs) = some applied.fields.shared := by
          rw [happend, sharedReplay_append, hreplay, Option.bind_some]
          exact hone
        obtain ⟨applied', own, hrun', -, -, -, hover⟩ :=
          applyRecords_of_sharedReplay hids h.states.usable
            (fun other hother => hspares other
              (by rw [happend]; exact List.mem_append_right _ hother))
            (statesOverStash_start rfl) hone
        cases hrun.symm.trans hrun'
        exact ⟨hwhole, states_eq_of_statesOverStash h.states hover (hshares _ hwhole)⟩
    | rebuilt snapshot' hmiddle hbase' hrun =>
        cases hbase.symm.trans hbase'
        have hshared := (loadBase_eq app ids h.states.usable snapshot).1
        have hwhole := sharedReplay_of_applyRecords hrun hcomplete
        rw [hshared] at hwhole
        obtain ⟨applied', hrun', -, -, hstates⟩ :=
          h.replay hids hspares hwhole (hshares _ hwhole)
        cases hrun.symm.trans hrun'
        exact ⟨hwhole, hstates⟩
  have hsame : TopologyKept history.node next := by
    constructor
    · rw [hfields]
      exact hshares _ hafter.1
    · rw [hfields]
      exact hafter.2
  refine ⟨hsame, h.of_topologyKept hsame hinserted.objId (by rw [hinserted.base])
    ⟨snapshot, by rw [hinserted.base, hbase], ?_⟩ (hinserted.materialized h.materialized)
    (hinserted.sorted h.sorted) ?_ drawn⟩
  · rw [hinserted.journal, hfields]
    exact hafter.1
  · intro other hother id hremove
    rcases hinserted.mem_journal.mp hother with rfl | hold
    · rw [hnoRemove] at hremove
      cases hremove
    · exact ⟨other, hold, hremove⟩

/-- A rebuild returns. -/
theorem replayFromBase_topology (h : TopologyInvariant app history)
    (hids : ∀ n, (ids n).isValid = true) :
    ∃ next, replayFromBase (app.nodeClass ids) history.node = .ok next := by
  obtain ⟨snapshot, hbase, hreplay⟩ := h.base
  obtain ⟨applied, hrun, hcomplete, -, -⟩ := h.replay hids h.spares hreplay rfl
  exact replayFromBase_returns hbase hrun hcomplete

/-- A rebuild leaves the topology, and everything else that is shared, as it is. -/
theorem stepKeeps_of_rebuilt (h : TopologyInvariant app history)
    (hids : ∀ n, (ids n).isValid = true) {snapshot : BaseSnapshot α}
    {applied : Applied (SharedNodeFields α)} (hbase : history.node.base.obj = some snapshot)
    (hrun : applyRecords (app.nodeClass ids)
      ((app.nodeClass ids).loadBase history.node.fields snapshot) history.node.journal =
        .ok applied) (hcomplete : applied.complete = true)
    (hnext : next = { history.node with
      fields := applied.fields
      appliedJournalSize := some applied.count
      generation := 1 + applied.count }) (drawn : List ObjId) :
    TopologyKept history.node next ∧
      TopologyInvariant app
        ⟨next, history.opened ++ newlyOpened history.node next, history.drawn ++ drawn⟩ := by
  obtain ⟨snapshot', hbase', hreplay⟩ := h.base
  cases hbase.symm.trans hbase'
  obtain ⟨applied', hrun', -, hshared, hstates⟩ := h.replay hids h.spares hreplay rfl
  cases hrun.symm.trans hrun'
  have hsame : TopologyKept history.node next := by
    rw [hnext]
    exact ⟨congrArg SharedState.shares hshared, hstates⟩
  refine ⟨hsame, ?_⟩
  subst hnext
  refine h.of_topologyKept hsame rfl rfl ⟨snapshot, hbase, ?_⟩
    (count_of_applyRecords hrun hcomplete) h.sorted
    (fun record hrecord _ hremove => ⟨record, hrecord, hremove⟩) drawn
  rw [hreplay, ← hshared]

/-- The two replays of a compaction: the prefix over the base, and the rest over that. -/
theorem compaction_replays (h : TopologyInvariant app history)
    (hids : ∀ n, (ids n).isValid = true) {snapshot : BaseSnapshot α}
    (hbase : history.node.base.obj = some snapshot) (collapse : Nat) :
    ∃ before after, applyRecords (app.nodeClass ids)
        ((app.nodeClass ids).loadBase history.node.fields snapshot)
        (history.node.journal.take collapse) = .ok before ∧ before.complete = true ∧
      applyRecords (app.nodeClass ids) before.fields (history.node.journal.drop collapse) =
        .ok after ∧ after.complete = true ∧
      sharedReplay app before.fields.shared (history.node.journal.drop collapse) =
        some after.fields.shared ∧
      after.fields.shared = history.node.fields.shared ∧
      after.fields.linkSyncStates = history.node.fields.linkSyncStates := by
  obtain ⟨snapshot', hbase', hreplay⟩ := h.base
  cases hbase.symm.trans hbase'
  rw [← List.take_append_drop collapse history.node.journal, sharedReplay_append,
    Option.bind_eq_some_iff] at hreplay
  obtain ⟨middle, hstart, hretained⟩ := hreplay
  obtain ⟨hshared, hstates⟩ := loadBase_eq app ids h.states.usable snapshot
  obtain ⟨before, own, hbefore, hbeforeComplete, -, hmiddle, hover⟩ :=
    applyRecords_of_sharedReplay hids h.states.usable
      (fun record hrecord => h.spares record (List.mem_of_mem_take hrecord))
      (statesOverStash_start hstates) (hshared ▸ hstart)
  rw [← hmiddle] at hretained
  obtain ⟨after, own', hafter, hafterComplete, -, hfinal, hover'⟩ :=
    applyRecords_of_sharedReplay hids h.states.usable
      (fun record hrecord => h.spares record (List.mem_of_mem_drop hrecord)) hover hretained
  refine ⟨before, after, hbefore, hbeforeComplete, hafter, hafterComplete, ?_, hfinal, ?_⟩
  · rw [hfinal]
    exact hretained
  · exact states_eq_of_statesOverStash h.states hover' (congrArg SharedState.shares hfinal)

/-- A compaction returns. -/
theorem compactJournal_topology (h : TopologyInvariant app history)
    (hids : ∀ n, (ids n).isValid = true) :
    ∃ next, compactJournal (app.nodeClass ids) history.node nowUs = .ok next := by
  obtain ⟨snapshot, hbase, -⟩ := h.base
  obtain ⟨before, after, hstart, hstartComplete, hretained, hretainedComplete, -⟩ :=
    compaction_replays h hids hbase (collapsiblePrefixCount history.node nowUs)
  exact compactJournal_returns hbase h.baseValid h.baseOther hstart hstartComplete hretained
    hretainedComplete

/-- A compaction leaves the topology, and everything else that is shared, as it is. -/
theorem stepKeeps_of_compacted (h : TopologyInvariant app history)
    (hids : ∀ n, (ids n).isValid = true) {collapse : Nat}
    (hcompacted : JournalCompacted (app.nodeClass ids) history.node next collapse)
    (drawn : List ObjId) :
    TopologyKept history.node next ∧
      TopologyInvariant app
        ⟨next, history.opened ++ newlyOpened history.node next, history.drawn ++ drawn⟩ := by
  cases hcompacted with
  | everything nothingLeft result =>
      have hsame : TopologyKept history.node next := by
        rw [result]
        exact ⟨rfl, rfl⟩
      refine ⟨hsame, ?_⟩
      subst result
      refine h.of_topologyKept hsame rfl rfl ⟨_, rfl, rfl⟩ rfl List.Pairwise.nil ?_ drawn
      intro record hrecord
      cases hrecord
  | folded snapshot before after loaded prefixRun pc retainedRun rc result =>
      obtain ⟨before', after', hstart, -, hretained, -, hreplay, hshared, hstates⟩ :=
        compaction_replays h hids loaded collapse
      cases prefixRun.symm.trans hstart
      cases retainedRun.symm.trans hretained
      have hsame : TopologyKept history.node next := by
        rw [result]
        exact ⟨congrArg SharedState.shares hshared, hstates⟩
      refine ⟨hsame, ?_⟩
      subst result
      refine h.of_topologyKept hsame rfl rfl ⟨_, rfl, hreplay⟩ rfl
        (h.sorted.sublist (List.drop_sublist _ _)) ?_ drawn
      exact fun record hrecord _ hremove => ⟨record, List.mem_of_mem_drop hrecord, hremove⟩

/-- Progress on a local sync state changes the content of that state and nothing else. -/
theorem stepIsSound_progress (h : TopologyInvariant app history) {index : Nat} {eventId : ObjId}
    {event : LinkSyncEvent}
    (hcommit : commitLinkSyncEvent history.node index eventId event = .ok next) :
    StepIsSound app history next (.progress index eventId event) := by
  simp only [StepIsSound, TopologyMoves]
  have hkeys := map_key_of_commitLinkSyncEvent hcommit
  obtain ⟨state, committed, hat, -, rfl⟩ := commitLinkSyncEvent_eq_ok_iff.mp hcommit
  have hids := congrArg (List.map Prod.fst) hkeys
  have hsync := congrArg (List.map Prod.snd) hkeys
  rw [List.map_map, List.map_map] at hids hsync
  refine ⟨⟨rfl, hids, ?_⟩, ?_⟩
  · intro other hother
    show (history.node.fields.linkSyncStates.modify index _)[other]? = _
    rw [List.getElem?_modify]
    simp [Ne.symm hother]
  · refine h.of_step rfl rfl h.base h.materialized h.sorted h.unique ⟨?_, ?_⟩
      (fun record hrecord id hremove => Or.inl ⟨record, hrecord, hremove⟩)
      (fun id _ hshut => hshut) ?_
    · intro entry hentry
      obtain ⟨other, hother⟩ := List.mem_iff_getElem?.mp hentry
      change (history.node.fields.linkSyncStates.modify index _)[other]? = some entry at hother
      rw [List.getElem?_modify, Option.map_eq_map, Option.map_eq_some_iff] at hother
      obtain ⟨old, hold, hentry⟩ := hother
      have husable := h.states.usable old (List.mem_of_getElem? hold)
      split at hentry
      case isTrue =>
        rw [← hentry]
        exact ⟨husable.1, rfl⟩
      case isFalse =>
        rw [← hentry]
        exact husable
    · intro id
      show syncCount _ id = shareCount history.node.fields.shares id
      rw [← h.states.count, syncCount_eq_count, syncCount_eq_count]
      exact congrArg (List.count (some id)) hsync
    · intro id hid
      obtain ⟨hnow, hnot⟩ := List.mem_filter.mp hid
      exact absurd hnow (of_decide_eq_true hnot)

/-- Every allowed step does to the topology what it should, and keeps the invariant. -/
theorem stepIsSound_of_nodeStep (h : TopologyInvariant app history) {action : NodeAction ε}
    (hallowed : TopologyAllowed history action)
    (hstep : nodeStep app history.node action = some next) :
    StepIsSound app history next action := by
  cases action with
  | progress index eventId event =>
      exact stepIsSound_progress h (toOption_eq_some_iff.mp hstep)
  | operate ids nowUs operation =>
      have hrun := toOption_eq_some_iff.mp hstep
      have hids := hallowed.ids ids nowUs operation rfl
      have hcommands := hallowed.commands ids nowUs operation rfl
      cases operation with
      | addShare link access eventId =>
          exact stepIsSound_addShare h hids (hallowed.fresh eventId rfl).2 hrun
      | removeShare linkId eventId => exact stepIsSound_removeShare h hrun
      | setShareAccess linkId access eventId => exact stepIsSound_setShareAccess h hrun
      | commit event =>
          obtain ⟨value, hvalue⟩ := hcommands
          exact stepKeeps_of_appInserted h hids (recordInserted_of_commit hrun).2 hvalue _
      | commitShared event identity order =>
          obtain ⟨value, hvalue⟩ := hcommands
          exact stepKeeps_of_appInserted h hids (recordInserted_of_commitShared hrun).2.2 hvalue _
      | replayFromBase =>
          obtain ⟨snapshot, applied, hbase, happlied, hcomplete, hnext⟩ := replayFromBase_keeps hrun
          exact stepKeeps_of_rebuilt h hids hbase happlied hcomplete hnext _
      | compactJournal =>
          rcases compactJournal_cases hrun with ⟨-, hnext⟩ | hcompacted
          · cases hnext
            exact ⟨⟨rfl, rfl⟩, h.of_same _⟩
          · exact stepKeeps_of_compacted h hids hcompacted _
      | setJournalRetentionPolicy policy =>
          cases hrun
          have hsame : TopologyKept history.node
              { history.node with journalRetentionPolicy := policy } := ⟨rfl, rfl⟩
          exact ⟨hsame, h.of_topologyKept hsame rfl rfl h.base h.materialized h.sorted
            (fun record hrecord _ hremove => ⟨record, hrecord, hremove⟩) _⟩
      | setJournalCompactionBlocked blocked =>
          cases hrun
          have hsame : TopologyKept history.node
              { history.node with journalCompactionBlocked := blocked } := ⟨rfl, rfl⟩
          exact ⟨hsame, h.of_topologyKept hsame rfl rfl h.base h.materialized h.sorted
            (fun record hrecord _ hremove => ⟨record, hrecord, hremove⟩) _⟩

/-- A rebuild and a compaction never fail. -/
theorem isSome_of_isRebuild (h : TopologyInvariant app history) {action : NodeAction ε}
    (hallowed : TopologyAllowed history action) (hrebuild : action.isRebuild = true) :
    (nodeStep app history.node action).isSome = true := by
  cases action with
  | progress index eventId event => cases hrebuild
  | operate ids nowUs operation =>
      have hids := hallowed.ids ids nowUs operation rfl
      have hreturns : ∃ next, operation.run app ids nowUs history.node = .ok next := by
        cases operation with
        | replayFromBase => exact replayFromBase_topology h hids
        | compactJournal => exact compactJournal_topology h hids
        | addShare link access eventId => cases hrebuild
        | removeShare linkId eventId => cases hrebuild
        | setShareAccess linkId access eventId => cases hrebuild
        | commit event => cases hrebuild
        | commitShared event identity order => cases hrebuild
        | setJournalRetentionPolicy policy => cases hrebuild
        | setJournalCompactionBlocked blocked => cases hrebuild
      obtain ⟨next, hnext⟩ := hreturns
      rw [nodeStep, hnext]
      rfl

end Operations

theorem topologyInvariant_step {history next : TopologyHistory α ε} {action : NodeAction ε}
    (h : TopologyInvariant app history) (hallowed : TopologyAllowed history action)
    (hstep : topologyStep app history action = some next) : TopologyInvariant app next := by
  obtain ⟨node, hnode, rfl⟩ := Option.map_eq_some_iff.mp hstep
  exact (stepIsSound_of_nodeStep h hallowed hnode).2

/-- Actions that draw pairwise different ids draw unused ones. -/
theorem topologyAllowed_of_distinct {actions : List (NodeAction ε)}
    {history : TopologyHistory α ε}
    (hcommands : ∀ action ∈ actions, ∀ ids nowUs operation,
      action = .operate ids nowUs operation →
        operation.KeepsTopologyCommands ∧ ∀ n, (ids n).isValid = true)
    (hvalid : ∀ id ∈ actions.filterMap NodeAction.topologyEventId, id.isValid = true)
    (hdistinct : (actions.filterMap NodeAction.topologyEventId).Nodup)
    (hfresh : ∀ id ∈ actions.filterMap NodeAction.topologyEventId, id ∉ history.drawn) :
    EveryStep (topologyStep app) TopologyAllowed history actions := by
  induction actions generalizing history with
  | nil => trivial
  | cons action rest ih =>
      have hrest : ∀ id ∈ rest.filterMap NodeAction.topologyEventId,
          id ∈ (action :: rest).filterMap NodeAction.topologyEventId := by
        intro id hid
        exact ((List.sublist_cons_self action rest).filterMap _).subset hid
      refine everyStep_cons.mpr ⟨⟨?_, ?_, ?_⟩, fun next hnext => ih ?_ ?_ ?_ ?_⟩
      · intro ids nowUs operation haction
        exact (hcommands action List.mem_cons_self ids nowUs operation haction).1
      · intro ids nowUs operation haction
        exact (hcommands action List.mem_cons_self ids nowUs operation haction).2
      · intro id hid
        have hmem : id ∈ (action :: rest).filterMap NodeAction.topologyEventId :=
          List.mem_filterMap.mpr ⟨action, List.mem_cons_self, hid⟩
        exact ⟨hvalid id hmem, hfresh id hmem⟩
      · exact fun other hother => hcommands other (List.mem_cons_of_mem _ hother)
      · exact fun id hid => hvalid id (hrest id hid)
      · exact hdistinct.sublist ((List.sublist_cons_self action rest).filterMap _)
      · intro id hid hdrawn
        obtain ⟨node, -, rfl⟩ := Option.map_eq_some_iff.mp hnext
        rcases List.mem_append.mp hdrawn with hold | hnow
        · exact hfresh id (hrest id hid) hold
        · have haction : action.topologyEventId = some id := by
            simpa [Option.mem_toList, eq_comm] using hnow
          rw [List.filterMap_cons_some haction, List.nodup_cons] at hdistinct
          exact hdistinct.1 hid

/-- In every run of a new SharedNode the topology is sound, each step does to it what it
should, and rebuilds and compactions return and leave it as it is. -/
theorem shareTopology_isTransparent {start : SharedNode α ε} (hstart : IsNewNode app start)
    {actions : List (NodeAction ε)} {reached : TopologyHistory α ε}
    (hallowed : EveryStep (topologyStep app) TopologyAllowed ⟨start, [], []⟩ actions)
    (hrun : runActions (topologyStep app) ⟨start, [], []⟩ actions = some reached) :
    TopologyIsSound reached ∧ ∀ action, TopologyAllowed reached action →
      (∀ next, nodeStep app reached.node action = some next →
        TopologyMoves reached next action) ∧
      (action.isRebuild = true → (nodeStep app reached.node action).isSome = true) := by
  have hinvariant : TopologyInvariant app reached :=
    runActions_invariant (TopologyInvariant app)
      (fun _ _ _ h hassumed hstep => topologyInvariant_step h hassumed hstep)
      (topologyInvariant_new hstart) hallowed hrun
  refine ⟨hinvariant.sound, fun action hnext => ⟨fun next hstep => ?_, ?_⟩⟩
  · exact (stepIsSound_of_nodeStep hinvariant hnext hstep).1
  · exact isSome_of_isRebuild hinvariant hnext

section ReopenedRoom

/-- A new ChatRoom. -/
def emptyRoom : SharedNode Messages MessageAddedEvent :=
  initializeRuntimeNode (chatRoom.nodeClass (idsFrom 1000)) ⟨10⟩ chatRoomClassId ⟨11⟩
    { shares := [], app := [] }

/-- The Link that is shared twice. -/
def reopenedLink : Ref Link := ⟨⟨12⟩, some ⟨1, [7], 0⟩⟩

/-- A message of another replica. -/
def earlierMessage : MessageAddedEvent := ⟨⟨⟨[9], 1⟩, 15, [65]⟩⟩

/-- The room is shared and synchronized, the relationship is closed and opened again, a
message arrives that was sent while the first one was open, and the journal is compacted
between the two. -/
def reopenedRoom : List (NodeAction MessageAddedEvent) :=
  [.operate (idsFrom 1000) 10 (.addShare reopenedLink ShareAccess.readWrite ⟨20⟩),
    .progress 0 ⟨60⟩ (.beginInitialSync [1] []),
    .progress 0 ⟨61⟩ .completeInitialSync,
    .operate (idsFrom 1000) 30 (.removeShare ⟨12⟩ ⟨21⟩),
    .operate (idsFrom 1000) 40 (.addShare reopenedLink ShareAccess.readOnly ⟨22⟩),
    .operate (idsFrom 1000) 50
      (.commitShared ⟨⟨70⟩, some (.app earlierMessage)⟩ ⟨[9], 1⟩ ⟨15⟩),
    .operate (idsFrom 1000) 55 (.setJournalRetentionPolicy ⟨2, none⟩),
    .operate (idsFrom 1000) 60 .compactJournal]

theorem reopenedRoom_run : ∃ reached,
    runActions (topologyStep chatRoom) ⟨emptyRoom, [], []⟩ reopenedRoom = some reached ∧
      (reached.opened = [⟨20⟩, ⟨22⟩] ∧ reached.node.journal.length = 2) := by
  have hrun : (runActions (topologyStep chatRoom) ⟨emptyRoom, [], []⟩ reopenedRoom).any
      (fun reached => decide (reached.opened = [⟨20⟩, ⟨22⟩] ∧
        reached.node.journal.length = 2)) = true := by decide
  obtain ⟨reached, hreached, hopened⟩ := (Option.any_eq_true _ _).mp hrun
  exact ⟨reached, hreached, of_decide_eq_true hopened⟩

theorem shareTopology_isTransparent_reopenedRoom : ∃ reached,
    runActions (topologyStep chatRoom) ⟨emptyRoom, [], []⟩ reopenedRoom = some reached ∧
      (reached.opened = [⟨20⟩, ⟨22⟩] ∧ reached.node.journal.length = 2) ∧
      TopologyIsSound reached ∧ ∀ action, TopologyAllowed reached action →
        (∀ next, nodeStep chatRoom reached.node action = some next →
          TopologyMoves reached next action) ∧
        (action.isRebuild = true → (nodeStep chatRoom reached.node action).isSome = true) := by
  obtain ⟨reached, hrun, hreached⟩ := reopenedRoom_run
  refine ⟨reached, hrun, hreached, @shareTopology_isTransparent _ _ chatRoom emptyRoom
    ⟨_, _, _, _, _, by decide, by decide, rfl, rfl, rfl⟩ reopenedRoom reached
    (topologyAllowed_of_distinct ?_ (by decide) (by decide) ?_) hrun⟩
  · have hids : ∀ n, (idsFrom 1000 n).isValid = true :=
      forall_idsFrom (fun id => id.isValid = true) 1000 (by decide)
    intro action haction ids nowUs operation hoperate
    simp only [reopenedRoom, List.mem_cons, List.not_mem_nil, or_false] at haction
    rcases haction with rfl | rfl | rfl | rfl | rfl | rfl | rfl | rfl <;> cases hoperate
    case refine_1.inr.inr.inr.inr.inr.inl.refl => exact ⟨⟨earlierMessage, rfl⟩, hids⟩
    all_goals exact ⟨trivial, hids⟩
  · exact fun _ _ => List.not_mem_nil

end ReopenedRoom

end AppTraverse
