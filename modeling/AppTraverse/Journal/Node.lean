import AppTraverse.Foundations.EffectLog
import AppTraverse.Foundations.SortedInsertion
import AppTraverse.Journal.Identity

/-!
# Event-sourced Nodes

The templates of `node.h`: a Node keeps a base snapshot, a journal of Events
ordered by timestamp, and the fields that result from replaying the journal
over the base.  The templates are generic in the concrete Node class; what they
need from it is collected in `NodeClass`.

Two simplifications are made throughout.  A Node and its Events live in one
Domain, so the Domain identity checks of `TryInsertEvent` are not repeated.  A
single wall-clock reading `nowUs` serves one call.
-/

namespace AppTraverse

open Foundations

/-- One authoritative journal entry. -/
structure EventRecord (ε : Type) where
  event : Ref ε
  identity : SharedEventId := {}
  order : SharedEventOrder := {}
  retainedSinceUs : UInt64 := 0
  deriving DecidableEq, Repr

namespace EventRecord

variable {ε : Type}

/-- `EventRecord::HasSharedIdentity`. -/
def hasSharedIdentity (record : EventRecord ε) : Bool :=
  !record.identity.originUid.isEmpty

end EventRecord

/-- `EventRecordOrderLess`: only the order is consulted. -/
def eventRecordOrderLess {ε : Type} (a b : EventRecord ε) : Bool :=
  sharedEventOrderLess a.order b.order

/-- `JournalRetentionPolicy`.  An absent `maxAge` leaves age retention unused. -/
structure JournalRetentionPolicy where
  maxEvents : Nat := 2 ^ 64 - 1
  maxAge : Option UInt64 := none
  deriving DecidableEq, Repr

/-- `JournalRetentionPolicy::kUnlimitedEvents`. -/
def kUnlimitedEvents : Nat := 2 ^ 64 - 1

/-- What the Node templates need from a concrete Node class with fields `σ`,
base snapshots `β` and Events `ε`.

`applyTo` receives the Event's own `ObjId`, because some Events are identified
by it.  `loadBase` is `DomainGraph::Load(target, base.id())` between
`StashLocalPersistentAcrossRebuild` and `RestoreLocalPersistentAcrossRebuild`. -/
structure NodeClass (σ β ε : Type) where
  canApplyTo : σ → ε → Bool
  applyTo : σ → ObjId → ε → Except Fault σ
  saveBase : σ → β
  loadBase : σ → β → σ
  matchesSharedMetadata : ε → SharedEventId → SharedEventOrder → Bool

/-- A Node.  `appliedJournalSize = none` is `kJournalFullyMaterialized`. -/
structure Node (σ β ε : Type) where
  objId : ObjId
  classId : ClassId
  base : Ref β
  journal : List (EventRecord ε)
  fields : σ
  appliedJournalSize : Option Nat := none
  generation : Nat := 1
  journalRetentionPolicy : JournalRetentionPolicy := {}
  journalCompactionBlocked : Bool := false
  deriving DecidableEq, Repr

/-- How far a replay got: the fields it reached, the number of records it
applied, and whether that was all of them. -/
structure Applied (σ : Type) where
  fields : σ
  count : Nat
  complete : Bool

section Templates

variable {σ β ε : Type} (cls : NodeClass σ β ε)

/-- The loop of `TryEnsureCurrentGeneration` over the records not yet applied. -/
def applyRecords : σ → List (EventRecord ε) → Except Fault (Applied σ)
  | fields, [] => .ok ⟨fields, 0, true⟩
  | fields, record :: rest =>
      if !record.event.isValid then
        .ok ⟨fields, 0, false⟩
      else
        match record.event.obj with
        | none => .ok ⟨fields, 0, false⟩
        | some event =>
            if cls.canApplyTo fields event then do
              let next ← cls.applyTo fields record.event.id event
              let applied ← applyRecords next rest
              pure { applied with count := applied.count + 1 }
            else
              .ok ⟨fields, 0, false⟩

/-- `Node::TryEnsureCurrentGeneration`.  Every applied Event notes one
materialized change, which advances the generation. -/
def tryEnsureCurrentGeneration (node : Node σ β ε) :
    Except Fault (Node σ β ε × Bool) :=
  match node.appliedJournalSize with
  | none =>
      .ok ({ node with appliedJournalSize := some node.journal.length }, true)
  | some size => do
      let applied ← applyRecords cls node.fields (node.journal.drop size)
      pure ({ node with
        fields := applied.fields
        appliedJournalSize := some (size + applied.count)
        generation := node.generation + applied.count }, applied.complete)

/-- `Node::TryReplayJournal`. -/
def tryReplayJournal (node : Node σ β ε) : Except Fault (Node σ β ε × Bool) :=
  tryEnsureCurrentGeneration cls { node with appliedJournalSize := some 0 }

/-- `Node::TryRebuildFromBaseAndReplay`, which is also `TryReplayFromBase`. -/
def tryRebuildFromBaseAndReplay (node : Node σ β ε) :
    Except Fault (Node σ β ε × Bool) :=
  match node.base.obj with
  | none => .error .nullDeref
  | some snapshot =>
      tryReplayJournal cls { node with
        fields := cls.loadBase node.fields snapshot
        generation := 1 }

/-- `Node::ReplayFromBase`. -/
def replayFromBase (node : Node σ β ε) : Except Fault (Node σ β ε) := do
  let (rebuilt, ok) ← tryRebuildFromBaseAndReplay cls node
  assertThat ok
  pure rebuilt

/-- `Node::CaptureBaseStateInto`: the current fields become the base snapshot. -/
def captureBaseState (node : Node σ β ε) : Except Fault (Node σ β ε) := do
  assertThat node.base.isValid
  assertThat node.base.isLoaded
  assertThat node.journal.isEmpty
  assertThat (decide (node.base.id ≠ node.objId))
  pure { node with base := ⟨node.base.id, some (cls.saveBase node.fields)⟩ }

/-- `EventRecord` at `index` is kept by count or by age. -/
def retainsRecord (policy : JournalRetentionPolicy) (size index : Nat)
    (record : EventRecord ε) (nowUs : UInt64) : Bool :=
  decide (policy.maxEvents = kUnlimitedEvents) ||
    decide (size - index ≤ policy.maxEvents) ||
    match policy.maxAge with
    | none => false
    | some maxAge =>
        decide (nowUs < record.retainedSinceUs) ||
          decide (nowUs - record.retainedSinceUs ≤ maxAge)

/-- `Node::CollapsiblePrefixCount`. -/
def collapsiblePrefixCount (node : Node σ β ε) (nowUs : UInt64) : Nat :=
  if node.journalCompactionBlocked then
    0
  else
    (node.journal.zipIdx.takeWhile fun entry =>
      !retainsRecord node.journalRetentionPolicy node.journal.length entry.2
        entry.1 nowUs).length

/-- `Node::CompactJournalInto`: fold the collapsible prefix into the base. -/
def compactJournal (node : Node σ β ε) (nowUs : UInt64) :
    Except Fault (Node σ β ε) :=
  let collapse := collapsiblePrefixCount node nowUs
  if collapse = 0 then
    .ok node
  else
    let retained := node.journal.drop collapse
    if retained.isEmpty then do
      let captured ← captureBaseState cls { node with journal := [] }
      pure { captured with
        generation := node.generation
        appliedJournalSize := none }
    else do
      let rebuilt ←
        replayFromBase cls { node with journal := node.journal.take collapse }
      let captured ← captureBaseState cls { rebuilt with journal := [] }
      let (replayed, ok) ← tryReplayJournal cls { captured with journal := retained }
      assertThat ok
      pure { replayed with
        generation := node.generation
        appliedJournalSize := none }

/-- The identity of a shared record is already in the journal. -/
def hasRecordWithIdentity (journal : List (EventRecord ε))
    (identity : SharedEventId) : Bool :=
  journal.any fun existing =>
    existing.hasSharedIdentity && decide (existing.identity = identity)

/-- `Node::TryInsertEvent`.  A record with a timestamp already present lands
before the records that carry it. -/
def tryInsertEvent (node : Node σ β ε) (record : EventRecord ε) (nowUs : UInt64) :
    Except Fault (Node σ β ε × Bool) :=
  if !node.base.isValid || !node.base.isLoaded || !record.event.isValid ||
      !record.event.isLoaded || decide (record.order.timestampUs = 0) then
    .ok (node, false)
  else
    let stamped :=
      if record.retainedSinceUs = 0 then
        { record with retainedSinceUs := nowUs }
      else
        record
    if stamped.hasSharedIdentity &&
        hasRecordWithIdentity node.journal stamped.identity then
      .ok (node, false)
    else
      let journal := lowerBoundInsert eventRecordOrderLess stamped node.journal
      if lowerBoundAtEnd eventRecordOrderLess stamped node.journal then do
        let (inserted, ok) ← tryEnsureCurrentGeneration cls { node with
          journal := journal
          appliedJournalSize :=
            some (node.appliedJournalSize.getD (journal.length - 1)) }
        if ok then
          pure (inserted, true)
        else
          pure ({ inserted with
            journal := inserted.journal.dropLast
            appliedJournalSize := some inserted.journal.dropLast.length }, false)
      else
        tryRebuildFromBaseAndReplay cls { node with journal := journal }

/-- `Node::InsertEvent`. -/
def insertEvent (node : Node σ β ε) (record : EventRecord ε) (nowUs : UInt64) :
    Except Fault (Node σ β ε) := do
  let (inserted, ok) ← tryInsertEvent cls node record nowUs
  assertThat ok
  pure inserted

/-- The timestamp `CommitInto` gives a local Event: the wall clock, moved past
the last record when it does not advance. -/
def commitTimestamp (journal : List (EventRecord ε)) (nowUs : UInt64) : UInt64 :=
  match journal.getLast? with
  | none => nowUs
  | some last =>
      if nowUs ≤ last.order.timestampUs then
        last.order.timestampUs + 1
      else
        nowUs

/-- `Node::CommitInto`: a local commit with empty identity. -/
def commit (node : Node σ β ε) (event : Ref ε) (nowUs : UInt64) :
    Except Fault (Node σ β ε) := do
  assertThat event.isValid
  match event.obj with
  | none => .error .assertFailed
  | some value => do
      assertThat (cls.canApplyTo node.fields value)
      insertEvent cls node
        { event := event
          identity := {}
          order := ⟨commitTimestamp node.journal nowUs⟩
          retainedSinceUs := nowUs } nowUs

/-- `Node::TryCommitSharedInto`, which is also `TryInsertShared`. -/
def tryCommitShared (node : Node σ β ε) (event : Ref ε) (identity : SharedEventId)
    (order : SharedEventOrder) (nowUs : UInt64) : Except Fault (Node σ β ε × Bool) :=
  if !event.isValid || identity.originUid.isEmpty then
    .ok (node, false)
  else
    match event.obj with
    | none => .ok (node, false)
    | some value =>
        if cls.matchesSharedMetadata value identity order then
          tryInsertEvent cls node
            { event := event
              identity := identity
              order := order
              retainedSinceUs := nowUs } nowUs
        else
          .ok (node, false)

/-- `NodeFor::CommitShared` and `Node::InsertShared`. -/
def commitShared (node : Node σ β ε) (event : Ref ε) (identity : SharedEventId)
    (order : SharedEventOrder) (nowUs : UInt64) : Except Fault (Node σ β ε) := do
  let (inserted, ok) ← tryCommitShared cls node event identity order nowUs
  assertThat ok
  pure inserted

/-- `Node::FindSharedEvent`. -/
def findSharedEvent (node : Node σ β ε) (identity : SharedEventId) :
    Option (EventRecord ε) :=
  if identity.originUid.isEmpty then
    none
  else
    node.journal.find? fun record =>
      record.hasSharedIdentity && decide (record.identity = identity)

/-- `InitializeRuntimeNode`: a new Node gets a base snapshot of its own fields
under a new id, and an empty journal. -/
def initializeRuntimeNode (objId : ObjId) (classId : ClassId) (baseId : ObjId)
    (fields : σ) : Node σ β ε where
  objId := objId
  classId := classId
  base := ⟨baseId, some (cls.saveBase fields)⟩
  journal := []
  fields := fields

end Templates

end AppTraverse
