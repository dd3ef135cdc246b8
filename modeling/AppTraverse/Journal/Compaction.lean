import Mathlib.Order.Bounds.Basic
import AppTraverse.Journal.ArrivalOrder
import AppTraverse.Journal.TwinInsertion

/-!
# What a compaction of the journal keeps

`CompactJournal` folds the longest prefix of the journal that no retention rule needs
into the base.  The new base is the state that the prefix led to, so whatever replays the
retained journal over it, now or after a later Event, ends where the whole journal would
have led.  What a compaction does drop are the identities of the folded records.
-/

namespace AppTraverse

open Foundations

section Retention

variable {σ β ε : Type}

/-- The retention policy keeps the record at this index: one of the newest `maxEvents`,
or not older than `maxAge`.  A record retained since a time in the future is kept. -/
def Node.Needs (node : Node σ β ε) (nowUs : UInt64) (index : Nat)
    (record : EventRecord ε) : Prop :=
  node.journal.length - index ≤ node.journalRetentionPolicy.maxEvents ∨
    ∃ maxAge, node.journalRetentionPolicy.maxAge = some maxAge ∧
      (nowUs < record.retainedSinceUs ∨ nowUs - record.retainedSinceUs ≤ maxAge)

/-- Lengths of prefixes of the journal without a needed record. -/
def Node.UnneededPrefixes (node : Node σ β ε) (nowUs : UInt64) : Set Nat :=
  { count | count ≤ node.journal.length ∧
    ∀ index record, index < count → node.journal[index]? = some record →
      ¬ node.Needs nowUs index record }

/-- Nothing may be folded. -/
def Node.HoldsJournal (node : Node σ β ε) : Prop :=
  node.journalCompactionBlocked = true ∨
    node.journalRetentionPolicy.maxEvents = kUnlimitedEvents

variable {node : Node σ β ε} {nowUs : UInt64}

theorem retainsRecord_eq_true_iff {index : Nat} {record : EventRecord ε} :
    retainsRecord node.journalRetentionPolicy node.journal.length index record nowUs = true ↔
      node.journalRetentionPolicy.maxEvents = kUnlimitedEvents ∨
        node.Needs nowUs index record := by
  unfold retainsRecord Node.Needs
  cases hage : node.journalRetentionPolicy.maxAge with
  | none => simp
  | some maxAge => simp [or_assoc]

/-- The loop of `CollapsiblePrefixCount` over the records from an index on. -/
theorem takeWhile_zipIdx_isGreatest (retains : Nat → EventRecord ε → Bool)
    (records : List (EventRecord ε)) (start : Nat) :
    IsGreatest { count | count ≤ records.length ∧
        ∀ index record, index < count → records[index]? = some record →
          retains (start + index) record = false }
      ((records.zipIdx start).takeWhile fun entry => !retains entry.2 entry.1).length := by
  induction records generalizing start with
  | nil =>
      refine ⟨⟨Nat.le_refl 0, fun index record hindex => absurd hindex (Nat.not_lt_zero _)⟩, ?_⟩
      exact fun count hcount => hcount.1
  | cons head tail ih =>
      rw [List.zipIdx_cons]
      cases hhead : retains start head with
      | true =>
          rw [List.takeWhile_cons_of_neg (by simp [hhead])]
          refine ⟨⟨Nat.zero_le _, fun index record hindex => absurd hindex (Nat.not_lt_zero _)⟩,
            ?_⟩
          -- A prefix that is not empty has the retained head.
          rintro count ⟨-, hall⟩
          by_contra hpos
          have hfalse := hall 0 head (Nat.lt_of_not_le hpos) rfl
          rw [Nat.add_zero, hhead] at hfalse
          cases hfalse
      | false =>
          rw [List.takeWhile_cons_of_pos (by simp [hhead]), List.length_cons, List.length_cons]
          obtain ⟨⟨hlength, hall⟩, hgreatest⟩ := ih (start + 1)
          refine ⟨⟨by omega, ?_⟩, ?_⟩
          · intro index record hindex hrecord
            cases index with
            | zero =>
                cases hrecord
                exact hhead
            | succ index =>
                rw [show start + (index + 1) = start + 1 + index by omega]
                exact hall index record (by omega) hrecord
          · rintro count ⟨hcount, hcountAll⟩
            cases count with
            | zero => exact Nat.zero_le _
            | succ count =>
                have htail := hgreatest (a := count) ⟨by omega, fun index record hindex hrecord => by
                  rw [show start + 1 + index = start + (index + 1) by omega]
                  exact hcountAll (index + 1) record (by omega) hrecord⟩
                omega

/-- A compaction folds the longest prefix that has no needed record, and nothing while the
journal is held. -/
theorem collapsiblePrefixCount_spec :
    (node.HoldsJournal → collapsiblePrefixCount node nowUs = 0) ∧
      (¬ node.HoldsJournal →
        IsGreatest (node.UnneededPrefixes nowUs) (collapsiblePrefixCount node nowUs)) := by
  have hloop := takeWhile_zipIdx_isGreatest
    (fun index record => retainsRecord node.journalRetentionPolicy node.journal.length index
      record nowUs) node.journal 0
  constructor
  · intro hholds
    unfold collapsiblePrefixCount
    split
    case isTrue => rfl
    case isFalse hfree =>
      have hunlimited : node.journalRetentionPolicy.maxEvents = kUnlimitedEvents :=
        hholds.resolve_left hfree
      cases hjournal : node.journal with
      | nil => rfl
      | cons head tail => simp [retainsRecord, hunlimited]
  · intro hfree
    rw [Node.HoldsJournal, not_or] at hfree
    have hset : node.UnneededPrefixes nowUs = { count | count ≤ node.journal.length ∧
        ∀ index record, index < count → node.journal[index]? = some record →
          retainsRecord node.journalRetentionPolicy node.journal.length (0 + index) record
            nowUs = false } := by
      ext count
      simp only [Node.UnneededPrefixes, Set.mem_ofPred_eq, Nat.zero_add,
        ← Bool.not_eq_true, retainsRecord_eq_true_iff, hfree.2, false_or]
    rw [hset, collapsiblePrefixCount, if_neg hfree.1]
    exact hloop

/-- Retention looks at a record from the end of the journal. -/
theorem needs_drop {other : Node σ β ε} {count : Nat}
    (hjournal : other.journal = node.journal.drop count)
    (hpolicy : other.journalRetentionPolicy = node.journalRetentionPolicy) {index : Nat}
    {record : EventRecord ε} :
    other.Needs nowUs index record ↔ node.Needs nowUs (count + index) record := by
  unfold Node.Needs
  rw [hpolicy, hjournal, List.length_drop, Nat.sub_sub]

/-- Once the prefix is gone, there is none left. -/
theorem collapsiblePrefixCount_of_drop {other : Node σ β ε}
    (hjournal : other.journal = node.journal.drop (collapsiblePrefixCount node nowUs))
    (hpolicy : other.journalRetentionPolicy = node.journalRetentionPolicy)
    (hblocked : other.journalCompactionBlocked = node.journalCompactionBlocked) :
    collapsiblePrefixCount other nowUs = 0 := by
  have hholds : other.HoldsJournal ↔ node.HoldsJournal := by
    rw [Node.HoldsJournal, Node.HoldsJournal, hpolicy, hblocked]
  by_cases hheld : other.HoldsJournal
  · exact collapsiblePrefixCount_spec.1 hheld
  obtain ⟨⟨hlength, hall⟩, -⟩ := (@collapsiblePrefixCount_spec _ _ _ other nowUs).2 hheld
  obtain ⟨⟨hfull, hfolded⟩, hgreatest⟩ :=
    (@collapsiblePrefixCount_spec _ _ _ node nowUs).2 (fun h => hheld (hholds.mpr h))
  -- Both prefixes together would be a longer one.
  have htogether : collapsiblePrefixCount node nowUs + collapsiblePrefixCount other nowUs ∈
      node.UnneededPrefixes nowUs := by
    rw [hjournal, List.length_drop] at hlength
    refine ⟨by omega, ?_⟩
    intro index record hindex hrecord
    by_cases hbefore : index < collapsiblePrefixCount node nowUs
    · exact hfolded index record hbefore hrecord
    · obtain ⟨offset, rfl⟩ : ∃ offset, index = collapsiblePrefixCount node nowUs + offset :=
        ⟨index - collapsiblePrefixCount node nowUs, by omega⟩
      rw [← needs_drop hjournal hpolicy]
      refine hall offset record (by omega) ?_
      rw [hjournal, List.getElem?_drop]
      exact hrecord
  have hle := hgreatest htogether
  omega

end Retention

section Insertion

variable {σ β ε τ : Type} {cls : NodeClass σ β ε} {S : SerializedFields cls τ}
  {node after : Node σ β ε} {record : EventRecord ε} {nowUs : UInt64}

/-- What holds of a Node that takes Events: it is the fold of its journal, it has a base,
and its local fields are sound. -/
structure Node.Stands (S : SerializedFields cls τ) (node : Node σ β ε) : Prop
    extends node.Folds S where
  baseValid : node.base.isValid = true
  sound : S.sound node.fields

/-- An accepted record whose journal replays over the base is inserted. -/
theorem Node.Stands.tryInsertEvent_returns (h : node.Stands S)
    (haccepted : RecordAccepted node.journal record) {snapshot : β} {state : τ}
    (hbase : node.base.obj = some snapshot)
    (hreplay : S.replay (S.ofBase snapshot) (insertedJournal node record nowUs) =
      (state, true)) :
    ∃ after, tryInsertEvent cls node record nowUs = .ok (after, true) := by
  have hready : node.IsReady S snapshot := ⟨h.materialized, h.baseValid, hbase, h.sound⟩
  apply hready.exists_inserted haccepted
  unfold SerializedFields.insertion
  split
  case isTrue hend =>
    -- The old journal leads to the fields, so the new record is replayed from there.
    obtain ⟨known, hknown, hold⟩ := h.replay
    cases hknown.symm.trans hbase
    rw [insertedJournal, lowerBoundInsert_eq_append hend, S.replay_append hold] at hreplay
    exact hreplay
  case isFalse => exact hreplay

/-- What a successful insertion leads to: the replay of the new journal over the base. -/
theorem Node.Stands.tryInsertEvent_iff (h : node.Stands S) {snapshot : β} {state : τ}
    (hbase : node.base.obj = some snapshot) :
    (∃ after, tryInsertEvent cls node record nowUs = .ok (after, true) ∧
        S.view after.fields = state) ↔
      RecordAccepted node.journal record ∧
        S.replay (S.ofBase snapshot) (insertedJournal node record nowUs) = (state, true) := by
  have hleads : ∀ after, tryInsertEvent cls node record nowUs = .ok (after, true) →
      S.replay (S.ofBase snapshot) (insertedJournal node record nowUs) =
        (S.view after.fields, true) := by
    intro after hafter
    obtain ⟨applied, size, generation, hcomplete, hreplay, rfl⟩ :=
      (recordInserted_of_tryInsertEvent hafter).replay
    rw [h.replay_insertedJournal hreplay hbase, hcomplete]
  constructor
  · rintro ⟨after, hafter, rfl⟩
    exact ⟨recordInserted_accepted (recordInserted_of_tryInsertEvent hafter),
      hleads after hafter⟩
  · rintro ⟨haccepted, hreplay⟩
    obtain ⟨after, hafter⟩ := h.tryInsertEvent_returns haccepted hbase hreplay
    refine ⟨after, hafter, ?_⟩
    have hsame := (hleads after hafter).symm.trans hreplay
    exact (Prod.mk.inj hsame).1

end Insertion

section Notices

variable {σ β ε : Type} (cls : NodeClass σ β ε)

/-- `Node::TryReplayJournal` with the number of calls of the materialized-change notifier.
`NoteMaterializedChange` returns at once while changes are suppressed. -/
def tryReplayJournalNoted (suppressed : Bool) (node : Node σ β ε) :
    Except Fault (Node σ β ε × Bool × Nat) := do
  let applied ← applyRecords cls node.fields node.journal
  let noted := if suppressed then 0 else applied.count
  pure ({ node with
    fields := applied.fields
    appliedJournalSize := some applied.count
    generation := node.generation + noted }, applied.complete, noted)

/-- `Node::CompactJournalInto` with the number of calls of the notifier. -/
def compactJournalNoted (node : Node σ β ε) (nowUs : UInt64) :
    Except Fault (Node σ β ε × Nat) :=
  let collapse := collapsiblePrefixCount node nowUs
  if collapse = 0 then
    .ok (node, 0)
  else
    let retained := node.journal.drop collapse
    if retained.isEmpty then do
      let captured ← captureBaseState cls { node with journal := [] }
      pure ({ captured with
        generation := node.generation
        appliedJournalSize := none }, 0)
    else
      match node.base.obj with
      | none => .error .nullDeref
      | some snapshot => do
          let (rebuilt, ok, rebuildNoted) ← tryReplayJournalNoted cls true { node with
            journal := node.journal.take collapse
            fields := cls.loadBase node.fields snapshot
            generation := 1 }
          assertThat ok
          let captured ← captureBaseState cls { rebuilt with journal := [] }
          let (replayed, ok, replayNoted) ←
            tryReplayJournalNoted cls true { captured with journal := retained }
          assertThat ok
          pure ({ replayed with
            generation := node.generation
            appliedJournalSize := none }, rebuildNoted + replayNoted)

/-- A compaction calls the notifier never. -/
theorem compactJournalNoted_eq (node : Node σ β ε) (nowUs : UInt64) :
    compactJournalNoted cls node nowUs = (·, 0) <$> compactJournal cls node nowUs := by
  unfold compactJournalNoted compactJournal
  simp only
  split
  case isTrue => rfl
  case isFalse =>
  split
  case isTrue =>
    rw [map_bind]
    rfl
  case isFalse =>
    cases hbase : node.base.obj with
    | none => simp [replayFromBase, tryRebuildFromBaseAndReplay, hbase, bind, Except.bind,
        Functor.map, Except.map]
    | some snapshot =>
        simp only [replayFromBase, tryRebuildFromBaseAndReplay, hbase, tryReplayJournal,
          tryEnsureCurrentGeneration, tryReplayJournalNoted, captureBaseState, List.drop_zero,
          bind_assoc, pure_bind, map_bind, map_pure, if_true, Nat.add_zero]

end Notices

section Compaction

variable {σ β ε τ : Type} {cls : NodeClass σ β ε} {S : SerializedFields cls τ}
  {node compacted : Node σ β ε} {nowUs : UInt64} {count : Nat}

/-- A prefix of the journal became the base, and nothing else of the Node changed. -/
structure PrefixFolded (S : SerializedFields cls τ) (node compacted : Node σ β ε)
    (count : Nat) : Prop where
  objId : compacted.objId = node.objId
  baseId : compacted.base.id = node.base.id
  journal : compacted.journal = node.journal.drop count
  policy : compacted.journalRetentionPolicy = node.journalRetentionPolicy
  blocked : compacted.journalCompactionBlocked = node.journalCompactionBlocked
  generation : compacted.generation = node.generation
  materialized : compacted.IsMaterialized
  view : S.view compacted.fields = S.view node.fields
  sound : S.sound compacted.fields
  folded : ∃ snapshot snapshot', node.base.obj = some snapshot ∧
    compacted.base.obj = some snapshot' ∧
    S.replay (S.ofBase snapshot) (node.journal.take count) = (S.ofBase snapshot', true) ∧
    S.replay (S.ofBase snapshot') (node.journal.drop count) = (S.view node.fields, true)

/-- The replay of a journal that stands, cut after a prefix. -/
theorem Node.Stands.exists_cut (h : node.Stands S) (count : Nat) : ∃ snapshot middle,
    node.base.obj = some snapshot ∧
      S.replay (S.ofBase snapshot) (node.journal.take count) = (middle, true) ∧
      S.replay middle (node.journal.drop count) = (S.view node.fields, true) := by
  obtain ⟨snapshot, hbase, hreplay⟩ := h.replay
  rw [← List.take_append_drop count node.journal] at hreplay
  obtain ⟨middle, hfront, hback⟩ := S.exists_replay_of_append hreplay
  exact ⟨snapshot, middle, hbase, hfront, hback⟩

/-- What `CompactJournal` does to a Node that stands, on both of its paths. -/
theorem Node.Stands.prefixFolded (h : node.Stands S)
    (hrun : compactJournal cls node nowUs = .ok compacted) :
    PrefixFolded S node compacted (collapsiblePrefixCount node nowUs) := by
  rcases compactJournal_cases hrun with ⟨hzero, rfl⟩ | hcompacted
  · obtain ⟨snapshot, hbase, hreplay⟩ := h.replay
    rw [hzero]
    exact ⟨rfl, rfl, rfl, rfl, rfl, rfl, h.materialized, rfl, h.sound,
      snapshot, snapshot, hbase, hbase, rfl, hreplay⟩
  obtain ⟨snapshot, middle, hbase, hfront, hback⟩ :=
    h.exists_cut (collapsiblePrefixCount node nowUs)
  cases hcompacted with
  | everything hnothing hresult =>
      -- The fields already are the new base.
      rw [hnothing] at hback
      cases hback
      subst hresult
      refine ⟨rfl, rfl, hnothing.symm, rfl, rfl, rfl, rfl, rfl, h.sound, snapshot,
        cls.saveBase node.fields, hbase, rfl, ?_, ?_⟩
      · rw [S.ofBase_saveBase]
        exact hfront
      · rw [S.ofBase_saveBase, hnothing]
        rfl
  | folded snapshot' before after hloaded hstart hstartComplete hrest hrestComplete hresult =>
      cases hloaded.symm.trans hbase
      have hbefore := S.replay_of_applyRecords hstart
      rw [S.view_loadBase, hfront, hstartComplete] at hbefore
      have hafter := S.replay_of_applyRecords hrest
      rw [← (Prod.mk.inj hbefore).1, hback, hrestComplete] at hafter
      have hsound := S.sound_of_applyRecords (S.sound_of_applyRecords
        (S.sound_loadBase _ _ h.sound) hstart) hrest
      subst hresult
      refine ⟨rfl, rfl, rfl, rfl, rfl, rfl, rfl, (Prod.mk.inj hafter).1.symm, hsound,
        _, cls.saveBase before.fields, hbase, rfl, ?_, ?_⟩
      · rw [S.ofBase_saveBase, hfront, (Prod.mk.inj hbefore).1]
      · rw [S.ofBase_saveBase, ← (Prod.mk.inj hbefore).1]
        exact hback

/-- A Node that stands and has a base of its own can be compacted. -/
theorem Node.Stands.compactJournal_returns (h : node.Stands S)
    (hother : node.base.id ≠ node.objId) :
    ∃ compacted, compactJournal cls node nowUs = .ok compacted := by
  obtain ⟨snapshot, middle, hbase, hfront, hback⟩ :=
    h.exists_cut (collapsiblePrefixCount node nowUs)
  rw [← S.view_loadBase node.fields] at hfront
  obtain ⟨before, hstart, hstartComplete, hsound, rfl⟩ :=
    S.applyRecords_of_replay (S.sound_loadBase _ snapshot h.sound) hfront
  obtain ⟨after, hrest, hrestComplete, -, -⟩ := S.applyRecords_of_replay hsound hback
  exact AppTraverse.compactJournal_returns hbase h.baseValid hother hstart hstartComplete
    hrest hrestComplete

/-- A Node that stands can be rebuilt, and the rebuild changes no serialized field. -/
theorem Node.Stands.replayFromBase_returns (h : node.Stands S) :
    ∃ rebuilt, replayFromBase cls node = .ok rebuilt ∧
      S.view rebuilt.fields = S.view node.fields := by
  obtain ⟨snapshot, hbase, hreplay⟩ := h.replay
  rw [← S.view_loadBase node.fields] at hreplay
  obtain ⟨applied, hrun, hcomplete, -, hview⟩ :=
    S.applyRecords_of_replay (S.sound_loadBase _ snapshot h.sound) hreplay
  obtain ⟨rebuilt, hrebuilt⟩ := AppTraverse.replayFromBase_returns hbase hrun hcomplete
  refine ⟨rebuilt, hrebuilt, ?_⟩
  obtain ⟨known, applied', hknown, hrun', -, rfl⟩ := replayFromBase_keeps hrebuilt
  cases hknown.symm.trans hbase
  cases hrun.symm.trans hrun'
  exact hview

namespace PrefixFolded

theorem stands (hfolded : PrefixFolded S node compacted count) (h : node.Stands S) :
    compacted.Stands S where
  materialized := hfolded.materialized
  replay := by
    obtain ⟨snapshot, snapshot', -, hbase', -, hback⟩ := hfolded.folded
    refine ⟨snapshot', hbase', ?_⟩
    rw [hfolded.journal, hfolded.view]
    exact hback
  baseValid := by
    have hvalid := h.baseValid
    rw [Ref.isValid] at hvalid ⊢
    rw [hfolded.baseId]
    exact hvalid
  sound := hfolded.sound

/-- A later record is accepted by both Nodes, unless it repeats a folded one. -/
theorem accepted_iff (hfolded : PrefixFolded S node compacted count)
    {record : EventRecord ε}
    (hnew : record.hasSharedIdentity = true →
      hasRecordWithIdentity (node.journal.take count) record.identity = false) :
    RecordAccepted node.journal record ↔ RecordAccepted compacted.journal record := by
  have hsplit : record.hasSharedIdentity = true →
      hasRecordWithIdentity node.journal record.identity =
        hasRecordWithIdentity compacted.journal record.identity := by
    intro hshared
    rw [hfolded.journal]
    conv_lhs => rw [← List.take_append_drop count node.journal]
    rw [hasRecordWithIdentity, List.any_append]
    have hfront := hnew hshared
    rw [hasRecordWithIdentity] at hfront
    rw [hfront]
    rfl
  constructor
  · rintro ⟨hvalid, hloaded, htimestamp, hunknown⟩
    exact ⟨hvalid, hloaded, htimestamp, fun hshared => (hsplit hshared).symm.trans
      (hunknown hshared)⟩
  · rintro ⟨hvalid, hloaded, htimestamp, hunknown⟩
    exact ⟨hvalid, hloaded, htimestamp, fun hshared => (hsplit hshared).trans
      (hunknown hshared)⟩

/-- A record past the folded ones is put behind them. -/
theorem insertedJournal_eq (hfolded : PrefixFolded S node compacted count)
    {record : EventRecord ε} {laterUs : UInt64}
    (hlater : ∀ old ∈ node.journal.take count,
      old.order.timestampUs < record.order.timestampUs) :
    insertedJournal node record laterUs =
      node.journal.take count ++ insertedJournal compacted record laterUs := by
  rw [insertedJournal, insertedJournal, hfolded.journal]
  conv_lhs => rw [← List.take_append_drop count node.journal]
  refine lowerBoundInsert_append ?_
  intro old hold
  rw [eventRecordOrderLess_iff, stamped_order, ← UInt64.lt_iff_toNat_lt]
  exact hlater old hold

/-- A later insertion leads both Nodes to the same state. -/
theorem insertion_iff (hfolded : PrefixFolded S node compacted count) (h : node.Stands S)
    {record : EventRecord ε} {laterUs : UInt64} {state : τ}
    (hlater : ∀ old ∈ node.journal.take count,
      old.order.timestampUs < record.order.timestampUs)
    (hnew : record.hasSharedIdentity = true →
      hasRecordWithIdentity (node.journal.take count) record.identity = false) :
    (∃ after, tryInsertEvent cls node record laterUs = .ok (after, true) ∧
        S.view after.fields = state) ↔
      ∃ after, tryInsertEvent cls compacted record laterUs = .ok (after, true) ∧
        S.view after.fields = state := by
  obtain ⟨snapshot, snapshot', hbase, hbase', hfront, -⟩ := hfolded.folded
  rw [h.tryInsertEvent_iff hbase, (hfolded.stands h).tryInsertEvent_iff hbase',
    hfolded.accepted_iff hnew, hfolded.insertedJournal_eq hlater, S.replay_append hfront]

end PrefixFolded

/-- What a compaction keeps: the record list but for the folded prefix, the materialised
state, now, after a rebuild and after a later insertion, and the generation. -/
structure CompactionKeeps (S : SerializedFields cls τ) (node compacted : Node σ β ε)
    (nowUs : UInt64) (folded : List (EventRecord ε)) : Prop where
  journal : folded ++ compacted.journal = node.journal
  view : S.view compacted.fields = S.view node.fields
  generation : compacted.generation = node.generation
  rebuilt : ∃ rebuilt, replayFromBase cls compacted = .ok rebuilt ∧
    S.view rebuilt.fields = S.view node.fields
  again : compactJournal cls compacted nowUs = .ok compacted
  later : ∀ record laterUs state,
    (∀ old ∈ folded, old.order.timestampUs < record.order.timestampUs) →
    (record.hasSharedIdentity = true →
      hasRecordWithIdentity folded record.identity = false) →
    ((∃ after, tryInsertEvent cls node record laterUs = .ok (after, true) ∧
        S.view after.fields = state) ↔
      ∃ after, tryInsertEvent cls compacted record laterUs = .ok (after, true) ∧
        S.view after.fields = state)

theorem Node.Stands.compactionKeeps (h : node.Stands S)
    (hrun : compactJournal cls node nowUs = .ok compacted) :
    CompactionKeeps S node compacted nowUs
      (node.journal.take (collapsiblePrefixCount node nowUs)) := by
  have hfolded := h.prefixFolded hrun
  have hstands := hfolded.stands h
  obtain ⟨rebuilt, hrebuilt, hview⟩ := hstands.replayFromBase_returns
  refine ⟨?_, hfolded.view, hfolded.generation, ⟨rebuilt, hrebuilt, ?_⟩, ?_, ?_⟩
  · rw [hfolded.journal, List.take_append_drop]
  · rw [hview, hfolded.view]
  · have hnone := collapsiblePrefixCount_of_drop hfolded.journal hfolded.policy
      hfolded.blocked
    unfold compactJournal
    simp only [hnone, if_true]
  · intro record laterUs state hlater hnew
    exact hfolded.insertion_iff h hlater hnew

end Compaction

section Runs

variable {σ β ε τ : Type}

/-- The calls of a Node and its housekeeping. -/
inductive NodeCall (ε : Type) where
  | journal (call : JournalCall ε)
  | compactJournal (nowUs : UInt64)
  | setJournalRetentionPolicy (policy : JournalRetentionPolicy)
  | setJournalCompactionBlocked (blocked : Bool)
  | adoptMaterializedPersistentCheckpointJournal

def callStep (cls : NodeClass σ β ε) (node : Node σ β ε) :
    NodeCall ε → Option (Node σ β ε)
  | .journal call => journalStep cls node call
  | .compactJournal nowUs => (compactJournal cls node nowUs).toOption
  | .setJournalRetentionPolicy policy => some { node with journalRetentionPolicy := policy }
  | .setJournalCompactionBlocked blocked =>
      some { node with journalCompactionBlocked := blocked }
  | .adoptMaterializedPersistentCheckpointJournal =>
      some { node with appliedJournalSize := none }

variable {cls : NodeClass σ β ε} {S : SerializedFields cls τ} {node next : Node σ β ε}

theorem Node.Stands.journalStep (h : node.Stands S) {call : JournalCall ε}
    (hstep : AppTraverse.journalStep cls node call = some next) : next.Stands S := by
  have hfolds := h.toFolds.journalStep hstep
  rcases journalStep_cases hstep with ⟨record, nowUs, hinserted⟩ | hrebuilt
  · have hbase := hinserted.base
    have hobjId := hinserted.objId
    obtain ⟨applied, size, generation, -, hreplay, rfl⟩ := hinserted.replay
    refine ⟨hfolds, h.baseValid, ?_⟩
    cases hreplay with
    | appended hatEnd hrun => exact S.sound_of_applyRecords h.sound hrun
    | rebuilt snapshot hmiddle hloaded hrun =>
        exact S.sound_of_applyRecords (S.sound_loadBase _ snapshot h.sound) hrun
  · obtain ⟨snapshot, applied, -, hrun, -, rfl⟩ := replayFromBase_keeps hrebuilt
    exact ⟨hfolds, h.baseValid,
      S.sound_of_applyRecords (S.sound_loadBase _ snapshot h.sound) hrun⟩

theorem Node.Stands.callStep (h : node.Stands S) {call : NodeCall ε}
    (hstep : AppTraverse.callStep cls node call = some next) : next.Stands S := by
  cases call with
  | journal call => exact h.journalStep hstep
  | compactJournal nowUs =>
      exact (h.prefixFolded (toOption_eq_some_iff.mp hstep)).stands h
  | setJournalRetentionPolicy policy =>
      cases hstep
      exact ⟨⟨h.materialized, h.replay⟩, h.baseValid, h.sound⟩
  | setJournalCompactionBlocked blocked =>
      cases hstep
      exact ⟨⟨h.materialized, h.replay⟩, h.baseValid, h.sound⟩
  | adoptMaterializedPersistentCheckpointJournal =>
      cases hstep
      exact ⟨⟨rfl, h.replay⟩, h.baseValid, h.sound⟩

/-- No call gives a Node another base object. -/
theorem callStep_baseId (h : node.Stands S) {call : NodeCall ε}
    (hstep : callStep cls node call = some next) :
    next.base.id = node.base.id ∧ next.objId = node.objId := by
  cases call with
  | journal call =>
      rcases journalStep_cases hstep with ⟨record, nowUs, hinserted⟩ | hrebuilt
      · exact ⟨congrArg Ref.id hinserted.base, hinserted.objId⟩
      · obtain ⟨-, -, -, -, -, rfl⟩ := replayFromBase_keeps hrebuilt
        exact ⟨rfl, rfl⟩
  | compactJournal nowUs =>
      have hfolded := h.prefixFolded (toOption_eq_some_iff.mp hstep)
      exact ⟨hfolded.baseId, hfolded.objId⟩
  | setJournalRetentionPolicy policy =>
      cases hstep
      exact ⟨rfl, rfl⟩
  | setJournalCompactionBlocked blocked =>
      cases hstep
      exact ⟨rfl, rfl⟩
  | adoptMaterializedPersistentCheckpointJournal =>
      cases hstep
      exact ⟨rfl, rfl⟩

end Runs

section FoldedMessages

/-- A room with two messages that keeps the newest one. -/
def retainingRoom : List (NodeCall (SharedNodeEvent MessageAddedEvent)) :=
  [.journal (messageArrival 11 5 100).call, .journal (messageArrival 12 6 101).call,
    .setJournalRetentionPolicy ⟨1, none⟩]

/-- The folded message once more, with a later timestamp. -/
def repeatMessage (node : SharedNode Messages MessageAddedEvent) :
    Except Fault (SharedNode Messages MessageAddedEvent × Bool) :=
  tryCommitShared (chatRoom.nodeClass (idsFrom 1000)) node
    (messageArrival 11 9 103).event ⟨[7], 11⟩ ⟨9⟩ 103

end FoldedMessages

end AppTraverse
