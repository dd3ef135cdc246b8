import Mathlib.Data.List.Nodup
import AppTraverse.Journal.JournalFold
import AppTraverse.Reference.ChatReplicas
import AppTraverse.Sharing.ShareTopology

/-!
# Runs of a Node, and the order in which Events arrive

A Node that was initialised and then only committed, inserted and rebuilt is the fold of
its journal over its base.  The journal is sorted by timestamp, so replicas that hold the
same records with distinct timestamps hold the same journal, in whichever order the
records arrived, and are in the same materialised state.
-/

namespace AppTraverse

open Foundations

/-- The calls that put Events into a Node or rebuild it. -/
inductive JournalCall (ε : Type) where
  | commit (event : Ref ε) (nowUs : UInt64)
  | commitShared (event : Ref ε) (identity : SharedEventId) (order : SharedEventOrder)
      (nowUs : UInt64)
  | insertShared (event : Ref ε) (identity : SharedEventId) (order : SharedEventOrder)
      (nowUs : UInt64)
  | replayFromBase

/-- A remotely originated Event with the wall clock at its arrival. -/
structure Arrival (ε : Type) where
  event : Ref ε
  identity : SharedEventId
  order : SharedEventOrder
  nowUs : UInt64

namespace Arrival

variable {ε : Type} (arrival : Arrival ε)

def call : JournalCall ε :=
  .insertShared arrival.event arrival.identity arrival.order arrival.nowUs

def record : EventRecord ε :=
  sharedRecord arrival.event arrival.identity arrival.order arrival.nowUs

end Arrival

/-- An Event keeps the local sync states searchable. -/
theorem statesUsable_of_applyTo {α ε : Type} {app : AppClass α ε} {ids : Nat → ObjId}
    (hids : ∀ n, (ids n).isValid = true) {fields next : SharedNodeFields α} {id : ObjId}
    {event : SharedNodeEvent ε} (husable : StatesUsable fields.linkSyncStates)
    (h : app.applyTo ids fields id event = .ok next) : StatesUsable next.linkSyncStates := by
  cases event with
  | addShare link access =>
      obtain ⟨-, -, -, -, index, -, rfl⟩ := applyAddShare_eq_ok_iff.mp h
      split
      · exact husable
      · intro entry hentry
        rcases List.mem_append.mp hentry with hold | hnew
        · exact husable entry hold
        · rw [List.mem_singleton.mp hnew]
          exact ⟨hids _, rfl⟩
  | removeShare shareId =>
      obtain ⟨-, index, -, rfl⟩ := applyRemoveShare_eq_ok_iff.mp h
      exact fun entry hentry => husable entry (List.mem_of_mem_eraseIdx hentry)
  | changeShareAccess shareId access =>
      obtain ⟨-, rfl⟩ := applyChangeShareAccess_eq_ok_iff.mp h
      exact husable
  | app event =>
      cases h
      exact husable

/-- An Event whose precondition holds is applied, where the local sync states can be
searched. -/
theorem exists_applyTo_of_found {α ε : Type} {app : AppClass α ε} {ids : Nat → ObjId}
    {fields : SharedNodeFields α} {id : ObjId} {event : SharedNodeEvent ε}
    (hfound : ∀ id, ∃ index, findLinkSyncIndexForShare fields.linkSyncStates id = .ok index)
    (hadmits : SharedAdmits app fields.shared id event) :
    ∃ next, app.applyTo ids fields id event = .ok next := by
  cases event with
  | addShare link access =>
      obtain ⟨hlink, hvalid, hclosed, hunshared⟩ := hadmits
      obtain ⟨index, hindex⟩ := hfound id
      exact ⟨_, applyAddShare_eq_ok_iff.mpr
        ⟨hlink, hvalid, hclosed, hunshared, index, hindex, rfl⟩⟩
  | removeShare shareId =>
      obtain ⟨index, hindex⟩ := hfound shareId
      exact ⟨_, applyRemoveShare_eq_ok_iff.mpr ⟨hadmits, index, hindex, rfl⟩⟩
  | changeShareAccess shareId access =>
      exact ⟨_, applyChangeShareAccess_eq_ok_iff.mpr ⟨hadmits, rfl⟩⟩
  | app event => exact ⟨_, rfl⟩

section SharedFields

variable {α ε : Type} (app : AppClass α ε) (ids : Nat → ObjId)

theorem applyTo_shared (fields : SharedNodeFields α) (id : ObjId) (event : SharedNodeEvent ε)
    (next : SharedNodeFields α) (hcan : (app.nodeClass ids).canApplyTo fields event = true)
    (happly : (app.nodeClass ids).applyTo fields id event = .ok next) :
    sharedStep app fields.shared id event = some next.shared :=
  sharedStep_eq_some_iff.mpr (sharedStep_of_applyTo hcan happly)

theorem loadBase_shared (fields : SharedNodeFields α) (snapshot : BaseSnapshot α) :
    ((app.nodeClass ids).loadBase fields snapshot).shared = snapshot.toSharedState := rfl

theorem saveBase_shared (fields : SharedNodeFields α) :
    ((app.nodeClass ids).saveBase fields).toSharedState = fields.shared := rfl

end SharedFields

/-- The serialized fields of a SharedNode: the shared state.  Its local sync states are
kept across a rebuild, and an Event only needs to be able to search them. -/
def AppClass.serializedFields {α ε : Type} (app : AppClass α ε) (ids : Nat → ObjId)
    (hids : ∀ n, (ids n).isValid = true) :
    SerializedFields (app.nodeClass ids) (SharedState α) where
  view := SharedNodeFields.shared
  ofBase snapshot := snapshot.toSharedState
  canApply state event := match event with
    | .app event => app.canApply state.app event
    | _ => true
  apply state id event := sharedStep app state id event
  sound fields := StatesUsable fields.linkSyncStates
  canApplyTo_eq fields event := by cases event <;> rfl
  apply_view := applyTo_shared app ids
  applyTo_returns fields id event state husable hcan happly := exists_applyTo_of_found
    (fun id => ⟨_, findLinkSyncIndexForShare_eq_findIdx husable id⟩)
    (sharedStep_eq_some_iff.mp happly).1
  sound_applyTo fields id event next := statesUsable_of_applyTo hids
  sound_loadBase fields snapshot husable := by
    intro entry hentry
    exact husable entry (List.mem_filter.mp hentry).1
  view_loadBase := loadBase_shared app ids
  ofBase_saveBase := saveBase_shared app ids

section Runs

variable {σ β ε τ : Type} (cls : NodeClass σ β ε)

/-- A call that succeeds; one that asserts has no next state. -/
def journalStep (node : Node σ β ε) : JournalCall ε → Option (Node σ β ε)
  | .commit event nowUs => (commit cls node event nowUs).toOption
  | .commitShared event identity order nowUs =>
      (commitShared cls node event identity order nowUs).toOption
  | .insertShared event identity order nowUs =>
      (commitShared cls node event identity order nowUs).toOption
  | .replayFromBase => (replayFromBase cls node).toOption

variable {cls} {S : SerializedFields cls τ} {node next : Node σ β ε}

/-- Inversion of a call: a record was inserted, or the Node was rebuilt. -/
theorem journalStep_cases {call : JournalCall ε} (h : journalStep cls node call = some next) :
    (∃ record nowUs, RecordInserted cls node record nowUs next) ∨
      replayFromBase cls node = .ok next := by
  cases call with
  | commit event nowUs =>
      obtain ⟨-, hinserted⟩ := recordInserted_of_commit (toOption_eq_some_iff.mp h)
      exact Or.inl ⟨_, nowUs, hinserted⟩
  | commitShared event identity order nowUs =>
      obtain ⟨-, -, hinserted⟩ := recordInserted_of_commitShared (toOption_eq_some_iff.mp h)
      exact Or.inl ⟨_, nowUs, hinserted⟩
  | insertShared event identity order nowUs =>
      obtain ⟨-, -, hinserted⟩ := recordInserted_of_commitShared (toOption_eq_some_iff.mp h)
      exact Or.inl ⟨_, nowUs, hinserted⟩
  | replayFromBase => exact Or.inr (toOption_eq_some_iff.mp h)

theorem Node.Folds.journalStep (h : node.Folds S) {call : JournalCall ε}
    (hstep : AppTraverse.journalStep cls node call = some next) : next.Folds S := by
  rcases journalStep_cases hstep with ⟨record, nowUs, hinserted⟩ | hrebuilt
  · exact h.recordInserted hinserted
  · exact .of_replayFromBase hrebuilt

/-- A call leaves the base alone and the journal in order. -/
theorem journalStep_keeps {call : JournalCall ε} (hsorted : JournalSorted node.journal)
    (hstep : journalStep cls node call = some next) :
    JournalSorted next.journal ∧ next.base = node.base := by
  rcases journalStep_cases hstep with ⟨record, nowUs, hinserted⟩ | hrebuilt
  · exact ⟨hinserted.sorted hsorted, hinserted.base⟩
  · obtain ⟨-, -, -, -, -, rfl⟩ := replayFromBase_keeps hrebuilt
    exact ⟨hsorted, rfl⟩

/-- After every run the fields are the fold of the journal over the base. -/
theorem Node.Folds.journalRun (h : node.Folds S) (hsorted : JournalSorted node.journal)
    {calls : List (JournalCall ε)} {final : Node σ β ε}
    (hrun : runActions (AppTraverse.journalStep cls) node calls = some final) :
    final.Folds S ∧ JournalSorted final.journal ∧ final.base = node.base := by
  refine runActions_preserves (fun reached => reached.Folds S ∧
    JournalSorted reached.journal ∧ reached.base = node.base) ?_ ⟨h, hsorted, rfl⟩ hrun
  rintro state call after ⟨hstate, hstateSorted, hbase⟩ hstep
  obtain ⟨hafterSorted, hkept⟩ := journalStep_keeps hstateSorted hstep
  exact ⟨hstate.journalStep hstep, hafterSorted, hkept.trans hbase⟩

/-- Sorted journals of the same shared records with distinct timestamps are the same. -/
theorem shared_eq_of_perm {journal journal' : List (EventRecord ε)}
    (hsorted : JournalSorted journal) (hsorted' : JournalSorted journal')
    (hdistinct : DistinctTimestamps journal)
    (hperm : (journal.map EventRecord.shared).Perm (journal'.map EventRecord.shared)) :
    journal.map EventRecord.shared = journal'.map EventRecord.shared := by
  have hshared : ∀ {records : List (EventRecord ε)}, JournalSorted records →
      JournalSorted (records.map EventRecord.shared) := by
    intro records hrecords
    rw [JournalSorted, List.pairwise_map]
    exact hrecords
  have hkey : ∀ a ∈ journal.map EventRecord.shared, ∀ b ∈ journal.map EventRecord.shared,
      a.order.timestampUs = b.order.timestampUs → a = b := by
    have hmapped : ((journal.map EventRecord.shared).map
        fun record => record.order.timestampUs).Nodup := by
      rw [List.map_map]
      exact hdistinct
    exact List.inj_on_of_nodup_map hmapped
  refine List.Perm.eq_of_pairwise ?_ (hshared hsorted) (hshared hsorted') hperm
  intro a b ha hb hab hba
  exact hkey a ha b (hperm.mem_iff.mpr hb) (UInt64.toNat_inj.mp (Nat.le_antisymm hab hba))

/-- The same for whole records, with their retention stamps. -/
theorem journal_eq_of_perm {journal journal' : List (EventRecord ε)}
    (hsorted : JournalSorted journal) (hsorted' : JournalSorted journal')
    (hdistinct : DistinctTimestamps journal) (hperm : journal.Perm journal') :
    journal = journal' := by
  refine List.Perm.eq_of_pairwise ?_ hsorted hsorted' hperm
  intro a b ha hb hab hba
  exact List.inj_on_of_nodup_map hdistinct ha (hperm.mem_iff.mpr hb)
    (UInt64.toNat_inj.mp (Nat.le_antisymm hab hba))

theorem stamped_sharedRecord {event : Ref ε} {identity : SharedEventId}
    {order : SharedEventOrder} {nowUs : UInt64} :
    (sharedRecord event identity order nowUs).stamped nowUs =
      sharedRecord event identity order nowUs := by
  unfold EventRecord.stamped
  split <;> rfl

/-- A run of arrivals adds exactly their records to the journal. -/
theorem journal_of_arrivals {arrivals : List (Arrival ε)} {final : Node σ β ε}
    (hrun : runActions (journalStep cls) node (arrivals.map Arrival.call) = some final) :
    final.journal.Perm (arrivals.map Arrival.record ++ node.journal) := by
  induction arrivals generalizing node with
  | nil =>
      cases hrun
      exact List.Perm.refl _
  | cons arrival rest ih =>
      obtain ⟨middle, hmiddle, hrest⟩ := runActions_cons.mp hrun
      obtain ⟨-, -, hinserted⟩ := recordInserted_of_commitShared (toOption_eq_some_iff.mp hmiddle)
      have hjournal : middle.journal.Perm (arrival.record :: node.journal) := by
        rw [hinserted.journal, insertedJournal, stamped_sharedRecord]
        exact lowerBoundInsert_perm _ _ _
      calc final.journal.Perm (rest.map Arrival.record ++ middle.journal) := ih hrest
        List.Perm _ (rest.map Arrival.record ++ arrival.record :: node.journal) :=
          hjournal.append_left _
        List.Perm _ (arrival.record :: (rest.map Arrival.record ++ node.journal)) :=
          List.perm_middle

/-- Folds of the same base and the same shared records are in the same state. -/
theorem Node.Folds.view_eq {node' : Node σ β ε} (h : node.Folds S) (h' : node'.Folds S)
    {snapshot snapshot' : β} (hbase : node.base.obj = some snapshot)
    (hbase' : node'.base.obj = some snapshot')
    (hsame : S.ofBase snapshot = S.ofBase snapshot')
    (hjournal : node.journal.map EventRecord.shared = node'.journal.map EventRecord.shared) :
    S.view node.fields = S.view node'.fields := by
  obtain ⟨known, hknown, hreplay⟩ := h.replay
  obtain ⟨known', hknown', hreplay'⟩ := h'.replay
  cases hknown.symm.trans hbase
  cases hknown'.symm.trans hbase'
  rw [← S.replay_shared, hjournal, S.replay_shared, hsame, hreplay'] at hreplay
  exact (Prod.mk.inj hreplay).1.symm

/-- The fields of a Node are `Apply` folded over its journal, in every run from a new base;
and runs that bring the same shared Events with distinct timestamps, in whatever order,
end with the same journal and the same fields. -/
theorem materializedState_isFold_anyOrder (S : SerializedFields cls τ)
    {objId baseId objId' baseId' : ObjId} {classId classId' : ClassId} {fields fields' : σ}
    (hfields : S.view fields = S.view fields') :
    (∀ calls (node : Node σ β ε), runActions (journalStep cls)
        (initializeRuntimeNode cls objId classId baseId fields) calls = some node →
      S.fold (S.view fields) node.journal = some (S.view node.fields)) ∧
    (∀ (arrivals arrivals' : List (Arrival ε)) (node node' : Node σ β ε),
      ((arrivals.map Arrival.record).map EventRecord.shared).Perm
        ((arrivals'.map Arrival.record).map EventRecord.shared) →
      DistinctTimestamps (arrivals.map Arrival.record) →
      runActions (journalStep cls) (initializeRuntimeNode cls objId classId baseId fields)
        (arrivals.map Arrival.call) = some node →
      runActions (journalStep cls) (initializeRuntimeNode cls objId' classId' baseId' fields')
        (arrivals'.map Arrival.call) = some node' →
      node.journal.map EventRecord.shared = node'.journal.map EventRecord.shared ∧
        ((arrivals.map Arrival.record).Perm (arrivals'.map Arrival.record) →
          node.journal = node'.journal) ∧
        S.view node.fields = S.view node'.fields) := by
  have hstart : (initializeRuntimeNode cls objId classId baseId fields :
      Node σ β ε).Folds S := folds_initializeRuntimeNode
  have hstart' : (initializeRuntimeNode cls objId' classId' baseId' fields' :
      Node σ β ε).Folds S := folds_initializeRuntimeNode
  constructor
  · intro calls node hrun
    obtain ⟨hfolds, -, hbase⟩ := hstart.journalRun List.Pairwise.nil hrun
    obtain ⟨snapshot, hsnapshot, hreplay⟩ := hfolds.replay
    rw [hbase] at hsnapshot
    cases hsnapshot
    rw [S.ofBase_saveBase] at hreplay
    exact S.fold_of_replay hreplay
  · intro arrivals arrivals' node node' hsame hdistinct hrun hrun'
    obtain ⟨hfolds, hsorted, hbase⟩ := hstart.journalRun List.Pairwise.nil hrun
    obtain ⟨hfolds', hsorted', hbase'⟩ := hstart'.journalRun List.Pairwise.nil hrun'
    have hjournal : node.journal.Perm (arrivals.map Arrival.record) := by
      have hall := journal_of_arrivals hrun
      rwa [show (initializeRuntimeNode cls objId classId baseId fields :
        Node σ β ε).journal = [] from rfl, List.append_nil] at hall
    have hjournal' : node'.journal.Perm (arrivals'.map Arrival.record) := by
      have hall := journal_of_arrivals hrun'
      rwa [show (initializeRuntimeNode cls objId' classId' baseId' fields' :
        Node σ β ε).journal = [] from rfl, List.append_nil] at hall
    have hnodup : DistinctTimestamps node.journal :=
      (hjournal.map _).nodup_iff.mpr hdistinct
    have hperm : (node.journal.map EventRecord.shared).Perm
        (node'.journal.map EventRecord.shared) := by
      exact ((hjournal.map _).trans hsame).trans (hjournal'.map _).symm
    have hshared := shared_eq_of_perm hsorted hsorted' hnodup hperm
    refine ⟨hshared, ?_, ?_⟩
    · intro hstamps
      exact journal_eq_of_perm hsorted hsorted' hnodup
        ((hjournal.trans hstamps).trans hjournal'.symm)
    · have hsnapshot : node.base.obj = some (cls.saveBase fields) := by
        rw [hbase]
        rfl
      have hsnapshot' : node'.base.obj = some (cls.saveBase fields') := by
        rw [hbase']
        rfl
      refine hfolds.view_eq hfolds' hsnapshot hsnapshot' ?_ hshared
      rw [S.ofBase_saveBase, S.ofBase_saveBase, hfields]

end Runs

/-- The ids that the Domain of a room generates are valid. -/
theorem roomIds_valid (n : Nat) : (idsFrom 1000 n).isValid = true :=
  forall_idsFrom (fun id => id.isValid = true) 1000 (by decide) n

/-- A message of a peer, arriving at the given time. -/
def messageArrival (sequence timestampUs nowUs : UInt64) :
    Arrival (SharedNodeEvent MessageAddedEvent) where
  event := ⟨⟨sequence.toUInt32⟩, some (.app ⟨⟨⟨[7], sequence⟩, timestampUs, [104]⟩⟩)⟩
  identity := ⟨[7], sequence⟩
  order := ⟨timestampUs⟩
  nowUs := nowUs

/-- A new room. -/
def blankRoom : SharedNode Messages MessageAddedEvent :=
  initializeRuntimeNode (chatRoom.nodeClass (idsFrom 1000)) ⟨1⟩ chatRoomClassId ⟨2⟩ ⟨[], [], [], []⟩

/-- Three messages that arrive in the order of their timestamps. -/
def inOrder : List (Arrival (SharedNodeEvent MessageAddedEvent)) :=
  [messageArrival 11 5 100, messageArrival 12 6 101, messageArrival 13 9 102]

/-- The same messages, the last one first. -/
def outOfOrder : List (Arrival (SharedNodeEvent MessageAddedEvent)) :=
  [messageArrival 13 9 200, messageArrival 11 5 201, messageArrival 12 6 202]

theorem messages_isFold_anyOrder :
    ∃ node node', runActions (journalStep (chatRoom.nodeClass (idsFrom 1000))) blankRoom
        (inOrder.map Arrival.call) = some node ∧
      runActions (journalStep (chatRoom.nodeClass (idsFrom 1000))) blankRoom
        (outOfOrder.map Arrival.call) = some node' ∧
      (chatRoom.serializedFields _ roomIds_valid).fold ⟨[], []⟩ node.journal =
        some node.fields.shared ∧
      node.fields.shared = node'.fields.shared := by
  have hsome : (runActions (journalStep (chatRoom.nodeClass (idsFrom 1000))) blankRoom
      (inOrder.map Arrival.call)).isSome = true := by decide
  have hsome' : (runActions (journalStep (chatRoom.nodeClass (idsFrom 1000))) blankRoom
      (outOfOrder.map Arrival.call)).isSome = true := by decide
  obtain ⟨node, hrun⟩ := Option.isSome_iff_exists.mp hsome
  obtain ⟨node', hrun'⟩ := Option.isSome_iff_exists.mp hsome'
  obtain ⟨hfold, horder⟩ := materializedState_isFold_anyOrder
    (chatRoom.serializedFields _ roomIds_valid) rfl
  have hsame := horder inOrder outOfOrder node node' (by decide) (by decide) hrun hrun'
  exact ⟨node, node', hrun, hrun', hfold _ node hrun, hsame.2.2⟩

end AppTraverse
