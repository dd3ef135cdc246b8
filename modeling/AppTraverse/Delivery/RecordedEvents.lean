import AppTraverse.Delivery.Authority
import AppTraverse.Delivery.SyncOutcomes
import AppTraverse.Runtime.ReplicaRuns

/-!
# Recorded Events along a run

A shared record that both the registered and the saved Node have stays in both, for
as long as no journal is compacted.  Insertions keep the records they find and refuse
an identity that is there; the commits on sync states do not touch journals; a Node
that is admitted is another one; and a restart loads what was saved.
-/

namespace AppTraverse

open Foundations

variable {α ε : Type} {aether : Aether α ε} {app : AppClass α ε}

/-- Records of another identity are inserted around the first record of an identity. -/
theorem find?_lowerBoundInsert {τ : Type} {less : τ → τ → Bool} {p : τ → Bool} {x : τ}
    (hx : p x = false) (l : List τ) :
    (lowerBoundInsert less x l).find? p = l.find? p := by
  obtain ⟨before, after, hl, hinsert⟩ := exists_lowerBoundInsert_split less x l
  rw [hinsert, hl, List.find?_append, List.find?_append, List.find?_cons_of_neg]
  simp [hx]

section Journal

variable {node node' : SharedNode α ε} {identity : SharedEventId}
  {record : EventRecord (SharedNodeEvent ε)}

/-- The Node has this class, and this record is the one of the identity. -/
structure HasRecord (node : SharedNode α ε) (classId : ClassId) (identity : SharedEventId)
    (record : EventRecord (SharedNodeEvent ε)) : Prop where
  classId_eq : node.classId = classId
  found : findSharedEvent node identity = some record

variable {classId : ClassId}

theorem HasRecord.of_sameJournal (h : HasRecord node classId identity record)
    (hclass : node'.classId = node.classId) (hjournal : node'.journal = node.journal) :
    HasRecord node' classId identity record := by
  refine ⟨hclass.trans h.classId_eq, ?_⟩
  have hfound := h.found
  rw [findSharedEvent] at hfound ⊢
  rw [hjournal]
  exact hfound

/-- The test that `FindSharedEvent` searches with. -/
def isRecordOf (identity : SharedEventId) (record : EventRecord (SharedNodeEvent ε)) : Bool :=
  record.hasSharedIdentity && decide (record.identity = identity)

theorem findSharedEvent_eq (node : SharedNode α ε) (horigin : identity.originUid ≠ []) :
    findSharedEvent node identity = node.journal.find? (isRecordOf identity) := by
  rw [findSharedEvent, if_neg]
  · rfl
  · rw [List.isEmpty_iff]
    exact horigin

theorem originUid_of_findSharedEvent (h : findSharedEvent node identity = some record) :
    identity.originUid ≠ [] := by
  intro hnil
  simp [findSharedEvent, hnil] at h

/-- The record that is found has the identity. -/
theorem identity_of_findSharedEvent (h : findSharedEvent node identity = some record) :
    record ∈ node.journal ∧ record.hasSharedIdentity = true ∧ record.identity = identity := by
  rw [findSharedEvent_eq node (originUid_of_findSharedEvent h)] at h
  have htest := List.find?_some h
  rw [isRecordOf, Bool.and_eq_true, decide_eq_true_eq] at htest
  exact ⟨List.mem_of_find?_eq_some h, htest⟩

/-- An insertion keeps every shared record: its own identity was not there. -/
theorem HasRecord.of_recordInserted {cls : NodeClass (SharedNodeFields α) (BaseSnapshot α)
    (SharedNodeEvent ε)} {added : EventRecord (SharedNodeEvent ε)} {nowUs : UInt64}
    (h : HasRecord node classId identity record)
    (hinserted : RecordInserted cls node added nowUs node') :
    HasRecord node' classId identity record := by
  refine ⟨hinserted.classId.trans h.classId_eq, ?_⟩
  have hfound := h.found
  have horigin := originUid_of_findSharedEvent hfound
  obtain ⟨hmem, hshared, hidentity⟩ := identity_of_findSharedEvent hfound
  have hother : isRecordOf identity (added.stamped nowUs) = false := by
    rw [isRecordOf, stamped_hasSharedIdentity, stamped_identity]
    by_contra htest
    rw [Bool.not_eq_false, Bool.and_eq_true, decide_eq_true_eq] at htest
    have hunknown := hinserted.unknown htest.1
    rw [hasRecordWithIdentity, List.any_eq_false] at hunknown
    apply hunknown record hmem
    simp [hshared, hidentity, htest.2]
  rw [findSharedEvent_eq _ horigin] at hfound ⊢
  rw [hinserted.journal, insertedJournal, find?_lowerBoundInsert hother]
  exact hfound

/-- An inserted shared record is the one that its identity finds. -/
theorem hasRecord_of_commitShared {cls : NodeClass (SharedNodeFields α) (BaseSnapshot α)
    (SharedNodeEvent ε)} {event : Ref (SharedNodeEvent ε)} {order : SharedEventOrder}
    {nowUs : UInt64} (hunknown : findSharedEvent node identity = none)
    (horigin : identity.originUid ≠ [])
    (hinserted : RecordInserted cls node (sharedRecord event identity order nowUs) nowUs
      node') :
    HasRecord node' node.classId identity
      ((sharedRecord event identity order nowUs).stamped nowUs) := by
  refine ⟨hinserted.classId, ?_⟩
  have hnew : isRecordOf identity
      ((sharedRecord event identity order nowUs).stamped nowUs) = true := by
    simp [isRecordOf, sharedRecord, EventRecord.hasSharedIdentity, horigin]
  obtain ⟨before, after, hl, hinsert⟩ := exists_lowerBoundInsert_split eventRecordOrderLess
    ((sharedRecord event identity order nowUs).stamped nowUs) node.journal
  rw [findSharedEvent_eq _ horigin, hl, List.find?_append, Option.or_eq_none_iff] at hunknown
  rw [findSharedEvent_eq _ horigin, hinserted.journal, insertedJournal, hinsert,
    List.find?_append, hunknown.1, Option.none_or, List.find?_cons_of_pos hnew]

/-- Every operation but a compaction keeps the journal or inserts a record. -/
theorem journal_of_run {ids : Nat → ObjId} {nowUs : UInt64} {operation : NodeOperation ε}
    (hkeeps : operation ≠ .compactJournal)
    (h : operation.run app ids nowUs node = .ok node') :
    (∃ added, RecordInserted (app.nodeClass ids) node added nowUs node') ∨
      (node'.classId = node.classId ∧ node'.journal = node.journal) := by
  have hcommit : ∀ {event : Ref (SharedNodeEvent ε)},
      commit (app.nodeClass ids) node event nowUs = .ok node' →
      ∃ added, RecordInserted (app.nodeClass ids) node added nowUs node' :=
    fun h => ⟨_, (recordInserted_of_commit h).2⟩
  have hsame : (.ok node : Except Fault _) = .ok node' →
      node'.classId = node.classId ∧ node'.journal = node.journal := by
    intro h
    cases h
    exact ⟨rfl, rfl⟩
  cases operation with
  | addShare link access eventId =>
      simp only [NodeOperation.run, addShare, except_bind_eq_ok_iff] at h
      obtain ⟨-, -, h⟩ := h
      split at h
      case isTrue => exact Or.inr (hsame h)
      case isFalse => exact Or.inl (hcommit h)
  | removeShare linkId eventId =>
      simp only [NodeOperation.run, removeShare, except_bind_eq_ok_iff] at h
      obtain ⟨-, -, h⟩ := h
      split at h
      case h_1 => exact Or.inr (hsame h)
      case h_2 => exact Or.inl (hcommit h)
  | setShareAccess linkId access eventId =>
      simp only [NodeOperation.run, setShareAccess, except_bind_eq_ok_iff] at h
      obtain ⟨-, -, h⟩ := h
      split at h
      case h_1 => cases h
      case h_2 =>
        split at h
        case isTrue => exact Or.inr (hsame h)
        case isFalse => exact Or.inl (hcommit h)
  | commit event => exact Or.inl (hcommit h)
  | commitShared event identity order =>
      exact Or.inl ⟨_, (recordInserted_of_commitShared h).2.2⟩
  | replayFromBase =>
      obtain ⟨snapshot, applied, -, -, -, rfl⟩ := replayFromBase_keeps h
      exact Or.inr ⟨rfl, rfl⟩
  | compactJournal => exact absurd rfl hkeeps
  | setJournalRetentionPolicy policy =>
      cases h
      exact Or.inr ⟨rfl, rfl⟩
  | setJournalCompactionBlocked blocked =>
      cases h
      exact Or.inr ⟨rfl, rfl⟩

end Journal

section Registry

variable {nodes : List (SharedNode α ε)} {nodeId : ObjId} {classId : ClassId}
  {identity : SharedEventId} {record : EventRecord (SharedNodeEvent ε)}

/-- A saved Node is found in storage. -/
theorem findNode_saveNodeValue (nodes : List (SharedNode α ε)) (saved : SharedNode α ε) :
    findNode (saveNodeValue nodes saved) saved.objId = some saved := by
  unfold saveNodeValue
  split
  case isTrue hany =>
    obtain ⟨other, hother, hid⟩ := List.any_eq_true.mp hany
    have hfound : (findNode nodes saved.objId).isSome = true := by
      rw [findNode, List.find?_isSome]
      exact ⟨other, hother, hid⟩
    obtain ⟨found, hfound⟩ := Option.isSome_iff_exists.mp hfound
    rw [findNode_replaceNode, hfound, Option.map_some, if_pos (objId_of_findNode hfound)]
  case isFalse hany =>
    have hnone : nodes.find? (fun other => decide (other.objId = saved.objId)) = none := by
      rw [List.find?_eq_none]
      intro other hother hid
      exact hany (List.any_eq_true.mpr ⟨other, hother, hid⟩)
    rw [findNode, List.find?_append, hnone, Option.none_or, List.find?_singleton,
      if_pos (decide_eq_true rfl)]

/-- The Node of this id has the record. -/
def NodeHasRecord (nodes : List (SharedNode α ε)) (nodeId : ObjId) (classId : ClassId)
    (identity : SharedEventId) (record : EventRecord (SharedNodeEvent ε)) : Prop :=
  ∃ node, findNode nodes nodeId = some node ∧ HasRecord node classId identity record

theorem NodeHasRecord.replaceNode {committed : SharedNode α ε}
    (h : NodeHasRecord nodes nodeId classId identity record)
    (hcommitted : committed.objId = nodeId → HasRecord committed classId identity record) :
    NodeHasRecord (replaceNode nodes committed) nodeId classId identity record := by
  obtain ⟨node, hfound, hrecord⟩ := h
  rw [NodeHasRecord, findNode_replaceNode, hfound, Option.map_some]
  refine ⟨_, rfl, ?_⟩
  split
  case isTrue hsame => exact hcommitted (hsame.symm.trans (objId_of_findNode hfound))
  case isFalse => exact hrecord

theorem NodeHasRecord.saveNodeValue {saved : SharedNode α ε}
    (h : NodeHasRecord nodes nodeId classId identity record)
    (hsaved : saved.objId = nodeId → HasRecord saved classId identity record) :
    NodeHasRecord (saveNodeValue nodes saved) nodeId classId identity record := by
  unfold AppTraverse.saveNodeValue
  split
  case isTrue => exact h.replaceNode hsaved
  case isFalse =>
    obtain ⟨node, hfound, hrecord⟩ := h
    exact ⟨node, findNode_append_of_found hfound, hrecord⟩

/-- A change of every Node that keeps ids, classes and journals keeps records. -/
theorem NodeHasRecord.map {change : SharedNode α ε → SharedNode α ε}
    (h : NodeHasRecord nodes nodeId classId identity record)
    (hchange : ∀ node, (change node).objId = node.objId ∧
      (change node).classId = node.classId ∧ (change node).journal = node.journal) :
    NodeHasRecord (nodes.map change) nodeId classId identity record := by
  obtain ⟨node, hfound, hrecord⟩ := h
  refine ⟨change node, ?_, hrecord.of_sameJournal (hchange node).2.1 (hchange node).2.2⟩
  have hid : ((fun node => decide (node.objId = nodeId)) ∘ change) =
      fun node : SharedNode α ε => decide (node.objId = nodeId) := by
    funext other
    show decide ((change other).objId = nodeId) = decide (other.objId = nodeId)
    rw [(hchange other).1]
  rw [findNode] at hfound ⊢
  rw [List.find?_map, hid, hfound, Option.map_some]

/-- The effect saves no Node of this id without the record. -/
def Effect.KeepsRecord (nodeId : ObjId) (classId : ClassId) (identity : SharedEventId)
    (record : EventRecord (SharedNodeEvent ε)) : Effect α ε → Prop
  | .saveNode node => node.objId = nodeId → HasRecord node classId identity record
  | _ => True

/-- Effects that keep the record keep it in storage. -/
theorem NodeHasRecord.perform {effects : List (Effect α ε)} {storage : ReplicaStorage α ε}
    (h : NodeHasRecord storage.nodes nodeId classId identity record)
    (heffects : ∀ effect ∈ effects, effect.KeepsRecord nodeId classId identity record) :
    NodeHasRecord (effects.foldl ReplicaStorage.perform storage).nodes nodeId classId
      identity record := by
  induction effects generalizing storage with
  | nil => exact h
  | cons effect rest ih =>
      rw [List.forall_mem_cons] at heffects
      apply ih ?_ heffects.2
      cases effect with
      | commitObjectGraph graph => exact h
      | storeObject id layers => exact h
      | saveNode node => exact h.saveNodeValue heffects.1
      | saveLinkSyncState savedId state =>
          apply h.map
          intro node
          split <;> exact ⟨rfl, rfl, rfl⟩
      | bindNode endpoint node bound => exact h
      | send destination bytes => exact h

end Registry

section Reception

variable {env : StepEnv} {replica : Replica α ε} {runtime runtime' : SharedSyncRuntime α ε}
  {sourceEndpoint : Bytes}

/-- The runtime belongs to the same endpoint and takes the same classes of Events. -/
def SameSettings (runtime runtime' : SharedSyncRuntime α ε) : Prop :=
  runtime'.localEndpoint = runtime.localEndpoint ∧
    runtime'.standaloneEventClasses = runtime.standaloneEventClasses

theorem sameSettings_nodes (runtime : SharedSyncRuntime α ε) (nodes : List (SharedNode α ε)) :
    SameSettings runtime { runtime with nodes := nodes } := ⟨rfl, rfl⟩

variable {allowed : Effect α ε → Prop}

theorem bindAndAcknowledge_keeps
    (hallowed : ∀ effect, (∀ node, effect ≠ .saveNode node) → allowed effect)
    (hsame : SameSettings runtime runtime') (node : SharedNode α ε) (frame : NodeStateFrame) :
    (bindAndAcknowledge env runtime' node sourceEndpoint frame).Ensures allowed
      (SameSettings runtime) := by
  have hask : (perform (.bindNode sourceEndpoint node env.bound) : RuntimeM α ε Unit).Ensures
      allowed fun _ => True := EffectLog.ensures_emit (hallowed _ (by simp))
  have hack : (sendAck sourceEndpoint frame.packetId frame.targetNodeId
      frame.destinationShareId : RuntimeM α ε Unit).Ensures allowed fun _ => True :=
    EffectLog.ensures_emit (hallowed _ (by simp))
  unfold bindAndAcknowledge
  split
  case h_1 => exact hack.bind fun _ _ => EffectLog.ensures_pure hsame
  case h_2 expectation =>
    split
    case isTrue => exact EffectLog.ensures_pure hsame
    case isFalse =>
      refine hask.bind fun _ _ => ?_
      split
      case isTrue => exact EffectLog.ensures_pure hsame
      case isFalse => exact hack.bind fun _ _ => EffectLog.ensures_pure hsame

/-- Registering an imported Node saves no Node but that one. -/
theorem onNodeStateOfImportedNode_keeps
    (hallowed : ∀ effect, (∀ node, effect ≠ .saveNode node) → allowed effect)
    (runtime : SharedSyncRuntime α ε) (imported : ImportedNode α ε) (frame : NodeStateFrame)
    (hsave : ∀ node : SharedNode α ε, node.objId = imported.node.objId →
      allowed (.saveNode node)) :
    (onNodeStateOfImportedNode env runtime imported sourceEndpoint frame).Ensures allowed
      (SameSettings runtime) := by
  unfold onNodeStateOfImportedNode
  refine EffectLog.ensures_lift.bind fun _ _ => ?_
  refine EffectLog.ensures_lift.bind fun outcome hcompleted => ?_
  obtain ⟨completed, sourceIndex⟩ := outcome
  have hid := (sameShared_of_completeSourceState hcompleted).objId
  simp only
  split
  case h_1 => exact EffectLog.ensures_fault _
  case h_2 sourceState hentry =>
    have hsource : (perform (.saveLinkSyncState completed.objId sourceState) :
        RuntimeM α ε Unit).Ensures allowed fun _ => True :=
      EffectLog.ensures_emit (hallowed _ (by simp))
    refine hsource.bind fun _ _ => EffectLog.ensures_lift.bind fun found _ => ?_
    obtain ⟨index, state⟩ := found
    simp only
    split
    case isFalse => exact bindAndAcknowledge_keeps hallowed (sameSettings_nodes runtime _) _ _
    case isTrue =>
      split
      case isTrue => exact EffectLog.ensures_pure ⟨rfl, rfl⟩
      case isFalse =>
        refine EffectLog.ensures_lift.bind fun _ _ =>
          EffectLog.ensures_lift.bind fun noted hnoted => ?_
        have hnotedId := (sameShared_of_commitLinkSyncEvent hnoted).objId.trans hid
        have hsaved : (perform (.saveNode noted) : RuntimeM α ε Unit).Ensures allowed
            fun _ => True := EffectLog.ensures_emit (hsave noted hnotedId)
        exact hsaved.bind fun _ _ => bindAndAcknowledge_keeps hallowed (sameSettings_nodes runtime _) _ _

/-- A NodeState frame saves the Node it names if that Node is new, and no Node
otherwise. -/
theorem onNodeState_keeps (aether : Aether α ε) (app : AppClass α ε) (env : StepEnv)
    (sourceEndpoint : Bytes)
    (hallowed : ∀ effect, (∀ node, effect ≠ .saveNode node) → allowed effect)
    (replica : Replica α ε) (frame : NodeStateFrame)
    (hsave : findNode replica.runtime.nodes frame.targetNodeId = none →
      ∀ node : SharedNode α ε, node.objId = frame.targetNodeId → allowed (.saveNode node)) :
    (onNodeState aether app env replica sourceEndpoint frame).Ensures allowed
      (SameSettings replica.runtime) := by
  unfold onNodeState
  cases hfound : findNode replica.runtime.nodes frame.targetNodeId with
  | some node =>
      simp only
      rcases onNodeStateOfKnownNode_cases env sourceEndpoint hfound with
        ⟨-, heq⟩ | ⟨-, heffects, hkept⟩
      · rw [heq]
        exact bindAndAcknowledge_keeps hallowed ⟨rfl, rfl⟩ _ _
      · refine ⟨fun effect hmem => ?_, fun runtime' hresult => ?_⟩
        · rw [heffects] at hmem
          cases hmem
        · rw [hkept runtime' hresult]
          exact ⟨rfl, rfl⟩
  | none =>
      have himport : (importValidatedNode aether app env replica sourceEndpoint
          frame).Ensures allowed fun outcome => ∀ imported, outcome = some imported →
            imported.node.objId = frame.targetNodeId := by
        refine ⟨fun effect hmem => hallowed effect ?_, ?_⟩
        · rintro node rfl
          rcases importValidatedNode_cases aether app env replica sourceEndpoint frame with
            ⟨hnil, -⟩ | ⟨validated, -, -, ⟨reason, heq⟩ | ⟨admitted, -, heq⟩⟩
          · simp [hnil] at hmem
          · simp [heq] at hmem
          · simp [heq, importEffects] at hmem
        · rintro outcome hresult imported rfl
          exact objId_of_importValidatedNode hresult
      refine himport.bind fun outcome htarget => ?_
      cases outcome with
      | none => exact EffectLog.ensures_pure ⟨rfl, rfl⟩
      | some imported =>
          apply onNodeStateOfImportedNode_keeps hallowed
          rw [htarget imported rfl]
          exact hsave hfound

end Reception

section Steps

variable {replica next : Replica α ε} {action : ReplicaAction ε} {nodeId : ObjId}
  {classId : ClassId} {identity : SharedEventId} {record : EventRecord (SharedNodeEvent ε)}

/-- The registered Node of this id and the saved one have the record. -/
structure RecordIsKept (replica : Replica α ε) (nodeId : ObjId) (classId : ClassId)
    (identity : SharedEventId) (record : EventRecord (SharedNodeEvent ε)) : Prop where
  live : NodeHasRecord replica.runtime.nodes nodeId classId identity record
  saved : NodeHasRecord replica.storage.nodes nodeId classId identity record

/-- The action does not compact the journal of this Node. -/
def ReplicaAction.LeavesJournal (nodeId : ObjId) : ReplicaAction ε → Prop
  | .operate _ _ target operation => target = nodeId → operation ≠ .compactJournal
  | _ => True

/-- A Node that replaces the registered one, and is saved if anything is, keeps the
record. -/
theorem kept_of_replaced {effects : List (Effect α ε)} {runtime' : SharedSyncRuntime α ε}
    {node committed : SharedNode α ε} {target : ObjId}
    (h : RecordIsKept replica nodeId classId identity record)
    (hfound : findNode replica.runtime.nodes target = some node)
    (hid : committed.objId = node.objId)
    (hcommitted : target = nodeId → HasRecord node classId identity record →
      HasRecord committed classId identity record)
    (hnodes : runtime'.nodes = replaceNode replica.runtime.nodes committed)
    (heffects : ∀ effect ∈ effects, ∀ saved, effect = .saveNode saved → saved = committed) :
    RecordIsKept (replica.after effects runtime') nodeId classId identity record := by
  have hkept : committed.objId = nodeId → HasRecord committed classId identity record := by
    intro hsame
    have htarget : target = nodeId := by rw [← objId_of_findNode hfound, ← hid, hsame]
    obtain ⟨live, hlive, hrecord⟩ := h.live
    rw [← htarget, hfound] at hlive
    cases hlive
    exact hcommitted htarget hrecord
  constructor
  · show NodeHasRecord runtime'.nodes nodeId classId identity record
    rw [hnodes]
    exact h.live.replaceNode hkept
  · apply h.saved.perform
    intro effect heffect
    cases effect with
    | saveNode saved =>
        rw [heffects _ heffect saved rfl]
        exact hkept
    | commitObjectGraph graph => trivial
    | storeObject id layers => trivial
    | saveLinkSyncState savedId state => trivial
    | bindNode endpoint node bound => trivial
    | send destination bytes => trivial

/-- A call that saves nothing and keeps the Nodes keeps the record. -/
theorem kept_of_same {effects : List (Effect α ε)} {runtime' : SharedSyncRuntime α ε}
    (h : RecordIsKept replica nodeId classId identity record)
    (hnodes : runtime'.nodes = replica.runtime.nodes)
    (heffects : ∀ effect ∈ effects, effect.KeepsRecord nodeId classId identity record) :
    RecordIsKept (replica.after effects runtime') nodeId classId identity record := by
  refine ⟨?_, h.saved.perform heffects⟩
  show NodeHasRecord runtime'.nodes nodeId classId identity record
  rw [hnodes]
  exact h.live

/-- A commit on a sync state keeps the record. -/
theorem hasRecord_of_commitLinkSyncEvent {node committed : SharedNode α ε} {index : Nat}
    {eventId : ObjId} {event : LinkSyncEvent}
    (hcommit : commitLinkSyncEvent node index eventId event = .ok committed)
    (h : HasRecord node classId identity record) :
    HasRecord committed classId identity record :=
  h.of_sameJournal (sameShared_of_commitLinkSyncEvent hcommit).classId
    (sameShared_of_commitLinkSyncEvent hcommit).journal

/-- A received frame keeps the record. -/
theorem kept_of_receive {env : StepEnv} {sourceEndpoint bytes : Bytes}
    {runtime' : SharedSyncRuntime α ε}
    (h : RecordIsKept replica nodeId classId identity record)
    (hresult : (onBytes aether app env replica sourceEndpoint bytes).result = .ok runtime') :
    RecordIsKept (replica.after (onBytes aether app env replica sourceEndpoint bytes).effects
      runtime') nodeId classId identity record ∧ SameSettings replica.runtime runtime' := by
  have hnothing : ∀ {effects : List (Effect α ε)}, effects = [] →
      RecordIsKept (replica.after effects replica.runtime) nodeId classId identity record ∧
        SameSettings replica.runtime replica.runtime := by
    rintro effects rfl
    refine ⟨kept_of_same h rfl ?_, rfl, rfl⟩
    intro effect heffect
    cases heffect
  unfold onBytes at hresult ⊢
  split at hresult
  case h_1 =>
    cases hresult
    exact hnothing rfl
  case h_2 =>
    split at hresult
    case h_1 =>
      cases hresult
      exact hnothing rfl
    case h_2 frame hdecode =>
      have hother : ∀ effect : Effect α ε, (∀ node, effect ≠ .saveNode node) →
          effect.KeepsRecord nodeId classId identity record := by
        intro effect hother
        cases effect with
        | saveNode node => exact absurd rfl (hother node)
        | commitObjectGraph graph => trivial
        | storeObject id layers => trivial
        | saveLinkSyncState savedId state => trivial
        | bindNode endpoint node bound => trivial
        | send destination bytes => trivial
      have hensures := onNodeState_keeps aether app env sourceEndpoint hother replica frame
        (fun hnew node hid hsame => by
          obtain ⟨live, hlive, -⟩ := h.live
          rw [← hsame, hid, hnew] at hlive
          cases hlive)
      obtain ⟨live, hlive, hrecord⟩ := h.live
      exact ⟨⟨⟨live, findNode_of_onNodeState hresult hlive, hrecord⟩,
        h.saved.perform hensures.effects⟩, hensures.result runtime' hresult⟩
  case h_3 =>
    split at hresult
    case h_1 =>
      cases hresult
      exact hnothing rfl
    case h_2 frame hdecode =>
      rcases onAck_cases hresult with ⟨-, heffects, rfl⟩ |
        ⟨node, index, state, committed, hawaited, hcommit, heffects, rfl⟩
      · exact hnothing heffects
      · rw [heffects]
        refine ⟨kept_of_replaced h hawaited.found
          (sameShared_of_commitLinkSyncEvent hcommit).objId
          (fun _ => hasRecord_of_commitLinkSyncEvent hcommit) rfl ?_,
          rfl, rfl⟩
        simp
  case h_4 =>
    split at hresult
    case h_1 =>
      cases hresult
      exact hnothing rfl
    case h_2 frame hdecode =>
      rcases onEvent_cases hresult with ⟨heffects, rfl⟩ |
        ⟨_, _, _, _, -, -, -, heffects, rfl⟩ |
        ⟨node, parsed, wireRootId, localEvent, inserted, hadmissible, hinserted, heffects,
          rfl⟩
      · exact hnothing heffects
      · rw [heffects]
        refine ⟨kept_of_same h rfl ?_, rfl, rfl⟩
        intro effect heffect
        rw [List.mem_singleton.mp heffect]
        trivial
      · rw [heffects]
        obtain ⟨-, -, hrecord⟩ := recordInserted_of_commitShared hinserted.commit
        refine ⟨kept_of_replaced h hadmissible.found hrecord.objId
          (fun _ hhas => hhas.of_recordInserted hrecord) rfl ?_, rfl, rfl⟩
        simp [ackEffect]

/-- A packet that was begun keeps the record. -/
theorem kept_of_packetBegun {runtime' : SharedSyncRuntime α ε} {target shareId : ObjId}
    {node : SharedNode α ε} {destination : Bytes} {index : Nat} {state : LinkSyncState}
    {eventId : ObjId} {event : LinkSyncEvent} {packet : Bytes} {effects : List (Effect α ε)}
    (h : RecordIsKept replica nodeId classId identity record)
    (hdestination : IsSyncDestination replica.runtime target shareId node destination index
      state)
    (hbegun : PacketBegun replica.runtime node index destination eventId event packet effects
      runtime') :
    RecordIsKept (replica.after effects runtime') nodeId classId identity record ∧
      SameSettings replica.runtime runtime' := by
  obtain ⟨committed, hcommit, rfl, rfl⟩ := hbegun.outcome
  refine ⟨kept_of_replaced h hdestination.found
    (sameShared_of_commitLinkSyncEvent hcommit).objId
    (fun _ => hasRecord_of_commitLinkSyncEvent hcommit) rfl ?_, rfl, rfl⟩
  simp

/-- A call that only sends keeps the record. -/
theorem kept_of_sent (h : RecordIsKept replica nodeId classId identity record)
    {effects : List (Effect α ε)}
    (heffects : ∀ effect ∈ effects, ∃ destination bytes, effect = .send destination bytes) :
    RecordIsKept (replica.after effects replica.runtime) nodeId classId identity record ∧
      SameSettings replica.runtime replica.runtime := by
  refine ⟨kept_of_same h rfl ?_, rfl, rfl⟩
  intro effect heffect
  obtain ⟨destination, bytes, rfl⟩ := heffects effect heffect
  trivial

/-- Whatever a replica does, compactions of this journal apart, the record stays. -/
theorem recordIsKept_step (h : RecordIsKept replica nodeId classId identity record)
    (hleaves : action.LeavesJournal nodeId)
    (hstep : replicaStep aether app replica action = some next) :
    RecordIsKept next nodeId classId identity record ∧
      SameSettings replica.runtime next.runtime := by
  obtain ⟨runtime', hresult, rfl⟩ := replicaStep_eq_some_iff.mp hstep
  suffices hsuffices : RecordIsKept (replica.after (action.outcome aether app replica).effects
      runtime') nodeId classId identity record ∧ SameSettings replica.runtime runtime' from
    ⟨⟨hsuffices.1.live, hsuffices.1.saved⟩, hsuffices.2⟩
  cases action with
  | receive env sourceEndpoint bytes => exact kept_of_receive h hresult
  | syncInitialState env target shareId =>
      obtain ⟨node, destination, index, state, hdestination, ⟨-, heffects, rfl⟩ |
        ⟨-, heffects, rfl⟩ | ⟨frozen, -, -, hbegun⟩⟩ := syncInitialState_cases hresult
      · exact kept_of_sent h (by simp [ReplicaAction.outcome, heffects])
      · exact kept_of_sent h (by simp [ReplicaAction.outcome, heffects])
      · exact kept_of_packetBegun h hdestination hbegun
  | syncNextEvent env target shareId =>
      obtain ⟨node, destination, index, state, hdestination, ⟨heffects, rfl⟩ |
        ⟨-, -, heffects, rfl⟩ | ⟨frozenRecord, event, payload, -, -, -, hbegun⟩⟩ :=
        syncNextEvent_cases hresult
      · exact kept_of_sent h (by simp [ReplicaAction.outcome, heffects])
      · exact kept_of_sent h (by simp [ReplicaAction.outcome, heffects])
      · exact kept_of_packetBegun h hdestination hbegun
  | operate ids nowUs target operation =>
      simp only [ReplicaAction.outcome] at hresult ⊢
      cases hfound : findNode replica.runtime.nodes target with
      | none => simp [hfound] at hresult
      | some node =>
          cases hrun : operation.run app ids nowUs node with
          | error reason => simp [hfound, hrun] at hresult
          | ok changed =>
              simp only [hfound, hrun, pureStep_ok_bind, EffectLog.pure_result,
                Except.ok.injEq] at hresult ⊢
              subst hresult
              refine ⟨kept_of_replaced h hfound (objId_of_operated (nodeOperated_of_run hrun))
                (fun htarget hhas => ?_) rfl (by simp), rfl, rfl⟩
              rcases journal_of_run (hleaves htarget) hrun with
                ⟨added, hinserted⟩ | ⟨hclass, hjournal⟩
              · exact hhas.of_recordInserted hinserted
              · exact hhas.of_sameJournal hclass hjournal
  | saveNode target =>
      simp only [ReplicaAction.outcome] at hresult ⊢
      cases hfound : findNode replica.runtime.nodes target with
      | none => simp [hfound] at hresult
      | some node =>
          simp only [hfound, perform_bind, EffectLog.pure_result, EffectLog.pure_effects,
            Except.ok.injEq] at hresult ⊢
          subst hresult
          refine ⟨kept_of_same h rfl ?_, rfl, rfl⟩
          intro effect heffect
          rw [List.mem_singleton.mp heffect]
          intro hid
          obtain ⟨live, hlive, hrecord⟩ := h.live
          rw [← hid, objId_of_findNode hfound, hfound] at hlive
          cases hlive
          exact hrecord
  | restart =>
      cases hresult
      refine ⟨⟨h.saved.map ?_, h.saved⟩, rfl, rfl⟩
      intro node
      exact ⟨rfl, rfl, rfl⟩

/-- A record that is kept is kept along every run that does not compact the journal. -/
theorem recordIsKept_run {actions : List (ReplicaAction ε)} {final : Replica α ε}
    (h : RecordIsKept replica nodeId classId identity record)
    (hleaves : ∀ action ∈ actions, action.LeavesJournal nodeId)
    (hrun : runActions (replicaStep aether app) replica actions = some final) :
    RecordIsKept final nodeId classId identity record ∧
      SameSettings replica.runtime final.runtime := by
  induction actions generalizing replica with
  | nil =>
      cases hrun
      exact ⟨h, rfl, rfl⟩
  | cons action rest ih =>
      obtain ⟨next, hstep, hrest⟩ := runActions_cons.mp hrun
      rw [List.forall_mem_cons] at hleaves
      obtain ⟨hnext, hsettings⟩ := recordIsKept_step h hleaves.1 hstep
      obtain ⟨hfinal, hlater⟩ := ih hnext hleaves.2 hrest
      exact ⟨hfinal, hlater.1.trans hsettings.1, hlater.2.trans hsettings.2⟩

end Steps

end AppTraverse
