import AppTraverse.Reference.ChatReplicas
import AppTraverse.Sharing.TopologyReplay
import AppTraverse.Storage.LoadedNode

/-!
# When the scratch replay of a snapshot is safe

`SharedNode` declares no `CanApply` for its topology Events, so the gate before
`Apply` lets every one of them through and the assertions of `Apply` meet
whatever an untrusted journal holds.  The replay returns exactly when each
topology record it reaches satisfies the assertions over the records before it.
-/

namespace AppTraverse

variable {α ε : Type}

/-- The record applies after the records `done`: its Event is present and, when
it is an Event of the concrete class, admissible. -/
def recordAppliesAfter (app : AppClass α ε) (fields : α)
    (done : List (EventRecord (SharedNodeEvent ε)))
    (record : EventRecord (SharedNodeEvent ε)) : Bool :=
  record.event.isValid &&
    match record.event.obj with
    | none => false
    | some (.app event) => app.canApply (appAfter app fields done) event
    | some _ => true

/-- The search for the sync state of a relationship does not run into an entry
that cannot be loaded: there is none, or an entry of the relationship is still
left in front of it. -/
def SyncLookupReturns (states : List (Ref LinkSyncState))
    (done : List (EventRecord (SharedNodeEvent ε))) (id : ObjId) : Prop :=
  unloadedSuffix states = [] ∨ removeCount done id < syncCount (loadedPrefix states) id

/-- What `SharedNode::Apply` needs of a record after the records `done`, over the
initial shares and the initial sync states. -/
def TopologyPrecondition (shares : List Share) (states : List (Ref LinkSyncState))
    (done : List (EventRecord (SharedNodeEvent ε)))
    (record : EventRecord (SharedNodeEvent ε)) : Prop :=
  match record.event.obj with
  | some (.addShare link _) =>
      link.isValid = true ∧
      shareCount (openShares shares done) record.event.id = 0 ∧
      findShareIndex (openShares shares done) link.id = (openShares shares done).length ∧
      SyncLookupReturns states done record.event.id
  | some (.removeShare shareId) =>
      0 < shareCount (openShares shares done) shareId ∧
      SyncLookupReturns states done shareId
  | some (.changeShareAccess shareId _) =>
      0 < shareCount (openShares shares done) shareId
  | _ => True

/-- The sync states a replay starts from: the valid entries, stashed across the
load of the base. -/
def stashedStates (candidate : SharedNode α ε) : List (Ref LinkSyncState) :=
  candidate.fields.linkSyncStates.filter Ref.isValid

/-- Either the checks before the replay fail, or every topology record that the
replay reaches is legal where it stands. -/
def ReplayIsSafe (aether : Aether α ε) (app : AppClass α ε)
    (candidate : SharedNode α ε) : Prop :=
  admissibleBeforeReplay aether app candidate = true →
    ∀ snapshot, candidate.base.obj = some snapshot →
      ReachedSatisfy (recordAppliesAfter app snapshot.app)
        (TopologyPrecondition snapshot.shares (stashedStates candidate))
        [] candidate.journal

section Start

variable (app : AppClass α ε) (ids : Nat → ObjId)

/-- The fields a rebuild starts from. -/
def rebuildStart (fields : SharedNodeFields α) (snapshot : BaseSnapshot α) :
    SharedNodeFields α :=
  (app.nodeClass ids).loadBase fields snapshot

theorem rebuildStart_replayStart {fields : SharedNodeFields α} (snapshot : BaseSnapshot α)
    (hcreated : fields.created = []) : ReplayStart (rebuildStart app ids fields snapshot) where
  valid _ hentry := (List.mem_filter.mp hentry).2
  created_eq := hcreated

end Start

section Safety

variable {app : AppClass α ε} {ids : Nat → ObjId} {start fields : SharedNodeFields α}
  {done : List (EventRecord (SharedNodeEvent ε))} {kept own : List (Ref LinkSyncState)}

/-- On a trace the search returns exactly when it can. -/
theorem exists_find_iff (h : ReplayTrace app ids start done fields kept own)
    (hstart : ReplayStart start) (hids : ∀ n, (ids n).isValid = true) (id : ObjId) :
    (∃ index, findLinkSyncIndexForShare fields.linkSyncStates id = .ok index) ↔
      SyncLookupReturns start.linkSyncStates done id := by
  have hcount := h.kept_count id
  rcases h.find_cases hstart hids id with
    ⟨before, entry, after, hsplit, hkey, hfound⟩ | ⟨-, hsuffix, before, -, -, -, -, hfound⟩ |
    ⟨-, -, hsuffix, hfound⟩ | ⟨hkept, hsuffix, hfound⟩
  · have hpos : 0 < syncCount kept id := by
      rw [hsplit, syncCount_append, syncCount_cons, if_pos hkey]
      omega
    exact ⟨fun _ => Or.inr (by omega), fun _ => ⟨_, hfound⟩⟩
  · exact ⟨fun _ => Or.inl hsuffix, fun _ => ⟨_, hfound⟩⟩
  · exact ⟨fun _ => Or.inl hsuffix, fun _ => ⟨_, hfound⟩⟩
  · constructor
    · rintro ⟨index, hindex⟩
      cases hfound.symm.trans hindex
    · rintro (hnil | hleft)
      · exact absurd hnil hsuffix
      · omega

/-- A record of a trace applies exactly when it applies after the records done. -/
theorem recordApplies_eq (h : ReplayTrace app ids start done fields kept own)
    (record : EventRecord (SharedNodeEvent ε)) :
    recordApplies (app.nodeClass ids) fields record =
      recordAppliesAfter app start.app done record := by
  unfold recordApplies recordAppliesAfter
  cases record.event.obj with
  | none => rfl
  | some event =>
      cases event with
      | app event =>
          change (_ && app.canApply fields.app event) = _
          rw [h.app_eq]
      | addShare link access => rfl
      | removeShare shareId => rfl
      | changeShareAccess shareId access => rfl

/-- On a trace `SharedNode::Apply` returns exactly under its precondition. -/
theorem exists_applyTo_iff (h : ReplayTrace app ids start done fields kept own)
    (hstart : ReplayStart start) (hids : ∀ n, (ids n).isValid = true)
    {record : EventRecord (SharedNodeEvent ε)} {event : SharedNodeEvent ε}
    (hevent : record.event.obj = some event) (hvalid : record.event.isValid = true) :
    (∃ next, (app.nodeClass ids).applyTo fields record.event.id event = .ok next) ↔
      TopologyPrecondition start.shares start.linkSyncStates done record := by
  change (∃ next, app.applyTo ids fields record.event.id event = .ok next) ↔ _
  have hfind := exists_find_iff h hstart hids
  unfold TopologyPrecondition
  rw [hevent]
  cases event with
  | addShare link access =>
      simp only [AppClass.applyTo, applyAddShare_eq_ok_iff, ← h.shares_eq, ← hfind]
      constructor
      · rintro ⟨next, hlink, -, hclosed, hunshared, index, hindex, -⟩
        exact ⟨hlink, hclosed, hunshared, index, hindex⟩
      · rintro ⟨hlink, hclosed, hunshared, index, hindex⟩
        exact ⟨_, hlink, hvalid, hclosed, hunshared, index, hindex, rfl⟩
  | removeShare shareId =>
      simp only [AppClass.applyTo, applyRemoveShare_eq_ok_iff, ← h.shares_eq, ← hfind]
      constructor
      · rintro ⟨next, hopen, index, hindex, -⟩
        exact ⟨hopen, index, hindex⟩
      · rintro ⟨hopen, index, hindex⟩
        exact ⟨_, hopen, index, hindex, rfl⟩
  | changeShareAccess shareId access =>
      simp only [AppClass.applyTo, applyChangeShareAccess_eq_ok_iff, ← h.shares_eq]
      constructor
      · rintro ⟨next, hopen, -⟩
        exact hopen
      · intro hopen
        exact ⟨_, hopen, rfl⟩
  | app event => exact ⟨fun _ => trivial, fun _ => ⟨_, rfl⟩⟩

/-- A replay returns exactly when the topology records it reaches are legal. -/
theorem applyRecords_returns_iff_reachedSatisfy (app : AppClass α ε)
    (hstart : ReplayStart start)
    (hids : ∀ n, (ids n).isValid = true)
    (journal : List (EventRecord (SharedNodeEvent ε))) :
    (∃ applied, applyRecords (app.nodeClass ids) start journal = .ok applied) ↔
      ReachedSatisfy (recordAppliesAfter app start.app)
        (TopologyPrecondition start.shares start.linkSyncStates) [] journal := by
  refine applyRecords_returns_iff (app.nodeClass ids)
    (replayTrace_stepPreserves (ε := ε) hstart hids) ?_ ?_
    ⟨_, [], replayTrace_start hstart⟩
  · rintro done fields record ⟨kept, own, h⟩
    exact recordApplies_eq h record
  · rintro done fields record event ⟨kept, own, h⟩ hevent happlies
    have hvalid : record.event.isValid = true := by
      rw [recordApplies, Bool.and_eq_true] at happlies
      exact happlies.1
    exact exists_applyTo_iff h hstart hids hevent hvalid

end Safety

/-- `SnapshotIsAdmissible` ends in true or false for a loaded candidate exactly
when the replay of its journal is safe. -/
theorem snapshotIsAdmissible_returns_iff (aether : Aether α ε) (app : AppClass α ε)
    {ids : Nat → ObjId} (hids : ∀ n, (ids n).isValid = true)
    {parsed : RamDomainStorage} {nodeId : ObjId} {candidate : SharedNode α ε}
    (hload : loadSharedNode aether (parsed.find aether) nodeId = .ok (some candidate))
    (localEndpoint sourceEndpoint : Bytes) (destinationShareId : ObjId) :
    (∃ result, snapshotIsAdmissible aether app ids candidate localEndpoint
      sourceEndpoint destinationShareId = .ok result) ↔
      ReplayIsSafe aether app candidate := by
  have hcreated := created_eq_nil_of_loadSharedNode aether hload
  unfold snapshotIsAdmissible ReplayIsSafe
  cases hbefore : admissibleBeforeReplay aether app candidate with
  | false => simp
  | true =>
      have hloaded : candidate.base.isLoaded = true := by
        simp only [admissibleBeforeReplay, Bool.and_eq_true] at hbefore
        exact hbefore.1.2
      obtain ⟨snapshot, hbase⟩ := Ref.isLoaded_iff.mp hloaded
      have hstart := rebuildStart_replayStart app ids snapshot hcreated
      have hreturns := applyRecords_returns_iff_reachedSatisfy app hstart hids
        candidate.journal
      simp only [Bool.not_true, Bool.false_eq_true, if_false, forall_const, hbase,
        Option.some.injEq, forall_eq', tryRebuildFromBaseAndReplay_eq _ hbase]
      refine Iff.trans ?_ hreturns
      change _ ↔ ∃ applied, applyRecords (app.nodeClass ids)
        ((app.nodeClass ids).loadBase candidate.fields snapshot) candidate.journal =
          .ok applied
      cases applyRecords (app.nodeClass ids)
        ((app.nodeClass ids).loadBase candidate.fields snapshot) candidate.journal with
      | error reason => simp [bind, Except.bind]
      | ok applied =>
          simp only [bind, Except.bind, pure, Except.pure, Except.ok.injEq, exists_eq']
          cases applied.complete with
          | false => simp
          | true =>
              simp only [Bool.not_true, Bool.false_eq_true, if_false, iff_true]
              split
              · exact ⟨_, rfl⟩
              · exact ⟨_, rfl⟩

/-- A journal that closes a relationship nobody opened. -/
def removesUnopenedShare : List ChatObject :=
  eventObject 16 (.removeShare ⟨99⟩) :: sharedRoom [record 16 3 {}]

/-- An expected ChatRoom whose stored classes are coherent stops the scratch replay
at an assertion instead of being rejected. -/
theorem removesUnopenedShare_asserts :
    (validateStoredClassChains chatAether (storageOf removesUnopenedShare)).isSome = true ∧
    ∃ candidate, loadSharedNode chatAether
        ((storageOf removesUnopenedShare).find chatAether) ⟨10⟩ = .ok (some candidate) ∧
      candidate.classId = chatRoomClassId ∧
      ¬ ∃ result, snapshotIsAdmissible chatAether chatRoom (idsFrom 4000) candidate
        clientEndpoint hostEndpoint ⟨15⟩ = .ok result := by
  refine ⟨by decide, ?_⟩
  obtain ⟨candidate, hload, htest⟩ := exists_loadedRoom removesUnopenedShare ⟨10⟩
    (fun candidate => decide (candidate.classId = chatRoomClassId) &&
      !(snapshotIsAdmissible chatAether chatRoom (idsFrom 4000) candidate clientEndpoint
        hostEndpoint ⟨15⟩).toBool) (by decide)
  rw [Bool.and_eq_true, decide_eq_true_eq, Bool.not_eq_true'] at htest
  refine ⟨candidate, hload, htest.1, ?_⟩
  rintro ⟨result, hresult⟩
  have hnot := htest.2
  rw [hresult] at hnot
  cases hnot

/-- The relationships that a host opened replay safely, and are admitted. -/
theorem sharedRoom_replayIsSafe :
    ∃ candidate, loadSharedNode chatAether ((storageOf (sharedRoom [])).find chatAether)
        ⟨10⟩ = .ok (some candidate) ∧ ReplayIsSafe chatAether chatRoom candidate := by
  obtain ⟨candidate, hload, htest⟩ := exists_loadedRoom (sharedRoom []) ⟨10⟩
    (fun candidate => (snapshotIsAdmissible chatAether chatRoom (idsFrom 4000)
      candidate clientEndpoint hostEndpoint ⟨15⟩).toBool) (by decide)
  refine ⟨candidate, hload, ?_⟩
  rw [← snapshotIsAdmissible_returns_iff chatAether chatRoom
    (forall_idsFrom (fun id => id.isValid = true) 4000 (by decide)) hload clientEndpoint hostEndpoint ⟨15⟩]
  cases hresult : snapshotIsAdmissible chatAether chatRoom (idsFrom 4000) candidate
      clientEndpoint hostEndpoint ⟨15⟩ with
  | error reason =>
      rw [hresult] at htest
      cases htest
  | ok result => exact ⟨result, rfl⟩

end AppTraverse
