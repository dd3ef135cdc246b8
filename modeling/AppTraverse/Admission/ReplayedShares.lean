import AppTraverse.Admission.Registration

/-!
# The shares of an admitted Node

Scratch checks the shares it replayed; production replays them again.  Share
identities depend only on what the payload stores, so both replays open the same
relationships.
-/

namespace AppTraverse

open Foundations

variable {α ε : Type} (aether : Aether α ε) (app : AppClass α ε)

theorem findShareIndexForShare_eq_findIdx (shares : List Share) (id : ObjId) :
    findShareIndexForShare shares id =
      (shares.map Share.shareId).findIdx fun shareId => decide (shareId = id) := by
  rw [List.findIdx_map]
  rfl

/-- What one Event does to the identities of the open shares. -/
def stepShareIds (shareIds : List ObjId) (eventId : ObjId) :
    SharedNodeEvent ε → List ObjId
  | .addShare _ _ => shareIds ++ [eventId]
  | .removeShare shareId =>
      shareIds.eraseIdx (shareIds.findIdx fun id => decide (id = shareId))
  | _ => shareIds

theorem map_shareId_stepShares (shares : List Share) (eventId : ObjId)
    (event : SharedNodeEvent ε) :
    (stepShares shares eventId event).map Share.shareId =
      stepShareIds (shares.map Share.shareId) eventId (storedEvent event) := by
  cases event with
  | addShare link access => simp [stepShares, stepShareIds, storedEvent]
  | removeShare shareId =>
      change (shares.eraseIdx (findShareIndexForShare shares shareId)).map _ =
        (shares.map Share.shareId).eraseIdx
          ((shares.map Share.shareId).findIdx fun id => decide (id = shareId))
      rw [← findShareIndexForShare_eq_findIdx, List.eraseIdx_map]
  | changeShareAccess shareId access =>
      simp only [stepShares, stepShareIds, storedEvent]
      generalize findShareIndexForShare shares shareId = index
      induction shares generalizing index with
      | nil => cases index <;> rfl
      | cons head tail ih =>
          cases index with
          | zero => rfl
          | succ index => simpa using ih index
  | app event => rfl

/-- The identities of the open shares depend on what the records store. -/
theorem map_shareId_openShares_eq {shares shares' : List Share}
    {records records' : List (EventRecord (SharedNodeEvent ε))}
    (hshares : shares.map Share.shareId = shares'.map Share.shareId)
    (hrecords : records.map recordShape = records'.map recordShape) :
    (openShares shares records).map Share.shareId =
      (openShares shares' records').map Share.shareId := by
  induction records generalizing shares shares' records' with
  | nil =>
      rw [List.map_nil, eq_comm, List.map_eq_nil_iff] at hrecords
      subst hrecords
      exact hshares
  | cons head tail ih =>
      cases records' with
      | nil => cases hrecords
      | cons head' tail' =>
          rw [List.map_cons, List.map_cons] at hrecords
          obtain ⟨hhead, htail⟩ := List.cons.inj hrecords
          have hid : head.event.id = head'.event.id :=
            congrArg (fun record => record.event.id) hhead
          have hobj : head.event.obj.map storedEvent = head'.event.obj.map storedEvent :=
            congrArg (fun record => record.event.obj) hhead
          rw [openShares, openShares, List.foldl_cons, List.foldl_cons]
          refine ih ?_ htail
          cases hevent : head.event.obj with
          | none =>
              rw [hevent, Option.map_none, eq_comm, Option.map_eq_none_iff] at hobj
              simpa [hobj] using hshares
          | some event =>
              rw [hevent, Option.map_some, eq_comm] at hobj
              obtain ⟨event', hevent', hsame⟩ := Option.map_eq_some_iff.mp hobj
              simp only [hevent']
              rw [map_shareId_stepShares, map_shareId_stepShares, hshares, hid, hsame]

theorem map_shareId_storedSharedState {shared shared' : SharedState α}
    (h : storedSharedState shared = storedSharedState shared') :
    shared.shares.map Share.shareId = shared'.shares.map Share.shareId := by
  have hshares : shared.shares.map storedShare = shared'.shares.map storedShare :=
    congrArg SharedState.shares h
  have hids := congrArg (List.map Share.shareId) hshares
  simpa [List.map_map, Function.comp_def, storedShare] using hids

/-- What `SnapshotIsAdmissible` established about each replayed share. -/
theorem exists_endpoint_of_sharesAreAdmissible {shares : List Share}
    (h : sharesAreAdmissible shares = true) {index : Nat} {share : Share}
    (hshare : shares[index]? = some share) :
    findShareIndexForShare shares share.shareId = index ∧
      ∃ endpoint, shareEndpoint share = some endpoint ∧ endpoint ≠ [] := by
  rw [sharesAreAdmissible, List.all_eq_true] at h
  have hentry := h (share, index) (by
    rw [List.mem_zipIdx_iff_getElem?]
    exact hshare)
  simp only [Bool.and_eq_true, decide_eq_true_eq] at hentry
  refine ⟨hentry.1.2, ?_⟩
  cases hendpoint : shareEndpoint share with
  | none => simp [hendpoint] at hentry
  | some endpoint =>
      refine ⟨endpoint, rfl, ?_⟩
      have hnonempty := hentry.2
      simp only [hendpoint, Bool.not_eq_true', List.isEmpty_eq_false_iff] at hnonempty
      exact hnonempty

/-- Each admissible relationship is open once. -/
theorem shareCount_le_one_of_sharesAreAdmissible {shares : List Share}
    (h : sharesAreAdmissible shares = true) (id : ObjId) : shareCount shares id ≤ 1 := by
  rw [shareCount_eq_count]
  refine List.nodup_iff_count_le_one.mp ?_ id
  rw [List.nodup_iff_injective_get]
  intro i j hij
  simp only [List.get_eq_getElem, List.getElem_map] at hij
  have hi : i.val < shares.length := by simpa using i.isLt
  have hj : j.val < shares.length := by simpa using j.isLt
  obtain ⟨hfirst, -⟩ := exists_endpoint_of_sharesAreAdmissible h
    (List.getElem?_eq_getElem hi)
  obtain ⟨hsecond, -⟩ := exists_endpoint_of_sharesAreAdmissible h
    (List.getElem?_eq_getElem hj)
  rw [hij] at hfirst
  exact Fin.ext (hfirst.symm.trans hsecond)

/-- The relationship a frame is addressed to and the relationship of its sender
are two open relationships. -/
theorem source_ne_destination {shares : List Share} {share : Share}
    {localEndpoint sourceEndpoint : Bytes} {destinationShareId : ObjId}
    (hadmissible : sharesAreAdmissible shares = true)
    (haddressed : addressedToThisReplica shares localEndpoint sourceEndpoint
      destinationShareId = true)
    (hsource : sharesOfEndpoint shares sourceEndpoint = [share]) :
    share.shareId ≠ destinationShareId ∧ shareCount shares share.shareId = 1 ∧
      shareCount shares destinationShareId = 1 := by
  simp only [addressedToThisReplica, Bool.and_eq_true, decide_eq_true_eq] at haddressed
  obtain ⟨⟨hne, hdestination⟩, -⟩ := haddressed
  have hmem : share ∈ sharesOfEndpoint shares sourceEndpoint := by
    rw [hsource]
    exact List.mem_cons_self
  obtain ⟨hshare, hendpoint⟩ := List.mem_filter.mp hmem
  rw [decide_eq_true_eq] at hendpoint
  obtain ⟨index, hindex⟩ := List.mem_iff_getElem?.mp hshare
  obtain ⟨hfound, -⟩ := exists_endpoint_of_sharesAreAdmissible hadmissible hindex
  have hsourceOpen : 0 < shareCount shares share.shareId :=
    List.countP_pos_iff.mpr ⟨share, hshare, by simp⟩
  have hdestinationOpen : 0 < shareCount shares destinationShareId := by
    rw [← findShareIndexForShare_lt_iff]
    by_contra hnot
    rw [shareEndpointOf, List.getElem?_eq_none (by omega)] at hdestination
    cases hdestination
  have hle := shareCount_le_one_of_sharesAreAdmissible hadmissible
  refine ⟨?_, ?_, ?_⟩
  · rintro rfl
    rw [shareEndpointOf, hfound, hindex, Option.bind_some, hendpoint] at hdestination
    exact hne (Option.some.inj hdestination)
  · have hone := hle share.shareId
    omega
  · have hone := hle destinationShareId
    omega

/-- What an admission says about the imported Node: it was rebuilt from the
production root, and the relationships of the frame are open in it. -/
structure ImportedTrace (env : StepEnv) (frame : NodeStateFrame)
    (imported : ImportedNode α ε) (root : SharedNode α ε) (snapshot : BaseSnapshot α)
    (kept own : List (Ref LinkSyncState)) : Prop where
  base : root.base.obj = some snapshot
  node_eq : ∃ count, imported.node = { root with
    fields := imported.node.fields
    appliedJournalSize := some count
    generation := 1 + count }
  start : ReplayStart (rebuildStart app env.ids root.fields snapshot)
  trace : ReplayTrace app env.ids (rebuildStart app env.ids root.fields snapshot)
    root.journal imported.node.fields kept own
  ne : imported.sourceShareId ≠ frame.destinationShareId
  source_open : shareCount imported.node.fields.shares imported.sourceShareId = 1
  destination_open :
    shareCount imported.node.fields.shares frame.destinationShareId = 1
  source_valid : imported.sourceShareId.isValid = true

theorem Admission.exists_importedTrace {env : StepEnv} {replica : Replica α ε}
    {sourceEndpoint : Bytes} {frame : NodeStateFrame} {imported : ImportedNode α ε}
    {parsed : RamDomainStorage} {validated : ValidatedSnapshot} {root : SharedNode α ε}
    (h : Admission aether app env replica sourceEndpoint frame imported parsed validated
      root) (hfresh : ScratchIdsFresh aether env frame.payload)
    (hids : ∀ n, (env.ids n).isValid = true) :
    ∃ snapshot kept own,
      ImportedTrace app env frame imported root snapshot kept own := by
  obtain ⟨candidate, replayed, share, hscratch⟩ :=
    exists_scratchValidation aether app h.scratch
  obtain ⟨scratchSnapshot, scratchApplied, hreplay⟩ :=
    exists_admissibleReplay aether app hscratch.admissible
  have hevents : ∀ record ∈ candidate.journal, record.event.isLoaded = true := by
    intro record hrecord
    have hbefore := hreplay.before
    rw [admissibleBeforeReplay, Bool.and_eq_true, List.all_eq_true] at hbefore
    have hadmissible := hbefore.2 record hrecord
    rw [recordIsAdmissible, Bool.and_eq_true] at hadmissible
    cases hevent : record.event.obj with
    | none => simp [hevent] at hadmissible
    | some event => exact Ref.isLoaded_iff.mpr ⟨event, hevent⟩
  obtain ⟨-, hjournal, snapshot, hsnapshot, hstored⟩ := stored_eq_of_extends aether
    (h.find_extends aether app hfresh) hscratch.load h.load hevents hreplay.base
  obtain ⟨snapshot', applied, hbase, hrun, hcomplete, hnode⟩ :=
    replayFromBase_keeps h.replay
  cases hsnapshot.symm.trans hbase
  have hstart := rebuildStart_replayStart app env.ids snapshot
    (created_eq_nil_of_loadSharedNode aether h.load)
  obtain ⟨⟨kept, own, htrace⟩, hcount⟩ := applyRecords_invariant (app.nodeClass env.ids)
    (replayTrace_stepPreserves (ε := ε) hstart hids) ⟨_, [], replayTrace_start hstart⟩ hrun
  rw [hcount hcomplete, List.take_length] at htrace
  have hfields : imported.node.fields = applied.fields := by rw [hnode]
  rw [← hfields] at htrace
  -- Both replays opened relationships of the same identities.
  obtain ⟨⟨scratchKept, scratchOwn, hscratchTrace⟩, -⟩ := hreplay.trace aether app
    (created_eq_nil_of_loadSharedNode aether hscratch.load) (fun n => (hfresh n).1)
  have hids : replayed.fields.shares.map Share.shareId =
      imported.node.fields.shares.map Share.shareId := by
    rw [hscratchTrace.shares_eq, htrace.shares_eq]
    exact map_shareId_openShares_eq (map_shareId_storedSharedState hstored) hjournal
  obtain ⟨hne, hsource, hdestination⟩ :=
    source_ne_destination hreplay.shares hreplay.addressed hscratch.source
  have hsourceId : imported.sourceShareId = share.shareId := by
    rw [h.source, hscratch.result_eq]
  rw [shareCount_eq_count, hids, ← shareCount_eq_count] at hsource hdestination
  rw [← hsourceId] at hne hsource
  exact ⟨snapshot, kept, own, ⟨hsnapshot, ⟨applied.count, by rw [hnode]⟩, hstart, htrace,
    hne, hsource, hdestination, by rw [hsourceId]; exact hscratch.source_valid⟩⟩

end AppTraverse
