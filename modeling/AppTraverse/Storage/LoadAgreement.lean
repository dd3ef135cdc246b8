import AppTraverse.Storage.LoadedNode

/-!
# What a load depends on

Two finders that agree wherever the stored objects refer to load the same Node.
-/

namespace AppTraverse

open Foundations

variable {α ε : Type} (aether : Aether α ε) {find find' : ObjectFinder α ε}

/-- The finders agree on every reference that the object stores. -/
def AgreeBelow (find find' : ObjectFinder α ε) (object : StoredObject α ε) : Prop :=
  ∀ reference ∈ object.references aether, find' reference.2 = find reference.2

variable {aether}

theorem loadLink_congr {ref : Ref Link}
    (h : ref.id.isValid = true → find' ref.id = find ref.id) :
    loadLink find' ref = loadLink find ref := by
  unfold loadLink
  cases hvalid : ref.isValid with
  | false => rfl
  | true => rw [h hvalid]

theorem loadShares_congr {shares : List Share}
    (h : ∀ share ∈ shares, share.link.id.isValid = true →
      find' share.link.id = find share.link.id) :
    shares.mapM (loadShare find') = shares.mapM (loadShare find) := by
  refine mapM_congr_of_mem fun share hshare => ?_
  rw [loadShare, loadShare, loadLink_congr (h share hshare)]

theorem loadSharedState_congr {object : StoredObject α ε} {shared : SharedState α}
    {states : List ObjId} (hbody : object.body = .sharedNode shared states)
    (h : AgreeBelow aether find find' object) :
    loadSharedState find' shared = loadSharedState find shared := by
  rw [loadSharedState, loadSharedState, loadShares_congr]
  intro share hshare hvalid
  refine h (aether.linkClassId, share.link.id) (List.mem_filter.mpr ⟨?_, hvalid⟩)
  refine List.mem_append_left _ (List.mem_append_right _ ?_)
  rw [hbody]
  exact List.mem_map_of_mem hshare

theorem loadEvent_congr {object : StoredObject α ε} {event : SharedNodeEvent ε}
    (hbody : object.body = .event event) (h : AgreeBelow aether find find' object) :
    loadEvent find' event = loadEvent find event := by
  cases event with
  | addShare link access =>
      rw [loadEvent, loadEvent, loadLink_congr]
      intro hvalid
      refine h (aether.linkClassId, link.id) (List.mem_filter.mpr ⟨?_, hvalid⟩)
      refine List.mem_append_left _ (List.mem_append_right _ ?_)
      rw [hbody]
      exact List.mem_cons_self
  | removeShare shareId => rfl
  | changeShareAccess shareId access => rfl
  | app event => rfl

/-- The objects found by either finder agree below, as far as they are the ones
that `find` finds. -/
def AgreeBelowFound (aether : Aether α ε) (find find' : ObjectFinder α ε) : Prop :=
  ∀ id object, find id = some object → AgreeBelow aether find find' object

theorem loadRecord_congr {record : EventRecord (SharedNodeEvent ε)}
    (hbelow : AgreeBelowFound aether find find')
    (h : record.event.id.isValid = true →
      find' record.event.id = find record.event.id) :
    loadRecord find' record = loadRecord find record := by
  unfold loadRecord
  cases hvalid : record.event.isValid with
  | false => rfl
  | true =>
      rw [h hvalid]
      cases hfind : find record.event.id with
      | none => rfl
      | some object =>
          simp only [Bool.not_true, Bool.false_eq_true, if_false]
          cases hbody : object.body with
          | event event => simp only [loadEvent_congr hbody (hbelow _ _ hfind)]
          | sharedNode _ _ | link _ _ | linkSyncState _ | other => rfl

theorem loadBase_congr {baseId : ObjId} {own : SharedState α}
    (hbelow : AgreeBelowFound aether find find')
    (h : baseId.isValid = true → find' baseId = find baseId) :
    loadBase aether find' baseId own = loadBase aether find baseId own := by
  unfold loadBase
  cases hvalid : baseId.isValid with
  | false => rfl
  | true =>
      rw [h hvalid]
      cases hfind : find baseId with
      | none => rfl
      | some object =>
          simp only [Bool.not_true, Bool.false_eq_true, if_false]
          cases hbody : object.body with
          | sharedNode shared states =>
              simp only [loadSharedState_congr hbody (hbelow _ _ hfind)]
          | event _ | link _ _ | linkSyncState _ | other => rfl

theorem loadLinkSyncState_congr {id : ObjId}
    (h : id.isValid = true → find' id = find id) :
    loadLinkSyncState find' id = loadLinkSyncState find id := by
  unfold loadLinkSyncState
  cases hvalid : id.isValid with
  | false => rfl
  | true => rw [h hvalid]

/-- Finders that agree on the root, on what its local references name, and below
everything that is found load the same Node. -/
theorem loadSharedNode_congr {id : ObjId} {root : StoredObject α ε}
    (hroot : find id = some root) (hsame : find' id = some root)
    (hbelow : AgreeBelowFound aether find find')
    (hlocal : ∀ stateId ∈ root.localReferences, find' stateId = find stateId) :
    loadSharedNode aether find' id = loadSharedNode aether find id := by
  unfold loadSharedNode
  rw [hroot, hsame]
  have hrefers := hbelow id root hroot
  cases hbody : root.body with
  | event _ | link _ _ | linkSyncState _ | other => simp only [hbody]
  | sharedNode shared states =>
      have hown := loadSharedState_congr hbody hrefers
      have hbase : ∀ own, loadBase aether find' root.base own =
          loadBase aether find root.base own := fun own =>
        loadBase_congr hbelow fun hvalid =>
          hrefers (aether.nodeClassId, root.base) (List.mem_filter.mpr ⟨by simp, hvalid⟩)
      have hjournal : root.journal.mapM (loadRecord find') =
          root.journal.mapM (loadRecord find) :=
        mapM_congr_of_mem fun record hrecord => loadRecord_congr hbelow fun hvalid =>
          hrefers (aether.eventClassId, record.event.id) (List.mem_filter.mpr
            ⟨List.mem_append_left _ (List.mem_append_left _
              (List.mem_cons_of_mem _ (List.mem_map_of_mem hrecord))), hvalid⟩)
      have hstates : states.mapM (loadLinkSyncState find') =
          states.mapM (loadLinkSyncState find) :=
        mapM_congr_of_mem fun stateId hstate => loadLinkSyncState_congr fun hvalid =>
          hlocal stateId (by
            rw [StoredObject.localReferences, hbody]
            exact List.mem_filter.mpr ⟨hstate, hvalid⟩)
      simp only [hbody, hown, hbase, hjournal, hstates]

end AppTraverse
