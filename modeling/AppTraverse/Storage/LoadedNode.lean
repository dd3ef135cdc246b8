import AppTraverse.Storage.NodeGraph

/-!
# What a loaded Node was read from

Inversions of the loading functions: a load that succeeded names the stored
object it read and what each reference was resolved to.  Loading changes what
references point at, never what an object stores.
-/

namespace AppTraverse

open Foundations

variable {α ε : Type} (aether : Aether α ε) {find : ObjectFinder α ε}

/-- Loading a reference keeps its id. -/
theorem loadLink_id {ref loaded : Ref Link}
    (h : loadLink find ref = .ok loaded) : loaded.id = ref.id := by
  unfold loadLink at h
  split at h
  · cases h
    rfl
  · split at h
    · cases h
      rfl
    · split at h
      · cases h
        rfl
      · cases h

/-- A loaded Event was read from an Event object. -/
theorem exists_stored_of_loadRecord {stored record : EventRecord (SharedNodeEvent ε)} {event : SharedNodeEvent ε}
    (hload : loadRecord find stored = .ok record) (hevent : record.event.obj = some event) :
    ∃ object value, find record.event.id = some object ∧ object.body = .event value ∧
      loadEvent find value = .ok event := by
  unfold loadRecord at hload
  cases hvalid : stored.event.isValid with
  | false =>
      simp only [hvalid, Bool.not_false, if_true] at hload
      cases hload
      cases hevent
  | true =>
      simp only [hvalid, Bool.not_true, Bool.false_eq_true, if_false] at hload
      cases hfind : find stored.event.id with
      | none =>
          simp only [hfind] at hload
          cases hload
          cases hevent
      | some object =>
          simp only [hfind] at hload
          cases hbody : object.body with
          | event value =>
              simp only [hbody] at hload
              obtain ⟨loaded, hloaded, hload⟩ := except_bind_eq_ok_iff.mp hload
              cases hload
              cases hevent
              exact ⟨object, value, hfind, hbody, hloaded⟩
          | sharedNode _ _ => simp [hbody] at hload
          | link _ _ => simp [hbody] at hload
          | linkSyncState _ => simp [hbody] at hload
          | other => simp [hbody] at hload

/-- Loading an Event keeps what it stores. -/
theorem storedEvent_loadEvent {event loaded : SharedNodeEvent ε}
    (h : loadEvent find event = .ok loaded) : storedEvent loaded = storedEvent event := by
  cases event with
  | addShare link access =>
      obtain ⟨loadedLink, hlink, heq⟩ := except_bind_eq_ok_iff.mp h
      cases heq
      simp [storedEvent, Ref.unloaded, loadLink_id hlink]
  | removeShare _ =>
      cases h
      rfl
  | changeShareAccess _ _ =>
      cases h
      rfl
  | app _ =>
      cases h
      rfl

/-- Loading the SharedNode layer keeps what it stores. -/
theorem storedSharedState_loadSharedState {shared loaded : SharedState α}
    (h : loadSharedState find shared = .ok loaded) :
    storedSharedState loaded = storedSharedState shared := by
  obtain ⟨shares, hshares, heq⟩ := except_bind_eq_ok_iff.mp h
  cases heq
  have hmap : shares.map storedShare = shared.shares.map storedShare := by
    rw [← List.forall₂_eq_eq_eq, List.forall₂_map_left_iff, List.forall₂_map_right_iff]
    refine List.Forall₂.imp ?_ (mapM_except_eq_ok_iff.mp hshares).flip
    intro loadedShare share hshare
    obtain ⟨link, hlink, heq⟩ := except_bind_eq_ok_iff.mp hshare
    cases heq
    simp [storedShare, Ref.unloaded, loadLink_id hlink]
  simp [storedSharedState, hmap]

/-- What a loaded Node was read from. -/
structure LoadedFrom (find : ObjectFinder α ε) (id : ObjId) (object : StoredObject α ε)
    (shared : SharedState α) (node : SharedNode α ε) : Prop where
  found : find id = some object
  objId : node.objId = id
  classId : node.classId = object.classId
  shared_eq : loadSharedState find shared = .ok ⟨node.fields.shares, node.fields.app⟩
  base : loadBase aether find object.base ⟨node.fields.shares, node.fields.app⟩ =
    .ok node.base
  journal : List.Forall₂ (fun stored record => loadRecord find stored = .ok record)
    object.journal node.journal
  created : node.fields.created = []

/-- A Node that was loaded was read from a SharedNode object. -/
theorem exists_loadedFrom {id : ObjId} {node : SharedNode α ε}
    (hload : loadSharedNode aether find id = .ok (some node)) :
    ∃ object shared states, object.body = .sharedNode shared states ∧
      LoadedFrom aether find id object shared node ∧
      List.Forall₂ (fun stateId entry => loadLinkSyncState find stateId = .ok entry)
        states node.fields.linkSyncStates := by
  unfold loadSharedNode at hload
  cases hvalid : id.isValid with
  | false => simp [hvalid] at hload
  | true =>
      simp only [hvalid, Bool.not_true, Bool.false_eq_true, if_false] at hload
      cases hfind : find id with
      | none => simp [hfind] at hload
      | some object =>
          simp only [hfind] at hload
          cases hbody : object.body with
          | sharedNode shared states =>
              simp only [hbody, except_bind_eq_ok_iff] at hload
              obtain ⟨own, hown, base, hbase, journal, hjournal, entries, hentries,
                hnode⟩ := hload
              cases hnode
              exact ⟨object, shared, states, hbody,
                ⟨hfind, rfl, rfl, hown, hbase, mapM_except_eq_ok_iff.mp hjournal, rfl⟩,
                mapM_except_eq_ok_iff.mp hentries⟩
          | link _ _ => simp [hbody] at hload
          | linkSyncState _ => simp [hbody] at hload
          | event _ => simp [hbody] at hload
          | other => simp [hbody] at hload

/-- Nothing has been created for an object that was just loaded. -/
theorem created_eq_nil_of_loadSharedNode {id : ObjId} {node : SharedNode α ε}
    (hload : loadSharedNode aether find id = .ok (some node)) :
    node.fields.created = [] := by
  obtain ⟨object, shared, states, -, hfrom, -⟩ := exists_loadedFrom aether hload
  exact hfrom.created

end AppTraverse
