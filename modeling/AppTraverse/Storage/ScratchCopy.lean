import AppTraverse.Journal.ArrivalOrder
import AppTraverse.Journal.TwinInsertion
import AppTraverse.Storage.SavedNode

/-!
# The disposable copy of a Node

A Node saved into a scratch Domain and loaded from there has the journal, the shared state and
the base of the original.  Its cursor, its generation and its local sync states are those of a
Node that was just loaded.  Nothing of that decides whether an Event can be inserted, so the
copy and the original are twins, under whichever id each of them holds the Event.
-/

namespace AppTraverse

open Foundations

section Searchable

variable {α ε : Type} {app : AppClass α ε} {ids : Nat → ObjId}

/-- Local sync states that an Event can search: what is referred to is loaded. -/
def StatesSearchable (entries : List (Ref LinkSyncState)) : Prop :=
  ∀ entry ∈ entries, entry.isValid = true → entry.isLoaded = true

theorem exists_findLinkSyncIndex {entries : List (Ref LinkSyncState)}
    (h : StatesSearchable entries) (shareId : ObjId) :
    ∃ index, findLinkSyncIndexForShare entries shareId = .ok index := by
  induction entries with
  | nil => exact ⟨0, rfl⟩
  | cons head tail ih =>
      obtain ⟨index, hindex⟩ := ih fun entry hentry => h entry (List.mem_cons_of_mem _ hentry)
      rw [findLinkSyncIndexForShare, hindex]
      cases hvalid : head.isValid with
      | false => exact ⟨index + 1, rfl⟩
      | true =>
          obtain ⟨state, hstate⟩ := Ref.isLoaded_iff.mp (h head List.mem_cons_self hvalid)
          rw [hstate]
          by_cases hid : state.shareId = shareId
          · exact ⟨0, by simp [hid]⟩
          · exact ⟨index + 1, by simp [hid, Functor.map, Except.map]⟩

/-- An Event keeps the local sync states searchable. -/
theorem statesSearchable_of_applyTo {fields next : SharedNodeFields α} {id : ObjId}
    {event : SharedNodeEvent ε} (hstates : StatesSearchable fields.linkSyncStates)
    (h : app.applyTo ids fields id event = .ok next) :
    StatesSearchable next.linkSyncStates := by
  cases event with
  | addShare link access =>
      obtain ⟨-, -, -, -, index, -, rfl⟩ := applyAddShare_eq_ok_iff.mp h
      split
      · exact hstates
      · intro entry hentry hvalid
        rcases List.mem_append.mp hentry with hold | hnew
        · exact hstates entry hold hvalid
        · rw [List.mem_singleton.mp hnew]
          rfl
  | removeShare shareId =>
      obtain ⟨-, index, -, rfl⟩ := applyRemoveShare_eq_ok_iff.mp h
      exact fun entry hentry => hstates entry (List.mem_of_mem_eraseIdx hentry)
  | changeShareAccess shareId access =>
      obtain ⟨-, rfl⟩ := applyChangeShareAccess_eq_ok_iff.mp h
      exact hstates
  | app event =>
      cases h
      exact hstates

/-- The shared state as the serialized fields, over local sync states that may be empty
references: the ones that a network-shared graph has. -/
def AppClass.searchableFields (app : AppClass α ε) (ids : Nat → ObjId) :
    SerializedFields (app.nodeClass ids) (SharedState α) where
  view := SharedNodeFields.shared
  ofBase snapshot := snapshot.toSharedState
  canApply state event := app.canApplyTo { shares := state.shares, app := state.app } event
  apply state id event := sharedStep app state id event
  sound fields := StatesSearchable fields.linkSyncStates
  canApplyTo_eq fields event := by cases event <;> rfl
  apply_view := applyTo_shared app ids
  applyTo_returns fields id event state hstates hcan happly :=
    exists_applyTo_of_found (exists_findLinkSyncIndex hstates) (sharedStep_eq_some_iff.mp happly).1
  sound_applyTo fields id event next hstates happly :=
    statesSearchable_of_applyTo hstates happly
  sound_loadBase fields snapshot hstates := by
    intro entry hentry
    exact hstates entry (List.mem_filter.mp hentry).1
  view_loadBase := loadBase_shared app ids
  ofBase_saveBase := saveBase_shared app ids

end Searchable

section Kind

variable {α ε : Type}

/-- The Event opens a relationship, under the id of its own object. -/
def SharedNodeEvent.opensShare : SharedNodeEvent ε → Bool
  | .addShare _ _ => true
  | _ => false

/-- What any other Event does to the shared state does not depend on the id it has. -/
theorem sharedStep_of_opensNoShare {app : AppClass α ε} {event : SharedNodeEvent ε}
    (h : event.opensShare = false) (state : SharedState α) (id id' : ObjId) :
    sharedStep app state id event = sharedStep app state id' event := by
  cases event with
  | addShare link access => cases h
  | removeShare shareId => rfl
  | changeShareAccess shareId access => rfl
  | app event => rfl

/-- An Event that opens no relationship refers to nothing. -/
theorem loadEvent_of_opensNoShare {find : ObjectFinder α ε} {event : SharedNodeEvent ε}
    (h : event.opensShare = false) : loadEvent find event = .ok event := by
  cases event with
  | addShare link access => cases h
  | removeShare shareId => rfl
  | changeShareAccess shareId access => rfl
  | app event => rfl

end Kind

section Copy

variable {α ε : Type} {aether : Aether α ε} {app : AppClass α ε} {node : SharedNode α ε}

/-- A live SharedNode without pending records.  All that it refers to is loaded, one id names
one object, and its local sync states can be searched. -/
structure NodeIsCopyable (aether : Aether α ε) (app : AppClass α ε)
    (node : SharedNode α ε) : Prop where
  resolved : NodeIsResolved node
  agree : ObjectsAgree (reachableObjects aether app .networkShared node)
  class_derives : aether.derives aether.nodeClassId node.classId = true
  searchable : StatesSearchable node.fields.linkSyncStates
  materialized : node.IsMaterialized

namespace NodeIsCopyable

/-- The scratch Domain loads the copy, also when it holds one object more. -/
theorem loadSharedNode_filled (h : NodeIsCopyable aether app node) (hlawful : aether.Lawful)
    {id : ObjId} (hfree : ((buildNetworkSharedScratch aether app node).layers? id).isSome = false)
    (layers : Option Layers) :
    loadSharedNode aether (RamDomainStorage.find aether
        ((buildNetworkSharedScratch aether app node).insert id layers)) node.objId =
      .ok (some (networkView node)) := by
  apply loadSharedNode_of_findsAll h.resolved h.class_derives
  intro entry hentry
  have hsaved := layers?_savedObjects aether h.agree hentry
  have hother : entry.1 ≠ id := by
    rintro rfl
    rw [buildNetworkSharedScratch, hsaved] at hfree
    cases hfree
  rw [RamDomainStorage.find, layers?_insert, if_neg hother, buildNetworkSharedScratch, hsaved]
  exact hlawful.loadObject_saveObject entry.2

theorem isReady (h : NodeIsCopyable aether app node) (ids : Nat → ObjId) :
    ∃ snapshot, node.IsReady (app.searchableFields ids) snapshot := by
  obtain ⟨snapshot, hsnapshot⟩ := Ref.isLoaded_iff.mp h.resolved.base.loaded
  exact ⟨snapshot, h.materialized, h.resolved.base.valid, hsnapshot, h.searchable⟩

theorem networkView_isReady (h : NodeIsCopyable aether app node) (ids : Nat → ObjId) :
    ∃ snapshot, (networkView node).IsReady (app.searchableFields ids) snapshot := by
  obtain ⟨snapshot, hsnapshot⟩ := Ref.isLoaded_iff.mp h.resolved.base.loaded
  refine ⟨_, rfl, h.resolved.base.valid, congrArg (Option.map _) hsnapshot, ?_⟩
  intro entry hentry hvalid
  obtain ⟨_, -, rfl⟩ := List.mem_map.mp hentry
  cases hvalid

/-- The same Event for a Node and its copy, each under an id of its own. -/
theorem twinInsertions (h : NodeIsCopyable aether app node) {event : SharedNodeEvent ε}
    (hopens : event.opensShare = false) (ids ids' : Nat → ObjId) {id id' : ObjId}
    (hid : id.isValid = true) (hid' : id'.isValid = true) (identity : SharedEventId)
    (order : SharedEventOrder) (nowUs : UInt64) :
    TwinInsertions (app.searchableFields ids) (app.searchableFields ids') node
      (networkView node) (sharedRecord ⟨id, some event⟩ identity order nowUs)
      (sharedRecord ⟨id', some event⟩ identity order nowUs) where
  steps other state := rfl
  journal := rfl
  view := rfl
  ready := h.isReady ids
  ready' := h.networkView_isReady ids'
  base snapshot snapshot' hbase hbase' := by
    rw [networkView, hbase] at hbase'
    cases hbase'
    rfl
  recordSteps state := by
    have hvalid : (sharedRecord ⟨id, some event⟩ identity order nowUs).event.isValid = true := hid
    have hvalid' : (sharedRecord ⟨id', some event⟩ identity order nowUs).event.isValid = true :=
      hid'
    unfold SerializedFields.step
    rw [hvalid, hvalid']
    show (if _ then sharedStep app state id event else none) =
      (if _ then sharedStep app state id' event else none)
    rw [sharedStep_of_opensNoShare hopens state id id']
    rfl
  identity := rfl
  order := rfl
  retained := rfl
  eventValid := hid'.trans hid.symm
  event := rfl

end NodeIsCopyable

end Copy

end AppTraverse
