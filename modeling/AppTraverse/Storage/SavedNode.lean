import AppTraverse.Storage.GraphWrites
import AppTraverse.Storage.LoadedNode

/-!
# A Node that is saved and loaded

Where every object that a Node reaches is found under its id, the Node is loaded as it
is, but for its `LocalPtr`s, which the network-shared scope empties.  A saved graph is
such a place as long as one id names one object.
-/

namespace AppTraverse

open Foundations

variable {α ε : Type}

/-- A reference to an object that is there. -/
structure Ref.IsResolved {τ : Type} (ref : Ref τ) : Prop where
  valid : ref.isValid = true
  loaded : ref.isLoaded = true

/-- The reference inside an Event is resolved. -/
def SharedNodeEvent.IsResolved (event : SharedNodeEvent ε) : Prop :=
  ∀ link access, event = .addShare link access → link.IsResolved

/-- Every object that a Node refers to is there. -/
structure NodeIsResolved (node : SharedNode α ε) : Prop where
  objId : node.objId.isValid = true
  base : node.base.IsResolved
  baseShares : ∀ snapshot, node.base.obj = some snapshot →
    ∀ share ∈ snapshot.shares, share.link.IsResolved
  events : ∀ record ∈ node.journal, record.event.IsResolved
  eventLinks : ∀ record ∈ node.journal, ∀ event, record.event.obj = some event →
    event.IsResolved
  shares : ∀ share ∈ node.fields.shares, share.link.IsResolved

/-- A Node as it is loaded where its `LocalPtr`s were emptied. -/
def networkView (node : SharedNode α ε) : SharedNode α ε where
  objId := node.objId
  classId := node.classId
  base := ⟨node.base.id, node.base.obj.map fun snapshot =>
    { snapshot with linkSyncStates := snapshot.linkSyncStates.map fun _ => .empty }⟩
  journal := node.journal
  fields :=
    { shares := node.fields.shares
      app := node.fields.app
      linkSyncStates := node.fields.linkSyncStates.map fun _ => ⟨.empty, none⟩ }

section Loading

variable {aether : Aether α ε} {app : AppClass α ε} {find : ObjectFinder α ε}

/-- The objects are found under their ids. -/
def FindsAll (find : ObjectFinder α ε) (objects : List (ObjId × StoredObject α ε)) : Prop :=
  ∀ entry ∈ objects, find entry.1 = some entry.2

theorem loadLink_of_findsAll {link : Ref Link} (hlink : link.IsResolved)
    (hfind : FindsAll find (linkObjects link)) : loadLink find link.unloaded = .ok link := by
  obtain ⟨value, hvalue⟩ := Ref.isLoaded_iff.mp hlink.loaded
  have hfound := hfind (link.id, { classId := value.classId
                                   body := .link value.endpointUid value.heartbeatIntervalMs })
    (by rw [linkObjects, hvalue]; exact List.mem_singleton_self _)
  have hvalid : link.unloaded.isValid = true := hlink.valid
  rw [loadLink, hvalid, Ref.unloaded_id, hfound]
  show Except.ok (⟨link.id, some value⟩ : Ref Link) = .ok link
  rw [← hvalue]

theorem loadSharedState_of_findsAll {shared : SharedState α}
    (hshares : ∀ share ∈ shared.shares, share.link.IsResolved)
    (hfind : FindsAll find (shareObjects shared.shares)) :
    loadSharedState find (storedSharedState shared) = .ok shared := by
  have hloads : (shared.shares.map storedShare).mapM (loadShare find) = .ok shared.shares := by
    rw [mapM_except_eq_ok_iff, List.forall₂_map_left_iff, List.forall₂_same]
    intro share hshare
    have hlink := loadLink_of_findsAll (hshares share hshare) fun entry hentry =>
      hfind entry (List.mem_flatMap.mpr ⟨share, hshare, hentry⟩)
    simp only [loadShare, storedShare, hlink, bind, Except.bind, pure, Except.pure]
  simp only [loadSharedState, storedSharedState, hloads, bind, Except.bind, pure, Except.pure]

theorem loadEvent_of_findsAll {event : Ref (SharedNodeEvent ε)} {value : SharedNodeEvent ε}
    (hvalue : event.obj = some value) (hresolved : value.IsResolved)
    (hfind : FindsAll find (eventObjects aether app event)) :
    loadEvent find (storedEvent value) = .ok value := by
  cases value with
  | addShare link access =>
      have hlink := loadLink_of_findsAll (hresolved link access rfl) fun entry hentry =>
        hfind entry (by rw [eventObjects, hvalue]; exact List.mem_cons_of_mem _ hentry)
      simp only [storedEvent, loadEvent, hlink, bind, Except.bind, pure, Except.pure]
  | removeShare shareId => rfl
  | changeShareAccess shareId access => rfl
  | app event => rfl

theorem loadRecord_of_findsAll {record : EventRecord (SharedNodeEvent ε)}
    (hevent : record.event.IsResolved)
    (hlinks : ∀ event, record.event.obj = some event → event.IsResolved)
    (hfind : FindsAll find (eventObjects aether app record.event)) :
    loadRecord find (storedRecord record) = .ok record := by
  obtain ⟨value, hvalue⟩ := Ref.isLoaded_iff.mp hevent.loaded
  have hfound := hfind (record.event.id, { classId := aether.classIdOfEvent app value
                                           body := .event (storedEvent value) })
    (by rw [eventObjects, hvalue]; exact List.mem_cons_self)
  have hloaded := loadEvent_of_findsAll hvalue (hlinks value hvalue) hfind
  have hvalid : record.event.unloaded.isValid = true := hevent.valid
  simp only [loadRecord, storedRecord, hvalid, Ref.unloaded_id, hfound, hloaded, Bool.not_true,
    Bool.false_eq_true, if_false, bind, Except.bind, pure, Except.pure]
  rw [← hvalue]

theorem loadBase_of_findsAll {classId : ClassId} {base : Ref (BaseSnapshot α)}
    {own : SharedState α} (hclass : aether.derives aether.nodeClassId classId = true)
    (hbase : base.IsResolved)
    (hshares : ∀ snapshot, base.obj = some snapshot →
      ∀ share ∈ snapshot.shares, share.link.IsResolved)
    (hfind : FindsAll find (baseObjects .networkShared classId base)) :
    loadBase aether find base.id own = .ok ⟨base.id, base.obj.map fun snapshot =>
      { snapshot with linkSyncStates := snapshot.linkSyncStates.map fun _ => .empty }⟩ := by
  obtain ⟨snapshot, hsnapshot⟩ := Ref.isLoaded_iff.mp hbase.loaded
  rw [FindsAll, baseObjects, hsnapshot, List.forall_mem_cons] at hfind
  have hloaded := loadSharedState_of_findsAll (hshares snapshot hsnapshot) hfind.2
  have hvalid : base.id.isValid = true := hbase.valid
  simp only [loadBase, hvalid, hfind.1, hclass, hloaded, Bool.not_true, Bool.false_eq_true,
    if_false, bind, Except.bind, pure, Except.pure, hsnapshot]
  rfl

/-- Where everything a Node reaches is found, the Node is loaded as it is, with its
`LocalPtr`s emptied. -/
theorem loadSharedNode_of_findsAll {node : SharedNode α ε} (hnode : NodeIsResolved node)
    (hclass : aether.derives aether.nodeClassId node.classId = true)
    (hfind : FindsAll find (reachableObjects aether app .networkShared node)) :
    loadSharedNode aether find node.objId = .ok (some (networkView node)) := by
  have hmem : ∀ {entry}, entry ∈ reachableObjects aether app .networkShared node →
      find entry.1 = some entry.2 := fun hentry => hfind _ hentry
  simp only [reachableObjects, List.append_nil, List.mem_cons, List.mem_append] at hmem
  have hroot := hmem (Or.inl rfl)
  have hown : loadSharedState find (storedSharedState ⟨node.fields.shares, node.fields.app⟩) =
      .ok ⟨node.fields.shares, node.fields.app⟩ :=
    loadSharedState_of_findsAll hnode.shares fun entry hentry => hmem (Or.inr (Or.inr hentry))
  have hbase : loadBase aether find node.base.id ⟨node.fields.shares, node.fields.app⟩ = _ :=
    loadBase_of_findsAll hclass hnode.base hnode.baseShares fun entry hentry =>
      hmem (Or.inr (Or.inl (Or.inl hentry)))
  have hjournal : (node.journal.map storedRecord).mapM (loadRecord find) =
      .ok node.journal := by
    rw [mapM_except_eq_ok_iff, List.forall₂_map_left_iff, List.forall₂_same]
    intro record hrecord
    exact loadRecord_of_findsAll (hnode.events record hrecord) (hnode.eventLinks record hrecord)
      fun entry hentry => hmem
        (Or.inr (Or.inl (Or.inr (List.mem_flatMap.mpr ⟨record, hrecord, hentry⟩))))
  have hstates : (storedLocalPtrs .networkShared
      (node.fields.linkSyncStates.map Ref.id)).mapM (loadLinkSyncState find) =
      .ok (node.fields.linkSyncStates.map fun _ => ⟨.empty, none⟩) := by
    rw [storedLocalPtrs, List.map_map, mapM_except_eq_ok_iff, List.forall₂_map_left_iff,
      List.forall₂_map_right_iff, List.forall₂_same]
    exact fun _ _ => rfl
  simp only [loadSharedNode, hnode.objId, hroot, rootObject, hown, hbase, hjournal, hstates,
    Bool.not_true, Bool.false_eq_true, if_false, bind, Except.bind, pure, Except.pure]
  rfl

end Loading

section Saving

variable {aether : Aether α ε} {objects : List (ObjId × StoredObject α ε)}

/-- One id names one object. -/
def ObjectsAgree (objects : List (ObjId × StoredObject α ε)) : Prop :=
  ∀ entry ∈ objects, ∀ other ∈ objects, entry.1 = other.1 → entry.2 = other.2

/-- Every saved object is there. -/
theorem layers?_savedObjects (aether : Aether α ε) (hagree : ObjectsAgree objects)
    {entry : ObjId × StoredObject α ε} (hentry : entry ∈ objects) :
    (savedObjects aether objects).layers? entry.1 = some (aether.saveObject entry.2) := by
  cases hlayers : (savedObjects aether objects).layers? entry.1 with
  | none =>
      rw [RamDomainStorage.layers?, savedObjects, AList.lookup_to_alist] at hlayers
      have hfound : (List.dlookup entry.1 (objects.map fun object =>
          (⟨object.1, some (aether.saveObject object.2)⟩ :
            Sigma fun _ : ObjId => Option Layers))).isSome = true := by
        rw [List.dlookup_isSome, List.keys, List.map_map]
        exact List.mem_map_of_mem hentry
      obtain ⟨value, hvalue⟩ := Option.isSome_iff_exists.mp hfound
      obtain ⟨object, -, heq⟩ := List.mem_map.mp (List.of_mem_dlookup (Option.mem_def.mpr hvalue))
      rw [hvalue, ← eq_of_heq (Sigma.mk.inj heq).2] at hlayers
      cases hlayers
  | some layers =>
      obtain ⟨object, hobject, rfl⟩ := exists_of_layers?_savedObjects aether hlayers
      rw [hagree entry hentry (entry.1, object) hobject rfl]

/-- A saved graph finds what was saved. -/
theorem findsAll_savedObjects (hlawful : aether.Lawful) (hagree : ObjectsAgree objects) :
    FindsAll ((savedObjects aether objects).find aether) objects := by
  intro entry hentry
  rw [RamDomainStorage.find, layers?_savedObjects aether hagree hentry, Option.bind_some,
    hlawful.loadObject_saveObject]

end Saving

end AppTraverse
