import AppTraverse.Admission.CommittedGraph

/-!
# The production load agrees with the scratch load

After the collision check, production resolves every id of the payload to the
object the scratch Domain saw.  Ids outside the payload may resolve to objects
of the receiver, so a reference that stayed unloaded in scratch may load in
production; what an object stores itself is the same in both.
-/

namespace AppTraverse

open Foundations

variable {α ε : Type} (aether : Aether α ε) (app : AppClass α ε)

/-- A record without what its references inside were loaded to. -/
def recordShape (record : EventRecord (SharedNodeEvent ε)) :
    EventRecord (SharedNodeEvent ε) :=
  { record with event := ⟨record.event.id, record.event.obj.map storedEvent⟩ }

section Stored

variable {find find' : ObjectFinder α ε}

/-- A record that is loaded in the smaller graph loads to the same Event in the
larger one. -/
theorem recordShape_eq_of_extends
    (hextends : ∀ id object, find id = some object → find' id = some object)
    {stored record record' : EventRecord (SharedNodeEvent ε)}
    (hload : loadRecord find stored = .ok record)
    (hload' : loadRecord find' stored = .ok record')
    (hloaded : record.event.isLoaded = true) : recordShape record = recordShape record' := by
  obtain ⟨event, hevent⟩ := Ref.isLoaded_iff.mp hloaded
  unfold loadRecord at hload hload'
  cases hvalid : stored.event.isValid with
  | false =>
      simp only [hvalid, Bool.not_false, if_true] at hload
      cases hload
      cases hevent
  | true =>
      simp only [hvalid, Bool.not_true, Bool.false_eq_true, if_false] at hload hload'
      cases hfind : find stored.event.id with
      | none =>
          simp only [hfind] at hload
          cases hload
          cases hevent
      | some object =>
          simp only [hfind, hextends _ _ hfind] at hload hload'
          cases hbody : object.body with
          | event value =>
              simp only [hbody] at hload hload'
              obtain ⟨value, hvalue, hload⟩ := except_bind_eq_ok_iff.mp hload
              obtain ⟨value', hvalue', hload'⟩ := except_bind_eq_ok_iff.mp hload'
              cases hload
              cases hload'
              simp [recordShape, storedEvent_loadEvent hvalue,
                storedEvent_loadEvent hvalue']
          | sharedNode _ _ => simp [hbody] at hload
          | link _ _ => simp [hbody] at hload
          | linkSyncState _ => simp [hbody] at hload
          | other => simp [hbody] at hload

/-- A base that is loaded in the smaller graph stores the same snapshot in the
larger one. -/
theorem storedBase_eq_of_extends
    (hextends : ∀ id object, find id = some object → find' id = some object)
    {baseId : ObjId} {own own' : SharedState α} {base base' : Ref (BaseSnapshot α)}
    (hload : loadBase aether find baseId own = .ok base)
    (hload' : loadBase aether find' baseId own' = .ok base')
    (hown : storedSharedState own = storedSharedState own') {snapshot : BaseSnapshot α}
    (hsnapshot : base.obj = some snapshot) :
    ∃ snapshot', base'.obj = some snapshot' ∧
      storedSharedState snapshot.toSharedState =
        storedSharedState snapshot'.toSharedState := by
  unfold loadBase at hload hload'
  cases hvalid : baseId.isValid with
  | false =>
      simp only [hvalid, Bool.not_false, if_true] at hload
      cases hload
      cases hsnapshot
  | true =>
      simp only [hvalid, Bool.not_true, Bool.false_eq_true, if_false] at hload hload'
      cases hfind : find baseId with
      | none =>
          simp only [hfind] at hload
          cases hload
          cases hsnapshot
      | some object =>
          simp only [hfind, hextends _ _ hfind] at hload hload'
          cases hclass : aether.derives aether.nodeClassId object.classId with
          | false => simp [hclass] at hload
          | true =>
              simp only [hclass, Bool.not_true, Bool.false_eq_true, if_false]
                at hload hload'
              cases hbody : object.body with
              | sharedNode shared _ =>
                  simp only [hbody] at hload hload'
                  obtain ⟨loaded, hloaded, hload⟩ := except_bind_eq_ok_iff.mp hload
                  obtain ⟨loaded', hloaded', hload'⟩ := except_bind_eq_ok_iff.mp hload'
                  cases hload
                  cases hload'
                  cases hsnapshot
                  refine ⟨_, rfl, ?_⟩
                  rw [storedSharedState_loadSharedState hloaded,
                    storedSharedState_loadSharedState hloaded']
              | link _ _ | linkSyncState _ | event _ | other =>
                  simp only [hbody] at hload hload'
                  cases hload
                  cases hload'
                  cases hsnapshot
                  exact ⟨_, rfl, hown⟩

/-- Two loads of one root from a graph and an extension of it store the same
journal and the same base snapshot. -/
theorem stored_eq_of_extends
    (hextends : ∀ id object, find id = some object → find' id = some object) {id : ObjId}
    {node node' : SharedNode α ε}
    (hload : loadSharedNode aether find id = .ok (some node))
    (hload' : loadSharedNode aether find' id = .ok (some node'))
    (hevents : ∀ record ∈ node.journal, record.event.isLoaded = true)
    {snapshot : BaseSnapshot α} (hsnapshot : node.base.obj = some snapshot) :
    node.classId = node'.classId ∧
      node.journal.map recordShape = node'.journal.map recordShape ∧
      ∃ snapshot', node'.base.obj = some snapshot' ∧
        storedSharedState snapshot.toSharedState =
        storedSharedState snapshot'.toSharedState := by
  obtain ⟨object, shared, states, hbody, hfrom, -⟩ := exists_loadedFrom aether hload
  obtain ⟨object', shared', states', hbody', hfrom', -⟩ := exists_loadedFrom aether hload'
  cases (hextends _ _ hfrom.found).symm.trans hfrom'.found
  cases hbody.symm.trans hbody'
  have hown := (storedSharedState_loadSharedState hfrom.shared_eq).trans
    (storedSharedState_loadSharedState hfrom'.shared_eq).symm
  refine ⟨hfrom.classId.trans hfrom'.classId.symm, ?_,
    storedBase_eq_of_extends aether hextends hfrom.base hfrom'.base hown hsnapshot⟩
  have hjournal := hfrom.journal
  have hjournal' := hfrom'.journal
  generalize object.journal = stored at hjournal hjournal'
  generalize hleft : node.journal = left at hjournal hevents
  generalize hright : node'.journal = right at hjournal'
  clear hleft hright
  induction hjournal generalizing right with
  | nil =>
      cases hjournal'
      rfl
  | @cons storedHead head storedTail tail hhead htail ih =>
      cases hjournal' with
      | @cons _ head' _ tail' hhead' htail' =>
          rw [List.map_cons, List.map_cons, ih
            (fun record h => hevents record (List.mem_cons_of_mem _ h)) _ htail',
            recordShape_eq_of_extends hextends hhead hhead'
              (hevents head List.mem_cons_self)]

end Stored

/-- The graph to commit has the payload's layers, and those of the created base
snapshots under scratch ids. -/
theorem Admission.layers?_graph {env : StepEnv} {replica : Replica α ε}
    {sourceEndpoint : Bytes} {frame : NodeStateFrame} {imported : ImportedNode α ε}
    {parsed : RamDomainStorage} {validated : ValidatedSnapshot} {root : SharedNode α ε}
    (h : Admission aether app env replica sourceEndpoint frame imported parsed validated
      root) (hfresh : ScratchIdsFresh aether env frame.payload) {id : ObjId}
    (hid : ∀ n, id ≠ env.scratch.ids n) :
    validated.graph.layers? id = parsed.layers? id := by
  obtain ⟨candidate, replayed, share, hscratch⟩ :=
    exists_scratchValidation aether app h.scratch
  obtain ⟨snapshot, applied, hreplay⟩ :=
    exists_admissibleReplay aether app hscratch.admissible
  obtain ⟨⟨kept, own, htrace⟩, -⟩ := hreplay.trace aether app
    (created_eq_nil_of_loadSharedNode aether hscratch.load) (fun n => (hfresh n).1)
  rw [hscratch.result_eq, layers?_storeObjects_of_notMem]
  intro written hwritten hwrittenId
  obtain ⟨made, hmade, rfl⟩ := List.mem_map.mp hwritten
  obtain ⟨n, -, hbase⟩ := htrace.created_ids made hmade
  exact hid _ (hwrittenId.symm.trans hbase)

/-- Production resolves every id of an admitted payload as the scratch Domain
did. -/
theorem Admission.find_eq {env : StepEnv} {replica : Replica α ε}
    {sourceEndpoint : Bytes} {frame : NodeStateFrame} {imported : ImportedNode α ε}
    {parsed : RamDomainStorage} {validated : ValidatedSnapshot} {root : SharedNode α ε}
    (h : Admission aether app env replica sourceEndpoint frame imported parsed validated
      root) (hfresh : ScratchIdsFresh aether env frame.payload) {id : ObjId}
    {layers : Layers} (hlayers : parsed.layers? id = some layers) :
    productionFind aether app replica.others replica.runtime.nodes
      (replica.storage.perform (.commitObjectGraph validated.graph)) id =
      parsed.find aether id := by
  have hgraph : validated.graph.layers? id = some layers := by
    rw [h.layers?_graph aether app hfresh, hlayers]
    rintro n rfl
    rw [(hfresh n).2 parsed h.parsed_eq] at hlayers
    cases hlayers
  have hfree := h.apart
  rw [collidesWithReceiver, List.any_eq_false] at hfree
  have hunoccupied := hfree (id, layers) (RamDomainStorage.mem_live_iff.mpr hgraph)
  rw [occupiedAtReceiver, Bool.or_eq_true, not_or] at hunoccupied
  have hnone := hunoccupied.1
  rw [Option.isSome_iff_ne_none, not_not] at hnone
  have hstored : (replica.storage.perform
      (.commitObjectGraph validated.graph)).objects.find aether id =
      parsed.find aether id := by
    rw [RamDomainStorage.find, RamDomainStorage.find, hlayers]
    change (RamDomainStorage.layers?
      (commitObjectGraph validated.graph replica.storage.objects) id).bind _ = _
    rw [layers?_commitObjectGraph, hgraph]
    rfl
  rw [productionFind, hstored]
  change (findObject (_ ++ replica.storage.nodes.flatMap (liveNodeObjects aether app))
    id).or _ = _
  rw [hnone]
  rfl

theorem Admission.find_extends {env : StepEnv} {replica : Replica α ε}
    {sourceEndpoint : Bytes} {frame : NodeStateFrame} {imported : ImportedNode α ε}
    {parsed : RamDomainStorage} {validated : ValidatedSnapshot} {root : SharedNode α ε}
    (h : Admission aether app env replica sourceEndpoint frame imported parsed validated
      root) (hfresh : ScratchIdsFresh aether env frame.payload) :
    ∀ id object, parsed.find aether id = some object →
      productionFind aether app replica.others replica.runtime.nodes
        (replica.storage.perform (.commitObjectGraph validated.graph)) id =
        some object := by
  intro id object hfind
  obtain ⟨layers, hlayers, -⟩ := Option.bind_eq_some_iff.mp hfind
  rw [h.find_eq aether app hfresh hlayers, hfind]

/-- An id that is neither in the payload nor generated is resolved as before. -/
theorem Admission.find_eq_before {env : StepEnv} {replica : Replica α ε}
    {sourceEndpoint : Bytes} {frame : NodeStateFrame} {imported : ImportedNode α ε}
    {parsed : RamDomainStorage} {validated : ValidatedSnapshot} {root : SharedNode α ε}
    (h : Admission aether app env replica sourceEndpoint frame imported parsed validated
      root) (hfresh : ScratchIdsFresh aether env frame.payload) {id : ObjId}
    (hid : ∀ n, id ≠ env.scratch.ids n) (habsent : parsed.layers? id = none) :
    productionFind aether app replica.others replica.runtime.nodes
      (replica.storage.perform (.commitObjectGraph validated.graph)) id =
      productionFind aether app replica.others replica.runtime.nodes replica.storage id := by
  have hgraph := h.layers?_graph aether app hfresh hid
  rw [habsent] at hgraph
  rw [productionFind, productionFind, RamDomainStorage.find, RamDomainStorage.find]
  change (findObject _ id).or ((RamDomainStorage.layers?
    (commitObjectGraph validated.graph replica.storage.objects) id).bind _) = _
  rw [layers?_commitObjectGraph, hgraph]
  rfl

end AppTraverse
