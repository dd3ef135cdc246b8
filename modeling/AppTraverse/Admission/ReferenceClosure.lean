import AppTraverse.Admission.ProductionLoad
import AppTraverse.Storage.LoadAgreement

/-!
# References of an admitted snapshot

The Event path validates that the references of a payload resolve within it
(`ValidateClosedEventGraphStorage`); the snapshot path does not.  What is
committed is closed, and loads without an object of the receiver, exactly when
the payload was self-contained already.
-/

namespace AppTraverse

open Foundations

variable {α ε : Type} (aether : Aether α ε) (app : AppClass α ε)

/-- Every shared reference of a stored object resolves within `parsed`, to an
object whose class derives from the static target of the reference. -/
def referencesClosed (parsed : RamDomainStorage) (object : StoredObject α ε) : Bool :=
  (object.references aether).all fun reference =>
    match mostDerivedClassId? aether parsed reference.2 with
    | none => false
    | some mostDerived => aether.derives reference.1 mostDerived

/-- Every reference of every stored object of `graph` names an object of `payload`
whose class derives from the static target of the reference. -/
def ClosedWithin (payload graph : RamDomainStorage) : Prop :=
  ∀ id layers object, graph.layers? id = some layers →
    aether.loadObject layers = some object → referencesClosed aether payload object = true

/-- The payload decodes to a graph that is closed in itself. -/
def PayloadIsClosed (payload : Bytes) : Prop :=
  ∀ parsed, deserializeObjectGraph aether payload = some parsed →
    ClosedWithin aether parsed parsed

/-- Everything an admission commits is closed within the payload. -/
def CommitsClosed (effects : List (Effect α ε)) (payload : Bytes) : Prop :=
  ∀ graph parsed, deserializeObjectGraph aether payload = some parsed →
    Effect.commitObjectGraph graph ∈ effects → ClosedWithin aether parsed graph

/-- The production load of the root is the load from the payload alone: no object
of the receiver was taken for one of the snapshot. -/
def CapturesNothing (env : StepEnv) (replica : Replica α ε) (sourceEndpoint : Bytes)
    (frame : NodeStateFrame) : Prop :=
  ∀ parsed root, deserializeObjectGraph aether frame.payload = some parsed →
    IsProductionRoot aether app env replica sourceEndpoint frame root →
    loadSharedNode aether (parsed.find aether) frame.targetNodeId = .ok (some root)

/-- The local references of the payload's root name objects of the payload, or
nothing at the receiver. -/
def LocalReferencesApart (replica : Replica α ε) (payload : Bytes) (nodeId : ObjId) :
    Prop :=
  ∀ parsed object, deserializeObjectGraph aether payload = some parsed →
    parsed.find aether nodeId = some object → ∀ stateId ∈ object.localReferences,
      (parsed.layers? stateId).isSome = true ∨
        productionFind aether app replica.others replica.runtime.nodes replica.storage
          stateId = none

/-- No local reference of the payload's root guesses a scratch id. -/
def ScratchIdsUnnamed (env : StepEnv) (payload : Bytes) (nodeId : ObjId) : Prop :=
  ∀ parsed object, deserializeObjectGraph aether payload = some parsed →
    parsed.find aether nodeId = some object →
    ∀ stateId ∈ object.localReferences, ∀ n, stateId ≠ env.scratch.ids n

/-- The Link of a loaded `AddShareEvent` is a reference of its stored object. -/
theorem mem_references_of_loadEvent {find : ObjectFinder α ε}
    {object : StoredObject α ε} {value : SharedNodeEvent ε} {link : Ref Link}
    {access : UInt8} (hbody : object.body = .event value)
    (hload : loadEvent find value = .ok (.addShare link access))
    (hvalid : link.id.isValid = true) :
    (aether.linkClassId, link.id) ∈ object.references aether := by
  have hreference : (aether.linkClassId, link.id) ∈
      bodyReferences aether object.body := by
    rw [hbody]
    cases value with
    | addShare stored storedAccess =>
        obtain ⟨loaded, hloaded, heq⟩ := except_bind_eq_ok_iff.mp hload
        cases heq
        rw [loadLink_id hloaded]
        exact List.mem_cons_self
    | removeShare _ => cases hload
    | changeShareAccess _ _ => cases hload
    | app _ => cases hload
  refine List.mem_filter.mpr ⟨?_, hvalid⟩
  exact List.mem_append_left _ (List.mem_append_right _ hreference)

/-- An object of a written graph was there before or is one of those written. -/
theorem layers?_storeObjects_cases {storage : RamDomainStorage}
    {objects : List (ObjId × StoredObject α ε)} {id : ObjId} {layers : Layers}
    (h : (storeObjects aether storage objects).layers? id = some layers) :
    storage.layers? id = some layers ∨
      ∃ object ∈ objects, layers = aether.saveObject object.2 := by
  induction objects generalizing storage with
  | nil => exact Or.inl h
  | cons head tail ih =>
      rw [storeObjects, List.foldl_cons] at h
      rcases ih h with hstorage | ⟨object, hobject, hlayers⟩
      · rw [layers?_insert] at hstorage
        split at hstorage
        · exact Or.inr ⟨head, List.mem_cons_self, (Option.some.inj hstorage).symm⟩
        · exact Or.inl hstorage
      · exact Or.inr ⟨object, List.mem_cons_of_mem _ hobject, hlayers⟩

/-- A sync state created while replaying a closed payload refers into it. -/
theorem referencesClosed_of_created {parsed : RamDomainStorage} {nodeId : ObjId}
    {candidate : SharedNode α ε}
    (hload : loadSharedNode aether (parsed.find aether) nodeId = .ok (some candidate))
    (hclosed : ClosedWithin aether parsed parsed) {made : CreatedLinkSyncState}
    {record : EventRecord (SharedNodeEvent ε)} (hrecord : record ∈ candidate.journal)
    {link : Ref Link} {access : UInt8}
    (hevent : record.event.obj = some (.addShare link access))
    (hlink : made.link = link.id) :
    referencesClosed aether parsed
      { classId := aether.linkSyncStateClassId
        body := .linkSyncState (.fresh made.shareId made.link) } = true := by
  obtain ⟨root, shared, states, -, hfrom, -⟩ := exists_loadedFrom aether hload
  obtain ⟨stored, -, hstored⟩ := forall₂_exists_of_mem_right hfrom.journal hrecord
  obtain ⟨object, value, hfind, hbody, hvalue⟩ := exists_stored_of_loadRecord hstored hevent
  obtain ⟨layers, hlayers, hobject⟩ := Option.bind_eq_some_iff.mp hfind
  have hobjectClosed := hclosed _ layers object hlayers hobject
  rw [referencesClosed, List.all_eq_true]
  intro reference hreference
  obtain ⟨hmem, hvalid⟩ := List.mem_filter.mp hreference
  have heq : reference = (aether.nodeClassId, ObjId.empty) ∨
      reference = (aether.linkClassId, link.id) := by
    simpa [bodyReferences, LinkSyncState.fresh, hlink] using hmem
  rcases heq with rfl | rfl
  · cases hvalid
  · rw [referencesClosed, List.all_eq_true] at hobjectClosed
    exact hobjectClosed _ (mem_references_of_loadEvent aether hbody hvalue hvalid)

/-- Admission commits a closed graph exactly when the payload is closed. -/
theorem commitsClosed_iff_payloadIsClosed (hlawful : aether.Lawful) {env : StepEnv}
    {replica : Replica α ε} {sourceEndpoint : Bytes} {frame : NodeStateFrame}
    {imported : ImportedNode α ε} (hfresh : ScratchIdsFresh aether env frame.payload)
    (himport : (importValidatedNode aether app env replica sourceEndpoint frame).result =
      .ok (some imported)) :
    CommitsClosed aether
      (importValidatedNode aether app env replica sourceEndpoint frame).effects
      frame.payload ↔ PayloadIsClosed aether frame.payload := by
  obtain ⟨parsed, validated, root, hadmission, heffects⟩ :=
    exists_admission aether app himport
  obtain ⟨candidate, replayed, share, hscratch⟩ :=
    exists_scratchValidation aether app hadmission.scratch
  obtain ⟨snapshot, applied, hreplay⟩ :=
    exists_admissibleReplay aether app hscratch.admissible
  obtain ⟨⟨kept, own, htrace⟩, -⟩ := hreplay.trace aether app
    (created_eq_nil_of_loadSharedNode aether hscratch.load) (fun n => (hfresh n).1)
  have hgraph : validated.graph = storeObjects aether parsed
      (createdObjects aether replayed.fields.created) := by
    rw [hscratch.result_eq]
  rw [heffects]
  constructor
  · intro hcommits parsed' hparsed'
    cases hadmission.parsed_eq.symm.trans hparsed'
    intro id layers object hlayers hobject
    refine hcommits validated.graph parsed hparsed' List.mem_cons_self id layers object ?_
      hobject
    rw [hgraph, layers?_storeObjects_of_notMem, hlayers]
    -- A created base snapshot cannot sit on an id of the payload.
    intro written hwritten hid
    obtain ⟨made, hmade, rfl⟩ := List.mem_map.mp hwritten
    obtain ⟨n, -, hbase⟩ := htrace.created_ids made hmade
    have hnone := (hfresh (2 * n + 1)).2 parsed hadmission.parsed_eq
    rw [← hbase, show made.baseId = id from hid, hlayers] at hnone
    cases hnone
  · intro hclosed graph parsed' hparsed' hcommit id layers object hlayers hobject
    cases hadmission.parsed_eq.symm.trans hparsed'
    have hparsedClosed := hclosed parsed hparsed'
    have hgraphEq : graph = validated.graph := by
      rcases List.mem_cons.mp hcommit with hhead | hrest
      · cases hhead
        rfl
      · obtain ⟨object, -, hstore⟩ := List.mem_map.mp hrest
        cases hstore
    rw [hgraphEq, hgraph] at hlayers
    rcases layers?_storeObjects_cases aether hlayers with hold | ⟨written, hwritten, rfl⟩
    · exact hparsedClosed id layers object hold hobject
    · obtain ⟨made, hmade, rfl⟩ := List.mem_map.mp hwritten
      rw [hlawful.loadObject_saveObject] at hobject
      cases hobject
      obtain ⟨record, hrecord, link, access, hevent, -, hlink⟩ :=
        htrace.created_origin made hmade
      exact referencesClosed_of_created aether hscratch.load hparsedClosed hrecord hevent
        hlink

/-- The payload's root is loaded in production from a closed payload as it is from
the payload alone, if its local references stay apart from the receiver. -/
theorem Admission.capturesNothing {env : StepEnv} {replica : Replica α ε}
    {sourceEndpoint : Bytes} {frame : NodeStateFrame} {imported : ImportedNode α ε}
    {parsed : RamDomainStorage} {validated : ValidatedSnapshot} {root : SharedNode α ε}
    (h : Admission aether app env replica sourceEndpoint frame imported parsed validated
      root) (hfresh : ScratchIdsFresh aether env frame.payload)
    (hunnamed : ScratchIdsUnnamed aether env frame.payload frame.targetNodeId)
    (hclosed : PayloadIsClosed aether frame.payload)
    (hlocal : LocalReferencesApart aether app replica frame.payload frame.targetNodeId) :
    loadSharedNode aether (parsed.find aether) frame.targetNodeId = .ok (some root) := by
  obtain ⟨candidate, replayed, share, hscratch⟩ :=
    exists_scratchValidation aether app h.scratch
  obtain ⟨object, shared, states, hbody, hfrom, -⟩ := exists_loadedFrom aether hscratch.load
  rw [← h.load]
  refine (loadSharedNode_congr hfrom.found (h.find_extends aether app hfresh _ _ hfrom.found)
    ?_ fun stateId hstate => ?_).symm
  · intro id found hfound reference hreference
    obtain ⟨layers, hlayers, hobject⟩ := Option.bind_eq_some_iff.mp hfound
    have hall := hclosed parsed h.parsed_eq id layers found hlayers hobject
    rw [referencesClosed, List.all_eq_true] at hall
    have htarget := hall reference hreference
    cases htargetLayers : parsed.layers? reference.2 with
    | none => simp [mostDerivedClassId?, htargetLayers] at htarget
    | some targetLayers => exact h.find_eq aether app hfresh htargetLayers
  · cases hlayers : parsed.layers? stateId with
    | some layers => exact h.find_eq aether app hfresh hlayers
    | none =>
        have hnone := hlocal parsed object h.parsed_eq hfrom.found stateId hstate
        rw [hlayers, Option.isSome_none] at hnone
        rw [h.find_eq_before aether app hfresh
          (hunnamed parsed object h.parsed_eq hfrom.found stateId hstate) hlayers,
          hnone.resolve_left Bool.false_ne_true, RamDomainStorage.find, hlayers]
        rfl

/-- A load that agrees with the payload alone took no sync state of the receiver. -/
theorem Admission.localReferencesApart {env : StepEnv} {replica : Replica α ε}
    {sourceEndpoint : Bytes} {frame : NodeStateFrame} {imported : ImportedNode α ε}
    {parsed : RamDomainStorage} {validated : ValidatedSnapshot} {root : SharedNode α ε}
    (h : Admission aether app env replica sourceEndpoint frame imported parsed validated
      root) (hfresh : ScratchIdsFresh aether env frame.payload)
    (hunnamed : ScratchIdsUnnamed aether env frame.payload frame.targetNodeId)
    (hload : loadSharedNode aether (parsed.find aether) frame.targetNodeId =
      .ok (some root)) :
    LocalReferencesApart aether app replica frame.payload frame.targetNodeId := by
  intro parsed' object hparsed' hobject stateId hstate
  cases h.parsed_eq.symm.trans hparsed'
  cases hlayers : parsed.layers? stateId with
  | some layers => exact Or.inl rfl
  | none =>
      right
      obtain ⟨object', shared, states, hbody, hfrom, hstates⟩ := exists_loadedFrom aether hload
      obtain ⟨object'', shared', states', hbody', hfrom', hstates'⟩ :=
        exists_loadedFrom aether h.load
      cases hobject.symm.trans hfrom.found
      cases (h.find_extends aether app hfresh _ _ hfrom.found).symm.trans hfrom'.found
      cases hbody.symm.trans hbody'
      rw [StoredObject.localReferences, hbody] at hstate
      obtain ⟨hmem, hvalid⟩ := List.mem_filter.mp hstate
      obtain ⟨entry, hentry, hentry'⟩ := forall₂_exists_of_mem_both hstates hstates' hmem
      -- The payload has no such object, so the entry is not loaded.
      have hfind : parsed.find aether stateId = none := by
        rw [RamDomainStorage.find, hlayers]
        rfl
      rw [loadLinkSyncState, hvalid, hfind] at hentry
      cases hentry
      rw [← h.find_eq_before aether app hfresh
        (hunnamed parsed object h.parsed_eq hobject stateId (by
          rw [StoredObject.localReferences, hbody]
          exact hstate)) hlayers]
      rw [loadLinkSyncState, hvalid] at hentry'
      simp only [Bool.not_true, Bool.false_eq_true, if_false] at hentry'
      split at hentry'
      case h_1 hnone => exact hnone
      case h_2 found hfound =>
        split at hentry' <;> cases hentry'

/-- An admitted snapshot is closed and captures nothing of the receiver exactly
when its payload is closed and its local references stay apart from the receiver. -/
theorem importValidatedNode_selfContained_iff (hlawful : aether.Lawful) {env : StepEnv}
    {replica : Replica α ε} {sourceEndpoint : Bytes} {frame : NodeStateFrame}
    {imported : ImportedNode α ε} (hfresh : ScratchIdsFresh aether env frame.payload)
    (hunnamed : ScratchIdsUnnamed aether env frame.payload frame.targetNodeId)
    (himport : (importValidatedNode aether app env replica sourceEndpoint frame).result =
      .ok (some imported)) :
    (CommitsClosed aether
        (importValidatedNode aether app env replica sourceEndpoint frame).effects
        frame.payload ∧
      CapturesNothing aether app env replica sourceEndpoint frame) ↔
    (PayloadIsClosed aether frame.payload ∧
      LocalReferencesApart aether app replica frame.payload frame.targetNodeId) := by
  rw [commitsClosed_iff_payloadIsClosed aether app hlawful hfresh himport]
  obtain ⟨parsed, validated, root, hadmission, -⟩ := exists_admission aether app himport
  refine and_congr_right fun hclosed => ?_
  constructor
  · intro hcaptures
    exact hadmission.localReferencesApart aether app hfresh hunnamed
      (hcaptures parsed root hadmission.parsed_eq
        ⟨validated, hadmission.validate, hadmission.load⟩)
  · rintro hlocal parsed' root' hparsed' ⟨validated', hvalidate', hload'⟩
    cases hadmission.parsed_eq.symm.trans hparsed'
    cases hadmission.validate.symm.trans hvalidate'
    cases hadmission.load.symm.trans hload'
    exact hadmission.capturesNothing aether app hfresh hunnamed hclosed hlocal

section ChatReplicas

/-- A journal with a relationship over a Link that the payload does not hold, and
that is closed again. -/
def sharesMissingLink : List ChatObject :=
  [eventObject 16 (addShareOf 77), eventObject 17 (.removeShare ⟨16⟩)] ++
    sharedRoom [record 16 3 {}, record 17 4 {}]

/-- Such a payload is admitted, and what it commits is not closed. -/
theorem sharesMissingLink_notClosed :
    (∃ imported, (importByClient true (frameOf 900 10 15 sharesMissingLink)).result =
      .ok (some imported)) ∧
    ¬ CommitsClosed chatAether
      (importByClient true (frameOf 900 10 15 sharesMissingLink)).effects
      (payloadOf sharesMissingLink) := by
  obtain ⟨imported, himport, -⟩ := exists_imported true
    (frameOf 900 10 15 sharesMissingLink) (fun _ => true) (by decide +kernel)
  refine ⟨⟨imported, himport⟩, fun hcommits => ?_⟩
  have hopen : (((importByClient true (frameOf 900 10 15 sharesMissingLink)).effects.head?.bind
      Effect.committedGraph?).bind fun graph =>
        (RamDomainStorage.layers? graph ⟨16⟩).bind fun layers =>
          (chatAether.loadObject layers).map fun object =>
            referencesClosed chatAether (storageOf sharesMissingLink) object) =
      some false := by decide +kernel
  obtain ⟨graph, hgraph, hopen⟩ := Option.bind_eq_some_iff.mp hopen
  obtain ⟨layers, hlayers, hopen⟩ := Option.bind_eq_some_iff.mp hopen
  obtain ⟨object, hobject, hopen⟩ := Option.map_eq_some_iff.mp hopen
  obtain ⟨effect, heffect, hcommit⟩ := Option.bind_eq_some_iff.mp hgraph
  rw [Effect.committedGraph?_eq_some] at hcommit
  rw [hcommit] at heffect
  have hclosed := hcommits graph _ (deserialize_payloadOf_eq _) (List.mem_of_head? heffect)
    ⟨16⟩ layers object hlayers hobject
  rw [hclosed] at hopen
  cases hopen

/-- The room of the example, over the equivalence. -/
theorem sharedRoom_selfContained_iff :
    (CommitsClosed chatAether
        (importByClient true (frameOf 900 10 15 (sharedRoom []))).effects
        (payloadOf (sharedRoom [])) ∧
      CapturesNothing chatAether chatRoom (receiverEnv true) waitingClient hostEndpoint
        (frameOf 900 10 15 (sharedRoom []))) ↔
    (PayloadIsClosed chatAether (payloadOf (sharedRoom [])) ∧
      LocalReferencesApart chatAether chatRoom waitingClient (payloadOf (sharedRoom []))
        ⟨10⟩) := by
  obtain ⟨imported, himport, -⟩ := exists_imported true (frameOf 900 10 15 (sharedRoom []))
    (fun _ => true) (by decide +kernel)
  refine importValidatedNode_selfContained_iff chatAether chatRoom chatAether_lawful
    (receiverEnv_scratchIdsFresh true (by decide)) ?_ himport
  intro parsed object hparsed hfind stateId hstate
  have hnone : ((RamDomainStorage.find chatAether (storageOf (sharedRoom [])) ⟨10⟩).map
      fun object => object.localReferences) = some [] := by decide
  rw [deserialize_payloadOf hparsed] at hfind
  rw [show RamDomainStorage.find chatAether (storageOf (sharedRoom [])) ⟨10⟩ = some object
    from hfind, Option.map_some] at hnone
  rw [Option.some.inj hnone] at hstate
  cases hstate

end ChatReplicas

end AppTraverse
