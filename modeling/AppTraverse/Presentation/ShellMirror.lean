import AppTraverse.Presentation.ShellRuns

/-!
# The objects of a publication in the GUI

An object of the GUI keeps the class it has.  So the GUI has the objects of a publication
with their classes exactly if those that it had before have them and every shell that is
needed is created with the class of its model Node.

Which shells are needed is a matter of what the records store: the record of an object that
is there, or that is stored with one that is, needs none; nor does a record that an earlier
record stores.
-/

namespace AppTraverse

open Foundations

section Stored

/-- The layers that the payload of a record holds. -/
def recordLayers (record : PublishedRecord) : List PublishedLayer :=
  ((tableOf layerEntry record.payload).map Prod.fst).getD []

/-- The payload of a record stores an object. -/
def StoresObject (record : PublishedRecord) (id : ObjId) : Prop :=
  ∃ layer ∈ recordLayers record, layer.query.id = id

/-- The payload holds its two tables and nothing else. -/
def WellFormedRecord (record : PublishedRecord) : Prop :=
  ∃ rest generations, tableOf layerEntry record.payload = some (recordLayers record, rest) ∧
    tableOf generationEntry rest = some (generations, [])

/-- The objects that the records bring when these are there. -/
inductive Mirrored (present : ObjId → Prop) (records : List PublishedRecord) : ObjId → Prop
  | present {id : ObjId} : present id → Mirrored present records id
  | stored {record : PublishedRecord} {id : ObjId} : record ∈ records →
      Mirrored present records record.objId → StoresObject record id →
      Mirrored present records id

/-- The class of a shell for the record is inferred right: its factory is there, and no
layer of another class but `Node` has a greater class id. -/
structure ShellIsRight {ε : Type} (aether : ShellAether ε) (nodeClassId : ClassId)
    (classOf : ObjId → ClassId) (record : PublishedRecord) : Prop where
  nonzero : classOf record.objId ≠ 0
  factory : (aether.create (classOf record.objId)).isSome
  greatest : ∀ layer ∈ recordLayers record, layer.query.id = record.objId →
    layer.query.classId ≠ nodeClassId →
      layer.query.classId ≤ othersBound nodeClassId (classOf record.objId)

/-- Every record in turn needs no shell, since its object is there then, or gets a right one. -/
def ShellsRight {ε : Type} (aether : ShellAether ε) (nodeClassId : ClassId)
    (classOf : ObjId → ClassId) : (ObjId → Prop) → List PublishedRecord → Prop
  | _, [] => True
  | present, record :: rest =>
      (¬present record.objId → ShellIsRight aether nodeClassId classOf record) ∧
        ShellsRight aether nodeClassId classOf
          (fun id => present id ∨ StoresObject record id) rest

end Stored

section Classes

variable {ε : Type}

/-- The class of an object of the GUI. -/
def classAt (domain : ShellDomain ε) (id : ObjId) : Option ClassId :=
  (domain id).map fun object => object.fields

theorem isSome_classAt {domain : ShellDomain ε} {id : ObjId} :
    (classAt domain id).isSome = (domain id).isSome := by
  rw [classAt, Option.isSome_map]

theorem classAt_adoptGeneration (domain : ShellDomain ε) (entry : ObjId × UInt64)
    (id : ObjId) : classAt (adoptGeneration domain entry) id = classAt domain id := by
  by_cases hid : id = entry.1
  · rw [hid, classAt, classAt, adoptGeneration_self]
    cases domain entry.1 with
    | none => rfl
    | some object =>
        rw [Option.map_some, Option.map_some, Option.map_some, finalizeUiNodeState]
        cases object.node <;> rfl
  · rw [classAt, classAt, adoptGeneration_of_ne domain hid]

theorem classAt_adoptGenerations (entries : List (ObjId × UInt64)) (domain : ShellDomain ε)
    (id : ObjId) : classAt (entries.foldl adoptGeneration domain) id = classAt domain id := by
  induction entries generalizing domain with
  | nil => rfl
  | cons head tail ih => rw [List.foldl_cons, ih, classAt_adoptGeneration]

/-- A loaded object and the others keep their classes. -/
def KeepsClasses (loader : UiLoader ε ClassId) : Prop :=
  ∀ storage domain id other classId, classAt domain other = some classId →
    classAt (loader.loadObject storage domain id).1 other = some classId

/-- The objects that a record stores have their model's classes, where they are there. -/
def RightFor (classOf : ObjId → ClassId) (record : PublishedRecord)
    (domain : ShellDomain ε) : Prop :=
  ∀ id, StoresObject record id → ∀ classId, classAt domain id = some classId →
    classId = classOf id

/-- What the GUI side relies on for a record: from a storage with the layers of the record,
loading its object, which has its class, constructs the stored objects that are missing,
with their classes; and loading an object again when they are all there changes no class. -/
structure LoadsRecord (loader : UiLoader ε ClassId) (classOf : ObjId → ClassId)
    (record : PublishedRecord) : Prop where
  root : ∀ storage domain,
    (∀ layer ∈ recordLayers record, (storage.lookup layer.query).isSome) →
    RightFor classOf record domain → (classAt domain record.objId).isSome → ∀ id,
      (StoresObject record id →
        classAt (loader.loadObject storage domain record.objId).1 id = some (classOf id)) ∧
      (¬StoresObject record id →
        classAt (loader.loadObject storage domain record.objId).1 id = classAt domain id)
  again : ∀ storage domain id,
    (∀ layer ∈ recordLayers record, (storage.lookup layer.query).isSome) →
    (∀ other, StoresObject record other → classAt domain other = some (classOf other)) →
    StoresObject record id → ∀ other,
      classAt (loader.loadObject storage domain id).1 other = classAt domain other

variable {loader : UiLoader ε ClassId} {classOf : ObjId → ClassId} {record : PublishedRecord}

theorem classAt_refreshAll_kept (hkeeps : KeepsClasses loader) (storage : UiStorage)
    (ids : List ObjId) {domain : ShellDomain ε} {id : ObjId} {classId : ClassId}
    (h : classAt domain id = some classId) :
    classAt (ids.foldl (refreshObject loader storage) domain) id = some classId := by
  induction ids generalizing domain with
  | nil => exact h
  | cons head tail ih =>
      rw [List.foldl_cons]
      apply ih
      rw [refreshObject]
      split
      case isTrue => exact hkeeps storage domain head id classId h
      case isFalse => exact h

theorem asserting_eq_ok_iff {ρ : Type} {result : Except LoadFailure ρ} {value : ρ} :
    asserting result = .ok value ↔ result = .ok value := by
  cases result with
  | ok found => simp [asserting]
  | error failure => cases failure <;> simp [asserting]

/-- The adopted Domain of a source that was read before. -/
theorem classAt_adoptGenerationTable {bytes : Bytes} {pos : Nat} (hpos : pos ≤ bytes.length)
    {domain : ShellDomain ε} {adopted : ByteSource × ShellDomain ε}
    (h : adoptGenerationTable ⟨bytes, pos, true⟩ domain = .ok adopted) (id : ObjId) :
    classAt adopted.2 id = classAt domain id := by
  rcases @adoptGenerationTable_cases ε ClassId bytes pos hpos with
    ⟨-, hfails⟩ | ⟨entries, after, -, -, hadopts⟩
  · obtain ⟨stage, hfails⟩ := hfails domain
    rw [hfails] at h
    cases h
  · rw [hadopts domain] at h
    obtain rfl := Except.ok.inj h
    exact classAt_adoptGenerations entries domain id

/-- Loading a payload keeps the classes. -/
theorem deserialize_keeps (hkeeps : KeepsClasses loader) {root : ObjId} {payload : Bytes}
    {storage : UiStorage} {domain : ShellDomain ε} {read : UiStorage × ShellDomain ε}
    (h : deserializeObjectGraphFromBuffer loader root payload storage domain = .ok read)
    {id : ObjId} {classId : ClassId} (hclass : classAt domain id = some classId) :
    classAt read.2 id = some classId := by
  obtain ⟨injected, hinjected, h⟩ := except_bind_eq_ok_iff.mp h
  obtain ⟨adopted, hadopted, h⟩ := except_bind_eq_ok_iff.mp h
  obtain rfl := Except.ok.inj h
  rw [asserting_eq_ok_iff] at hinjected hadopted
  rcases readAndInject_cases (Nat.zero_le payload.length) storage with
    ⟨-, stage, hfails⟩ | ⟨layers, after, hafter, -, hinject⟩
  · rw [hfails] at hinjected
    cases hinjected
  · rw [hinject] at hinjected
    obtain rfl := Except.ok.inj hinjected
    rw [classAt_adoptGenerationTable hafter hadopted]
    apply classAt_refreshAll_kept hkeeps
    exact hkeeps _ domain root id classId hclass

theorem lookup_storeLayers_isSome {layers : List PublishedLayer} {storage : UiStorage}
    {layer : PublishedLayer} (h : layer ∈ layers) :
    ((storeLayers layers storage).lookup layer.query).isSome := by
  have hstays : ∀ (layers : List PublishedLayer) (storage : UiStorage) (query : DomainQuery),
      (storage.lookup query).isSome → ((storeLayers layers storage).lookup query).isSome := by
    intro layers
    induction layers with
    | nil => exact fun _ _ h => h
    | cons head tail ih =>
        intro storage query hquery
        apply ih
        by_cases heq : query = head.query
        · rw [heq, AList.lookup_insert]
          rfl
        · rw [AList.lookup_insert_ne heq]
          exact hquery
  induction layers generalizing storage with
  | nil => cases h
  | cons head tail ih =>
      rcases List.mem_cons.mp h with rfl | htail
      · apply hstays tail
        rw [AList.lookup_insert]
        rfl
      · exact ih htail

/-- Loading the payload of a record brings the stored objects with their classes, and
changes the class of no other. -/
theorem deserialize_right (hloads : LoadsRecord loader classOf record)
    (hform : WellFormedRecord record) (storage : UiStorage) {domain : ShellDomain ε}
    (hright : RightFor classOf record domain)
    (hthere : (classAt domain record.objId).isSome) :
    ∃ read, deserializeObjectGraphFromBuffer loader record.objId record.payload storage domain =
        .ok read ∧ ∀ id, (StoresObject record id → classAt read.2 id = some (classOf id)) ∧
          (¬StoresObject record id → classAt read.2 id = classAt domain id) := by
  obtain ⟨rest, generations, hlayers, hgenerations⟩ := hform
  rcases readAndInject_cases (Nat.zero_le record.payload.length) storage with
    ⟨hnone, -⟩ | ⟨layers, after, hafter, hsome, hinject⟩
  · rw [List.drop_zero, hlayers] at hnone
    cases hnone
  rw [List.drop_zero, hlayers] at hsome
  obtain ⟨rfl, hrest⟩ := Prod.mk.inj (Option.some.inj hsome)
  rcases @adoptGenerationTable_cases ε ClassId record.payload after hafter with
    ⟨hnone, -⟩ | ⟨entries, final, hfinal, -, hadopt⟩
  · rw [← hrest, hgenerations] at hnone
    cases hnone
  have hstored : ∀ layer ∈ recordLayers record,
      ((storeLayers (recordLayers record) storage).lookup layer.query).isSome :=
    fun layer hlayer => lookup_storeLayers_isSome hlayer
  have hroot := hloads.root _ domain hstored hright hthere
  -- The objects are all there when they are loaded again.
  have hagain : ∀ (ids : List ObjId) (loaded : ShellDomain ε),
      (∀ id ∈ ids, StoresObject record id) →
      (∀ other, StoresObject record other → classAt loaded other = some (classOf other)) →
      ∀ other, classAt (ids.foldl (refreshObject loader
        (storeLayers (recordLayers record) storage)) loaded) other = classAt loaded other := by
    intro ids
    induction ids with
    | nil => exact fun _ _ _ _ => rfl
    | cons head tail ih =>
        intro loaded hids hall other
        have hhead := hids head (List.mem_cons_self ..)
        have hsame := hloads.again _ loaded head hstored hall hhead
        have hthere' : (loaded head).isSome := by
          rw [← isSome_classAt, hall head hhead]
          rfl
        rw [List.foldl_cons, refreshObject, if_pos hthere']
        rw [ih _ (fun id hid => hids id (List.mem_cons_of_mem _ hid))
          (fun id hid => by rw [hsame, hall id hid]), hsame]
  have hids : ∀ id ∈ noteObjIds (recordLayers record) [], StoresObject record id := by
    intro id hid
    rcases mem_noteObjIds.mp hid with hnil | hlayer
    · cases hnil
    · exact hlayer
  have hrun : deserializeObjectGraphFromBuffer loader record.objId record.payload storage
      domain = .ok (storeLayers (recordLayers record) storage,
        entries.foldl adoptGeneration ((noteObjIds (recordLayers record) []).foldl
          (refreshObject loader (storeLayers (recordLayers record) storage))
          (loader.loadObject (storeLayers (recordLayers record) storage) domain
            record.objId).1)) := by
    rw [deserializeObjectGraphFromBuffer, hinject]
    show (asserting (adoptGenerationTable ⟨record.payload, after, true⟩ _)).bind _ = _
    rw [hadopt]
    rfl
  refine ⟨_, hrun, fun id => ?_⟩
  rw [classAt_adoptGenerations, hagain _ _ hids fun other hother => (hroot other).1 hother]
  exact hroot id

/-- Applying the record of an object that is there. -/
theorem applyExisting_right (hloads : LoadsRecord loader classOf record)
    (hform : WellFormedRecord record) (hnew : record.applied = false) (ui : UiState ε)
    (hright : RightFor classOf record ui.domain)
    (hthere : (classAt ui.domain record.objId).isSome) :
    ∃ next, applyExisting loader record ui = .ok (some next) ∧
      ∀ id, (StoresObject record id → classAt next.domain id = some (classOf id)) ∧
        (¬StoresObject record id → classAt next.domain id = classAt ui.domain id) := by
  obtain ⟨read, hread, hclasses⟩ := deserialize_right hloads hform ui.storage hright hthere
  have hready : ¬(record.applied || (ui.domain record.objId).isNone) = true := by
    rw [isSome_classAt] at hthere
    simp [hnew, Option.isNone_eq_false_iff.mpr hthere]
  refine ⟨⟨read.1, adoptGeneration read.2 (record.objId, record.generation),
    ui.changedObjIds ++ [record.objId]⟩, ?_, fun id => ?_⟩
  · rw [applyExisting, if_neg hready, hread]
    rfl
  · rw [classAt_adoptGeneration]
    exact hclasses id

theorem applyExisting_keeps (hkeeps : KeepsClasses loader) {ui next : UiState ε}
    (h : applyExisting loader record ui = .ok (some next)) {id : ObjId} {classId : ClassId}
    (hclass : classAt ui.domain id = some classId) : classAt next.domain id = some classId := by
  rw [applyExisting] at h
  split at h
  case isTrue => cases h
  case isFalse =>
    obtain ⟨read, hread, h⟩ := except_bind_eq_ok_iff.mp h
    obtain rfl := Option.some.inj (Except.ok.inj h)
    rw [classAt_adoptGeneration]
    exact deserialize_keeps hkeeps hread hclass

end Classes

section Kept

variable {ε : Type} {loader : UiLoader ε ClassId} {root : ObjId}

theorem applyPass_keeps (hkeeps : KeepsClasses loader) {select : PublishedRecord → Bool}
    {records : List PublishedRecord} {ui : UiState ε} {pass : Pass ε}
    (h : applyPass loader select records ui = .ok pass) {id : ObjId} {classId : ClassId}
    (hclass : classAt ui.domain id = some classId) :
    classAt pass.ui.domain id = some classId := by
  induction records generalizing ui pass with
  | nil =>
      obtain rfl := Except.ok.inj h
      exact hclass
  | cons record rest ih =>
      obtain ⟨outcome, later, houtcome, hlater, rfl⟩ := applyPass_cons h
      show classAt later.ui.domain id = some classId
      apply ih hlater
      cases outcome with
      | none => exact hclass
      | some next => exact applyExisting_keeps hkeeps (outcome_of_selected houtcome) hclass

theorem progressLoop_keeps (hkeeps : KeepsClasses loader) {fuel : Nat}
    {records : List PublishedRecord} {ui : UiState ε} {pass : Pass ε}
    (h : progressLoop loader root fuel records ui = .ok pass) {id : ObjId} {classId : ClassId}
    (hclass : classAt ui.domain id = some classId) :
    classAt pass.ui.domain id = some classId := by
  induction fuel generalizing records ui with
  | zero => cases h
  | succ fuel ih =>
      obtain ⟨first, hfirst, h⟩ := except_bind_eq_ok_iff.mp h
      obtain ⟨second, hsecond, h⟩ := except_bind_eq_ok_iff.mp h
      have hkept := applyPass_keeps hkeeps hsecond (applyPass_keeps hkeeps hfirst hclass)
      split at h
      case isTrue => exact ih h hkept
      case isFalse =>
        obtain rfl := Except.ok.inj h
        exact hkept

theorem createUiShell_keeps {aether : ShellAether ε} {domain next : ShellDomain ε}
    {created : ObjId} {shellClass : ClassId}
    (h : createUiShell aether domain created shellClass = some next) {id : ObjId}
    {classId : ClassId} (hclass : classAt domain id = some classId) :
    classAt next id = some classId := by
  rw [createUiShell] at h
  split at h
  case isTrue =>
    obtain rfl := Option.some.inj h
    exact hclass
  case isFalse hmissing =>
    split at h
    case isTrue => cases h
    case isFalse =>
      obtain ⟨object, -, rfl⟩ := Option.map_eq_some_iff.mp h
      have hne : id ≠ created := by
        rintro rfl
        rw [← isSome_classAt, hclass] at hmissing
        exact hmissing rfl
      rw [classAt, Function.update_of_ne hne]
      exact hclass

theorem createShells_keeps {aether : ShellAether ε} {nodeClassId : ClassId}
    (hkeeps : KeepsClasses aether.loader) {records : List PublishedRecord}
    {ui final : UiState ε} (h : createShells aether nodeClassId records ui = .ok final)
    {id : ObjId} {classId : ClassId} (hclass : classAt ui.domain id = some classId) :
    classAt final.domain id = some classId := by
  induction records generalizing ui with
  | nil =>
      obtain rfl := Except.ok.inj h
      exact hclass
  | cons record rest ih =>
      cases happlied : record.applied with
      | true =>
          rw [createShells, happlied, if_pos rfl] at h
          exact ih h hclass
      | false =>
          obtain ⟨shellClass, domain, next, -, hshell, hnext, hrest⟩ :=
            createShells_cons happlied h
          apply ih hrest
          exact applyExisting_keeps hkeeps hnext (createUiShell_keeps hshell hclass)

end Kept

end AppTraverse
