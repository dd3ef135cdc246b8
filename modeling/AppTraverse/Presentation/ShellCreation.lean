import AppTraverse.Presentation.ShellMirror

/-!
# Which shells are created, and of which classes

The first loops of `ApplyPublished` bring the objects that are stored with those that are
there, and go wrong nowhere.  The last loop goes wrong at the first shell whose class is
not inferred right, and at no other place.
-/

namespace AppTraverse

open Foundations

variable {ε : Type} {aether : ShellAether ε} {nodeClassId : ClassId} {classOf : ObjId → ClassId}
  {written : List PublishedRecord} {root : ObjId}

/-- What the GUI side relies on for a publication. -/
structure LoadsPublication (aether : ShellAether ε) (classOf : ObjId → ClassId)
    (written : List PublishedRecord) : Prop where
  keeps : KeepsClasses aether.loader
  loads : ∀ record ∈ written, LoadsRecord aether.loader classOf record

/-- What a record of a Node is: its two tables, where the layers of the Node are in the
order of their classes and one of them is of its own class. -/
structure NodeRecord (classOf : ObjId → ClassId) (record : PublishedRecord) : Prop where
  wellFormed : WellFormedRecord record
  ordered : (classesOf (recordLayers record) record.objId).Pairwise (· ≤ ·)
  ownLayer : classOf record.objId ∈ classesOf (recordLayers record) record.objId

theorem mem_classesOf {layers : List PublishedLayer} {id : ObjId} {classId : ClassId} :
    classId ∈ classesOf layers id ↔
      ∃ layer ∈ layers, layer.query.id = id ∧ layer.query.classId = classId := by
  simp [classesOf, and_assoc]

theorem NodeRecord.storesOwn {record : PublishedRecord} (h : NodeRecord classOf record) :
    StoresObject record record.objId := by
  obtain ⟨layer, hlayer, hid, -⟩ := mem_classesOf.mp h.ownLayer
  exact ⟨layer, hlayer, hid⟩

/-- What holds while the records of objects that are there are applied. -/
structure Progressed (classOf : ObjId → ClassId) (present : ObjId → Prop)
    (written records : List PublishedRecord) (domain : ShellDomain ε) : Prop where
  same : unmarked records = written
  right : ∀ record ∈ written, RightFor classOf record domain
  brought : ∀ record ∈ records, record.applied = true → ∀ id, StoresObject record id →
    (classAt domain id).isSome
  reached : ∀ id, (classAt domain id).isSome → Mirrored present written id
  kept : ∀ id, present id → (classAt domain id).isSome

/-- Marks do not matter for what a record is. -/
theorem mem_written {records : List PublishedRecord} (hsame : unmarked records = written)
    {record : PublishedRecord} (h : record ∈ records) :
    { record with applied := false } ∈ written := by
  rw [← hsame]
  exact List.mem_map_of_mem h

theorem unmarked_append (before after : List PublishedRecord) :
    unmarked (before ++ after) = unmarked before ++ unmarked after := List.map_append

/-- The objects that are there after a record is applied. -/
theorem isSome_of_right {record : PublishedRecord} {domain next : ShellDomain ε}
    (h : ∀ id, (StoresObject record id → classAt next id = some (classOf id)) ∧
      (¬StoresObject record id → classAt next id = classAt domain id)) (id : ObjId) :
    (classAt next id).isSome ↔ (classAt domain id).isSome ∨ StoresObject record id := by
  by_cases hstored : StoresObject record id
  · rw [(h id).1 hstored]
    exact ⟨fun _ => Or.inr hstored, fun _ => rfl⟩
  · rw [(h id).2 hstored]
    exact ⟨Or.inl, fun hor => hor.resolve_right hstored⟩

/-- Objects that have their classes have them after a record is applied. -/
theorem rightFor_of_right {record other : PublishedRecord} {domain next : ShellDomain ε}
    (h : ∀ id, (StoresObject record id → classAt next id = some (classOf id)) ∧
      (¬StoresObject record id → classAt next id = classAt domain id))
    (hright : RightFor classOf other domain) : RightFor classOf other next := by
  intro id hid classId hclass
  by_cases hstored : StoresObject record id
  · rw [(h id).1 hstored] at hclass
    exact (Option.some.inj hclass).symm
  · rw [(h id).2 hstored] at hclass
    exact hright id hid classId hclass

/-- Applying the record of an object that is there is progress. -/
theorem Progressed.applied {present : ObjId → Prop} {before after : List PublishedRecord}
    {record : PublishedRecord} {domain next : ShellDomain ε}
    (h : Progressed classOf present written (before ++ record :: after) domain)
    (hthere : (classAt domain record.objId).isSome)
    (hclasses : ∀ id, (StoresObject record id → classAt next id = some (classOf id)) ∧
      (¬StoresObject record id → classAt next id = classAt domain id)) :
    Progressed classOf present written
      (before ++ { record with applied := true } :: after) next := by
  have hmem := mem_written h.same (List.mem_append_right before (List.mem_cons_self ..))
  have hsome := isSome_of_right hclasses
  constructor
  case same =>
    rw [← h.same, unmarked_append, unmarked_append]
    rfl
  case right => exact fun other hother => rightFor_of_right hclasses (h.right other hother)
  case brought =>
    intro other hother happlied id hid
    rw [hsome id]
    rcases List.mem_append.mp hother with hbefore | hcons
    · exact Or.inl (h.brought other (List.mem_append_left _ hbefore) happlied id hid)
    · rcases List.mem_cons.mp hcons with rfl | hafter
      · exact Or.inr hid
      · exact Or.inl (h.brought other
          (List.mem_append_right _ (List.mem_cons_of_mem _ hafter)) happlied id hid)
  case reached =>
    intro id hid
    rcases (hsome id).mp hid with hold | hstored
    · exact h.reached id hold
    · exact Mirrored.stored hmem (h.reached record.objId hthere) hstored
  case kept => exact fun id hid => (hsome id).mpr (Or.inl (h.kept id hid))

/-- A loop over the records applies those that it may, and nothing goes wrong. -/
theorem applyPass_progressed (hpublication : LoadsPublication aether classOf written)
    (hrecords : ∀ record ∈ written, NodeRecord classOf record) {present : ObjId → Prop}
    (select : PublishedRecord → Bool) (before rest : List PublishedRecord) {ui : UiState ε}
    (h : Progressed classOf present written (before ++ rest) ui.domain) :
    ∃ pass, applyPass aether.loader select rest ui = .ok pass ∧
      Progressed classOf present written (before ++ pass.records) pass.ui.domain ∧
      (pass.progress = false → pass.records = rest ∧ pass.ui = ui ∧
        ∀ record ∈ rest, select record = true → record.applied = false →
          classAt ui.domain record.objId = none) := by
  induction rest generalizing before ui with
  | nil => exact ⟨⟨[], ui, false⟩, rfl, h, fun _ => ⟨rfl, rfl, by simp⟩⟩
  | cons record rest ih =>
      have hmem := mem_written h.same (List.mem_append_right before (List.mem_cons_self ..))
      by_cases hready : select record = true ∧ record.applied = false ∧
          (classAt ui.domain record.objId).isSome
      · obtain ⟨hselect, hnew, hthere⟩ := hready
        have hwritten : record ∈ written := by
          have hunmarked : { record with applied := false } = record := by rw [← hnew]
          rw [← hunmarked]
          exact hmem
        obtain ⟨next, hnext, hclasses⟩ := applyExisting_right
          (hpublication.loads record hwritten) (hrecords record hwritten).wellFormed hnew ui
          (h.right record hwritten) hthere
        have hprogressed := h.applied hthere hclasses
        rw [List.append_cons] at hprogressed
        obtain ⟨later, hlater, hdone, -⟩ := ih _ hprogressed
        refine ⟨⟨{ record with applied := record.applied || true } :: later.records, later.ui,
          true⟩, ?_, ?_, by simp⟩
        · rw [applyPass, applySelected, if_pos hselect, hnext]
          show (applyPass aether.loader select rest next).bind _ = _
          rw [hlater]
          rfl
        · rw [Bool.or_true, List.append_cons]
          exact hdone
      · have houtcome : applySelected aether.loader select record ui = .ok none := by
          rw [applySelected]
          split
          case isFalse => rfl
          case isTrue hselect =>
            rw [applyExisting]
            split
            case isTrue => rfl
            case isFalse hgo =>
              simp only [Bool.or_eq_true, not_or, Bool.not_eq_true,
                Option.isNone_eq_false_iff] at hgo
              exact absurd ⟨hselect, hgo.1, by rw [isSome_classAt]; exact hgo.2⟩ hready
        have hcons := h
        rw [List.append_cons] at hcons
        obtain ⟨later, hlater, hdone, hstill⟩ := ih _ hcons
        refine ⟨⟨{ record with applied := record.applied || false } :: later.records, later.ui,
          later.progress⟩, ?_, ?_, ?_⟩
        · rw [applyPass, houtcome]
          show (applyPass aether.loader select rest ui).bind _ = _
          rw [hlater]
          rfl
        · rw [Bool.or_false, List.append_cons]
          exact hdone
        · intro hprogress
          obtain ⟨hsame, hui, hnone⟩ := hstill hprogress
          refine ⟨by rw [hsame, Bool.or_false], hui, ?_⟩
          intro other hother hselect hnew
          rcases List.mem_cons.mp hother with rfl | hrest
          · by_contra hthere
            exact hready ⟨hselect, hnew, Option.isSome_iff_ne_none.mpr hthere⟩
          · exact hnone other hrest hselect hnew

/-- The loop ends where no record that is left has its object there. -/
theorem progressLoop_progressed (root : ObjId)
    (hpublication : LoadsPublication aether classOf written)
    (hrecords : ∀ record ∈ written, NodeRecord classOf record) {present : ObjId → Prop}
    (fuel : Nat) {records : List PublishedRecord} (ui : UiState ε)
    (hfuel : unapplied records < fuel)
    (h : Progressed classOf present written records ui.domain) :
    ∃ pass, progressLoop aether.loader root fuel records ui = .ok pass ∧
      Progressed classOf present written pass.records pass.ui.domain ∧
      ∀ record ∈ pass.records, record.applied = false →
        classAt pass.ui.domain record.objId = none := by
  induction fuel generalizing records ui with
  | zero => omega
  | succ fuel ih =>
      obtain ⟨first, hfirst, hprogressed, -⟩ :=
        applyPass_progressed hpublication hrecords (fun record => decide (record.objId = root))
          [] records h
      obtain ⟨second, hsecond, hprogressed', hstill⟩ :=
        applyPass_progressed hpublication hrecords (fun _ => true) [] first.records hprogressed
      rw [List.nil_append] at hprogressed'
      have hrun : progressLoop aether.loader root (fuel + 1) records ui =
          if first.progress || second.progress then
            progressLoop aether.loader root fuel second.records second.ui
          else .ok second := by
        rw [progressLoop, hfirst]
        show (applyPass aether.loader _ first.records first.ui).bind _ = _
        rw [hsecond]
        rfl
      obtain ⟨hle, hlt⟩ := unapplied_of_applyPass hfirst
      obtain ⟨hle', hlt'⟩ := unapplied_of_applyPass hsecond
      by_cases hprogress : (first.progress || second.progress) = true
      · rw [hrun, if_pos hprogress]
        apply ih second.ui _ hprogressed'
        rcases Bool.or_eq_true_iff.mp hprogress with hone | htwo
        · have := hlt hone
          omega
        · have := hlt' htwo
          omega
      · rw [hrun, if_neg hprogress]
        refine ⟨second, rfl, hprogressed', ?_⟩
        simp only [Bool.or_eq_true, not_or, Bool.not_eq_true] at hprogress
        obtain ⟨hsame, hui, hnone⟩ := hstill hprogress.2
        intro record hrecord hnew
        rw [hui]
        rw [hsame] at hrecord
        exact hnone record hrecord rfl hnew

/-- After the loop, exactly the objects are there that the records bring. -/
theorem isSome_iff_mirrored {present : ObjId → Prop} {records : List PublishedRecord}
    {domain : ShellDomain ε} (h : Progressed classOf present written records domain)
    (hdone : ∀ record ∈ records, record.applied = false →
      classAt domain record.objId = none) (id : ObjId) :
    (classAt domain id).isSome ↔ Mirrored present written id := by
  constructor
  · exact h.reached id
  · intro hid
    induction hid with
    | present hpresent => exact h.kept _ hpresent
    | stored hrecord _ hstored ih =>
        rw [← h.same] at hrecord
        obtain ⟨record, hmem, rfl⟩ := List.mem_map.mp hrecord
        cases happlied : record.applied with
        | true => exact h.brought record hmem happlied _ hstored
        | false =>
            rw [hdone record hmem happlied] at ih
            cases ih

/-- What holds in the last loop: `present` says which objects are there. -/
structure Shelling (classOf : ObjId → ClassId) (present : ObjId → Prop)
    (written rest : List PublishedRecord) (domain : ShellDomain ε) : Prop where
  right : ∀ record ∈ written, RightFor classOf record domain
  there : ∀ id, (classAt domain id).isSome ↔ present id
  brought : ∀ record ∈ rest, record.applied = true → ∀ id, StoresObject record id → present id
  same : ∀ record ∈ rest, { record with applied := false } ∈ written

/-- A shell that is created is of the class that is inferred. -/
theorem createUiShell_missing {domain : ShellDomain ε} {id : ObjId} {classId : ClassId}
    (hmissing : classAt domain id = none) :
    createUiShell aether domain id classId =
      if classId = 0 then none
      else (aether.create classId).map fun object =>
        Function.update domain id (some object) := by
  rw [createUiShell, if_neg]
  rw [← isSome_classAt, hmissing]
  exact Bool.false_ne_true

theorem classAt_update (domain : ShellDomain ε) (id : ObjId) {classId : ClassId}
    {object : UiObject ε ClassId} (h : aether.create classId = some object) (other : ObjId) :
    classAt (Function.update domain id (some object)) other =
      if other = id then some classId else classAt domain other := by
  rw [classAt]
  by_cases hother : other = id
  · rw [if_pos hother, hother, Function.update_self, Option.map_some,
      aether.create_fields classId object h]
  · rw [if_neg hother, Function.update_of_ne hother]
    rfl

/-- The class of a shell is inferred right or it is another class. -/
theorem preferred_iff_right {record : PublishedRecord} (hrecord : NodeRecord classOf record)
    (hnonzero : classOf record.objId ≠ 0)
    (hfactory : (aether.create (classOf record.objId)).isSome) :
    preferredClass nodeClassId (classesOf (recordLayers record) record.objId) =
        classOf record.objId ↔
      ShellIsRight aether nodeClassId classOf record := by
  rw [preferredClass_eq_iff hrecord.ordered hrecord.ownLayer hnonzero]
  constructor
  · intro hgreatest
    refine ⟨hnonzero, hfactory, fun layer hlayer hid hother => ?_⟩
    exact hgreatest _ (mem_classesOf.mpr ⟨layer, hlayer, hid, rfl⟩) hother
  · intro hright classId hclass hother
    obtain ⟨layer, hlayer, hid, rfl⟩ := mem_classesOf.mp hclass
    exact hright.greatest layer hlayer hid hother

/-- A record whose object is there, or whose shell is right, is applied, and the loop goes
on. -/
theorem createShells_head (hpublication : LoadsPublication aether classOf written)
    {record : PublishedRecord} (hwritten : record ∈ written)
    (hrecord : NodeRecord classOf record) (hnew : record.applied = false)
    {rest : List PublishedRecord} {ui : UiState ε} (hright : RightFor classOf record ui.domain)
    (hready : (classAt ui.domain record.objId).isSome ∨
      ShellIsRight aether nodeClassId classOf record) :
    ∃ next, createShells aether nodeClassId (record :: rest) ui =
        createShells aether nodeClassId rest next ∧
      ∀ id, (StoresObject record id → classAt next.domain id = some (classOf id)) ∧
        (¬StoresObject record id → classAt next.domain id = classAt ui.domain id) := by
  obtain ⟨left, generations, hlayers, -⟩ := hrecord.wellFormed
  have hpreferred := preferredClassIdFor_eq nodeClassId record.objId hlayers
  -- The object that the record is applied to.
  obtain ⟨domain, hshell, hthere, hshellRight, hothers⟩ : ∃ domain,
      createUiShell aether ui.domain record.objId
          (preferredClass nodeClassId (classesOf (recordLayers record) record.objId)) =
        some domain ∧ (classAt domain record.objId).isSome ∧
        RightFor classOf record domain ∧
        ∀ id, id ≠ record.objId → classAt domain id = classAt ui.domain id := by
    by_cases hlive : (classAt ui.domain record.objId).isSome
    · refine ⟨ui.domain, ?_, hlive, hright, fun _ _ => rfl⟩
      rw [createUiShell, if_pos (by rw [← isSome_classAt]; exact hlive)]
    · have hshell := hready.resolve_left hlive
      obtain ⟨object, hobject⟩ := Option.isSome_iff_exists.mp hshell.factory
      have hclass := (preferred_iff_right hrecord hshell.nonzero hshell.factory).mpr hshell
      have hmissing := Option.not_isSome_iff_eq_none.mp hlive
      have hclasses := classAt_update ui.domain record.objId hobject
      refine ⟨Function.update ui.domain record.objId (some object), ?_, ?_, ?_, ?_⟩
      · rw [hclass, createUiShell_missing hmissing, if_neg hshell.nonzero, hobject]
        rfl
      · rw [hclasses, if_pos rfl]
        rfl
      · intro id hid classId hat
        rw [hclasses] at hat
        split at hat
        case isTrue hown =>
          rw [hown]
          exact (Option.some.inj hat).symm
        case isFalse => exact hright id hid classId hat
      · intro id hid
        rw [hclasses, if_neg hid]
  obtain ⟨next, hnext, hclasses⟩ := applyExisting_right (hpublication.loads record hwritten)
    hrecord.wellFormed hnew ({ ui with domain := domain } : UiState ε) hshellRight hthere
  refine ⟨next, ?_, fun id => ⟨(hclasses id).1, fun hid => ?_⟩⟩
  · simp only [createShells, hnew, Bool.false_eq_true, if_false, hpreferred, bind, Except.bind,
      hshell, hnext]
  · have hne : id ≠ record.objId := by
      rintro rfl
      exact hid hrecord.storesOwn
    rw [(hclasses id).2 hid]
    exact hothers id hne

/-- A shell that is not right stays of another class. -/
theorem wrongShell (hpublication : LoadsPublication aether classOf written)
    {record : PublishedRecord} (hrecord : NodeRecord classOf record)
    (hnew : record.applied = false) {rest : List PublishedRecord} {ui final : UiState ε}
    (hmissing : classAt ui.domain record.objId = none)
    (hwrong : ¬ShellIsRight aether nodeClassId classOf record)
    (h : createShells aether nodeClassId (record :: rest) ui = .ok final) :
    classAt final.domain record.objId ≠ some (classOf record.objId) := by
  obtain ⟨classId, domain, next, hclass, hshell, hnext, hrest⟩ := createShells_cons hnew h
  obtain ⟨left, generations, hlayers, -⟩ := hrecord.wellFormed
  rw [preferredClassIdFor_eq nodeClassId record.objId hlayers] at hclass
  obtain rfl := Except.ok.inj hclass
  rw [createUiShell_missing hmissing] at hshell
  split at hshell
  case isTrue => cases hshell
  case isFalse hnonzero =>
    obtain ⟨object, hobject, rfl⟩ := Option.map_eq_some_iff.mp hshell
    have hcreated : classAt (Function.update ui.domain record.objId (some object))
        record.objId = some (preferredClass nodeClassId
          (classesOf (recordLayers record) record.objId)) := by
      rw [classAt_update ui.domain record.objId hobject, if_pos rfl]
    have hkept := createShells_keeps hpublication.keeps hrest
      (applyExisting_keeps hpublication.keeps hnext hcreated)
    intro hfinal
    rw [hkept] at hfinal
    have hreal := Option.some.inj hfinal
    rw [hreal] at hnonzero hobject
    exact hwrong ((preferred_iff_right hrecord hnonzero (by rw [hobject]; rfl)).mp hreal)

theorem Shelling.step {present : ObjId → Prop} {record : PublishedRecord}
    {rest : List PublishedRecord} {domain next : ShellDomain ε}
    (h : Shelling classOf present written (record :: rest) domain)
    (hclasses : ∀ id, (StoresObject record id → classAt next id = some (classOf id)) ∧
      (¬StoresObject record id → classAt next id = classAt domain id)) :
    Shelling classOf (fun id => present id ∨ StoresObject record id) written rest next where
  right other hother := rightFor_of_right hclasses (h.right other hother)
  there id := by rw [isSome_of_right hclasses, h.there id]
  brought other hother happlied id hid :=
    Or.inl (h.brought other (List.mem_cons_of_mem _ hother) happlied id hid)
  same other hother := h.same other (List.mem_cons_of_mem _ hother)

/-- The last loop ends with the objects of the model exactly if the shells are right. -/
theorem createShells_iff (nodeClassId : ClassId)
    (hpublication : LoadsPublication aether classOf written)
    (hrecords : ∀ record ∈ written, NodeRecord classOf record) (rest : List PublishedRecord)
    {present : ObjId → Prop} {ui : UiState ε}
    (h : Shelling classOf present written rest ui.domain) :
    (∃ final, createShells aether nodeClassId rest ui = .ok final ∧
        ∀ record ∈ rest, ∀ id, StoresObject record id →
          classAt final.domain id = some (classOf id)) ↔
      ShellsRight aether nodeClassId classOf present rest := by
  induction rest generalizing present ui with
  | nil => exact ⟨fun _ => trivial, fun _ => ⟨ui, rfl, by simp⟩⟩
  | cons record rest ih =>
      have hmem := h.same record (List.mem_cons_self ..)
      have hown : StoresObject record record.objId := (hrecords _ hmem).storesOwn
      rw [ShellsRight]
      by_cases hready : present record.objId ∨ ShellIsRight aether nodeClassId classOf record
      · -- The record is applied, now or before, and the loop goes on.
        obtain ⟨next, hnext, hclasses⟩ : ∃ next,
            createShells aether nodeClassId (record :: rest) ui =
              createShells aether nodeClassId rest next ∧
            ∀ id, (StoresObject record id → classAt next.domain id = some (classOf id)) ∧
              (¬StoresObject record id → classAt next.domain id = classAt ui.domain id) := by
          cases happlied : record.applied with
          | true =>
              refine ⟨ui, by rw [createShells, happlied, if_pos rfl], fun id =>
                ⟨fun hid => ?_, fun _ => rfl⟩⟩
              have hthere := (h.there id).mpr
                (h.brought record (List.mem_cons_self ..) happlied id hid)
              obtain ⟨classId, hclass⟩ := Option.isSome_iff_exists.mp hthere
              rw [hclass, h.right _ hmem id hid classId hclass]
          | false =>
              have hunmarked : { record with applied := false } = record := by rw [← happlied]
              rw [hunmarked] at hmem
              apply createShells_head hpublication hmem (hrecords record hmem) happlied
                (h.right record hmem)
              rw [h.there]
              exact hready
        rw [hnext, ← ih (h.step hclasses)]
        constructor
        · rintro ⟨final, hfinal, hall⟩
          refine ⟨fun hmissing => hready.resolve_left hmissing, final, hfinal, ?_⟩
          exact fun other hother => hall other (List.mem_cons_of_mem _ hother)
        · rintro ⟨-, final, hfinal, hall⟩
          refine ⟨final, hfinal, fun other hother id hid => ?_⟩
          rcases List.mem_cons.mp hother with rfl | hrest
          · exact createShells_keeps hpublication.keeps hfinal ((hclasses id).1 hid)
          · exact hall other hrest id hid
      · rw [not_or] at hready
        constructor
        · rintro ⟨final, hfinal, hall⟩
          have hnew : record.applied = false := by
            cases happlied : record.applied with
            | false => rfl
            | true =>
                have hpresent := h.brought record (List.mem_cons_self ..) happlied _ hown
                exact absurd hpresent hready.1
          have hunmarked : { record with applied := false } = record := by rw [← hnew]
          rw [hunmarked] at hmem
          have hmissing : classAt ui.domain record.objId = none := by
            rw [← Option.not_isSome_iff_eq_none, h.there]
            exact hready.1
          exact absurd (hall record (List.mem_cons_self ..) _ hown)
            (wrongShell hpublication (hrecords record hmem) hnew hmissing hready.2 hfinal)
        · exact fun hshells => absurd (hshells.1 hready.1) hready.2

end AppTraverse
