import AppTraverse.Presentation.InitialMirror
import AppTraverse.Presentation.ShellClasses

/-!
# Shells are of the class that is numerically last

`ApplyPublished` applies every record of a publication once, and its loop ends.  Whether the
GUI then has the objects of the model depends on the shells: the objects that were there,
and those that Aether constructs while it loads a graph, have their classes, and a shell
has the class that `PreferredClassIdFor` infers.
-/

namespace AppTraverse

open Foundations

section Termination

variable {ε : Type}

/-- The records that are not applied yet. -/
def unapplied (records : List PublishedRecord) : Nat :=
  records.countP fun record => !record.applied

theorem avoids_asserting {ρ : Type} (result : Except LoadFailure ρ) :
    Avoids .stillRunning (asserting result) := by
  intro hbad
  cases result with
  | ok value => cases hbad
  | error failure => cases failure <;> cases hbad

theorem avoids_applyExisting (loader : UiLoader ε ClassId) (record : PublishedRecord)
    (ui : UiState ε) : Avoids .stillRunning (applyExisting loader record ui) := by
  rw [applyExisting]
  split
  case isTrue =>
    intro hbad
    cases hbad
  case isFalse =>
    apply Avoids.bind
    · rw [deserializeObjectGraphFromBuffer]
      apply (avoids_asserting _).bind
      intro injected
      apply (avoids_asserting _).bind
      intro adopted hbad
      cases hbad
    · intro read hbad
      cases hbad

theorem avoids_applyPass (loader : UiLoader ε ClassId) (select : PublishedRecord → Bool)
    (records : List PublishedRecord) (ui : UiState ε) :
    Avoids .stillRunning (applyPass loader select records ui) := by
  induction records generalizing ui with
  | nil =>
      intro hbad
      cases hbad
  | cons record rest ih =>
      rw [applyPass]
      apply Avoids.bind
      · rw [applySelected]
        split
        case isTrue => exact avoids_applyExisting loader record ui
        case isFalse =>
          intro hbad
          cases hbad
      · intro outcome
        apply (ih _).bind
        intro later hbad
        cases hbad

/-- A record that is applied was not applied before. -/
theorem applied_of_applyExisting {loader : UiLoader ε ClassId} {record : PublishedRecord}
    {ui next : UiState ε} (h : applyExisting loader record ui = .ok (some next)) :
    record.applied = false ∧ (ui.domain record.objId).isSome ∧
      next.changedObjIds = ui.changedObjIds ++ [record.objId] := by
  rw [applyExisting] at h
  split at h
  case isTrue => cases h
  case isFalse hready =>
    obtain ⟨read, -, h⟩ := except_bind_eq_ok_iff.mp h
    obtain rfl := Option.some.inj (Except.ok.inj h)
    simp only [Bool.or_eq_true, not_or, Bool.not_eq_true, Option.isNone_eq_false_iff] at hready
    exact ⟨hready.1, hready.2, rfl⟩

/-- What a loop over the records does to the first one. -/
theorem applyPass_cons {loader : UiLoader ε ClassId} {select : PublishedRecord → Bool}
    {record : PublishedRecord} {rest : List PublishedRecord} {ui : UiState ε} {pass : Pass ε}
    (h : applyPass loader select (record :: rest) ui = .ok pass) :
    ∃ outcome later, applySelected loader select record ui = .ok outcome ∧
      applyPass loader select rest (outcome.getD ui) = .ok later ∧
      pass = ⟨{ record with applied := record.applied || outcome.isSome } :: later.records,
        later.ui, outcome.isSome || later.progress⟩ := by
  obtain ⟨outcome, houtcome, h⟩ := except_bind_eq_ok_iff.mp h
  obtain ⟨later, hlater, h⟩ := except_bind_eq_ok_iff.mp h
  exact ⟨outcome, later, houtcome, hlater, (Except.ok.inj h).symm⟩

theorem outcome_of_selected {loader : UiLoader ε ClassId} {select : PublishedRecord → Bool}
    {record : PublishedRecord} {ui next : UiState ε}
    (h : applySelected loader select record ui = .ok (some next)) :
    applyExisting loader record ui = .ok (some next) := by
  rw [applySelected] at h
  split at h
  case isTrue => exact h
  case isFalse => cases h

/-- A loop over the records applies some of them, and makes progress if it does. -/
theorem unapplied_of_applyPass {loader : UiLoader ε ClassId}
    {select : PublishedRecord → Bool} {records : List PublishedRecord} {ui : UiState ε}
    {pass : Pass ε} (h : applyPass loader select records ui = .ok pass) :
    unapplied pass.records ≤ unapplied records ∧
      (pass.progress = true → unapplied pass.records < unapplied records) := by
  induction records generalizing ui pass with
  | nil =>
      obtain rfl := Except.ok.inj h
      exact ⟨Nat.le_refl _, by simp⟩
  | cons record rest ih =>
      obtain ⟨outcome, later, houtcome, hlater, rfl⟩ := applyPass_cons h
      obtain ⟨hle, hlt⟩ := ih hlater
      simp only [unapplied, List.countP_cons] at hle hlt ⊢
      cases outcome with
      | none => simpa using ⟨hle, hlt⟩
      | some next =>
          have hnew := (applied_of_applyExisting (outcome_of_selected houtcome)).1
          simp only [hnew, Option.isSome_some, Bool.or_true, Bool.not_true,
            Bool.false_eq_true, if_false, Bool.not_false, if_true]
          omega

/-- The loop ends within as many rounds as there are records, and one more. -/
theorem avoids_progressLoop (loader : UiLoader ε ClassId) (root : ObjId) (fuel : Nat)
    (records : List PublishedRecord) (ui : UiState ε) (hfuel : unapplied records < fuel) :
    Avoids .stillRunning (progressLoop loader root fuel records ui) := by
  induction fuel generalizing records ui with
  | zero => omega
  | succ fuel ih =>
      rw [progressLoop]
      intro hbad
      cases hfirst : applyPass loader (fun record => decide (record.objId = root)) records ui with
      | error failure =>
          rw [hfirst] at hbad
          obtain rfl := Except.error.inj hbad
          exact avoids_applyPass _ _ _ _ hfirst
      | ok first =>
          rw [hfirst] at hbad
          cases hsecond : applyPass loader (fun _ => true) first.records first.ui with
          | error failure =>
              change Except.bind (applyPass loader _ first.records first.ui) _ = _ at hbad
              rw [hsecond] at hbad
              obtain rfl := Except.error.inj hbad
              exact avoids_applyPass _ _ _ _ hsecond
          | ok second =>
              change Except.bind (applyPass loader _ first.records first.ui) _ = _ at hbad
              rw [hsecond] at hbad
              obtain ⟨hle, hlt⟩ := unapplied_of_applyPass hfirst
              obtain ⟨hle', hlt'⟩ := unapplied_of_applyPass hsecond
              simp only [Except.bind] at hbad
              split at hbad
              case isFalse => cases hbad
              case isTrue hprogress =>
                apply ih second.records second.ui _ hbad
                rcases Bool.or_eq_true_iff.mp hprogress with hprogress | hprogress
                · have := hlt hprogress
                  omega
                · have := hlt' hprogress
                  omega

end Termination

section Once

variable {ε : Type} {loader : UiLoader ε ClassId} {root : ObjId}

/-- The ids of the records that are applied. -/
def appliedIds (records : List PublishedRecord) : List ObjId :=
  (records.filter fun record => record.applied).map PublishedRecord.objId

/-- The records as they were read. -/
def unmarked (records : List PublishedRecord) : List PublishedRecord :=
  records.map fun record => { record with applied := false }

/-- A loop over the records reports the ids of those that it applies. -/
theorem changed_of_applyPass {select : PublishedRecord → Bool} {records : List PublishedRecord}
    {ui : UiState ε} {pass : Pass ε} (h : applyPass loader select records ui = .ok pass) :
    unmarked pass.records = unmarked records ∧
      ∃ new, pass.ui.changedObjIds = ui.changedObjIds ++ new ∧
        (appliedIds pass.records).Perm (appliedIds records ++ new) := by
  induction records generalizing ui pass with
  | nil =>
      obtain rfl := Except.ok.inj h
      exact ⟨rfl, [], by simp, by simp [appliedIds]⟩
  | cons record rest ih =>
      obtain ⟨outcome, later, houtcome, hlater, rfl⟩ := applyPass_cons h
      obtain ⟨hsame, new, hchanged, hperm⟩ := ih hlater
      refine ⟨?_, ?_⟩
      · show _ :: unmarked later.records = _ :: unmarked rest
        rw [hsame]
      cases outcome with
      | none =>
          refine ⟨new, hchanged, ?_⟩
          simp only [appliedIds, List.filter_cons, Option.isSome_none, Bool.or_false] at hperm ⊢
          split
          case isTrue => exact hperm.cons _
          case isFalse => exact hperm
      | some next =>
          obtain ⟨hnew, -, hnext⟩ := applied_of_applyExisting (outcome_of_selected houtcome)
          refine ⟨record.objId :: new, ?_, ?_⟩
          · rw [hchanged]
            show next.changedObjIds ++ new = _
            rw [hnext, List.append_assoc]
            rfl
          · simp only [appliedIds, List.filter_cons, Option.isSome_some, Bool.or_true, if_true,
              hnew, Bool.false_eq_true, if_false, List.map_cons] at hperm ⊢
            exact (hperm.cons _).trans List.perm_middle.symm

theorem changed_of_progressLoop {fuel : Nat} {records : List PublishedRecord} {ui : UiState ε}
    {pass : Pass ε} (h : progressLoop loader root fuel records ui = .ok pass) :
    unmarked pass.records = unmarked records ∧
      ∃ new, pass.ui.changedObjIds = ui.changedObjIds ++ new ∧
        (appliedIds pass.records).Perm (appliedIds records ++ new) := by
  induction fuel generalizing records ui with
  | zero => cases h
  | succ fuel ih =>
      obtain ⟨first, hfirst, h⟩ := except_bind_eq_ok_iff.mp h
      obtain ⟨second, hsecond, h⟩ := except_bind_eq_ok_iff.mp h
      obtain ⟨hsame, new, hchanged, hperm⟩ := changed_of_applyPass hfirst
      obtain ⟨hsame', new', hchanged', hperm'⟩ := changed_of_applyPass hsecond
      have hboth : (appliedIds second.records).Perm (appliedIds records ++ (new ++ new')) := by
        rw [← List.append_assoc]
        exact hperm'.trans (hperm.append_right new')
      split at h
      case isTrue =>
        obtain ⟨hsame'', new'', hchanged'', hperm''⟩ := ih h
        refine ⟨by rw [hsame'', hsame', hsame], new ++ new' ++ new'', ?_, ?_⟩
        · rw [hchanged'', hchanged', hchanged]
          simp only [List.append_assoc]
        · rw [← List.append_assoc (appliedIds records)]
          exact hperm''.trans (hboth.append_right new'')
      case isFalse =>
        obtain rfl := Except.ok.inj h
        refine ⟨by rw [hsame', hsame], new ++ new', ?_, hboth⟩
        rw [hchanged', hchanged, List.append_assoc]

/-- What the last loop does to the first record. -/
theorem createShells_cons {aether : ShellAether ε} {nodeClassId : ClassId}
    {record : PublishedRecord} {rest : List PublishedRecord} {ui final : UiState ε}
    (hnew : record.applied = false)
    (h : createShells aether nodeClassId (record :: rest) ui = .ok final) :
    ∃ classId domain next,
      preferredClassIdFor nodeClassId record.payload record.objId = .ok classId ∧
      createUiShell aether ui.domain record.objId classId = some domain ∧
      applyExisting aether.loader record { ui with domain := domain } = .ok (some next) ∧
      createShells aether nodeClassId rest next = .ok final := by
  rw [createShells, hnew] at h
  obtain ⟨classId, hclass, h⟩ := except_bind_eq_ok_iff.mp h
  cases hshell : createUiShell aether ui.domain record.objId classId with
  | none =>
      rw [hshell] at h
      cases h
  | some domain =>
      rw [hshell] at h
      obtain ⟨outcome, houtcome, h⟩ := except_bind_eq_ok_iff.mp h
      cases outcome with
      | none => cases h
      | some next => exact ⟨classId, domain, next, hclass, hshell, houtcome, h⟩

theorem changed_of_createShells {aether : ShellAether ε} {nodeClassId : ClassId}
    {records : List PublishedRecord} {ui final : UiState ε}
    (h : createShells aether nodeClassId records ui = .ok final) :
    (appliedIds records ++ final.changedObjIds).Perm
      (records.map PublishedRecord.objId ++ ui.changedObjIds) := by
  induction records generalizing ui with
  | nil =>
      obtain rfl := Except.ok.inj h
      exact List.Perm.refl _
  | cons record rest ih =>
      cases happlied : record.applied with
      | true =>
          rw [createShells, happlied, if_pos rfl] at h
          simp only [appliedIds, List.filter_cons, happlied, if_true, List.map_cons,
            List.cons_append]
          exact (ih h).cons _
      | false =>
          obtain ⟨classId, domain, next, -, -, hnext, hrest⟩ := createShells_cons happlied h
          obtain ⟨-, -, hchanged⟩ := applied_of_applyExisting hnext
          have hperm := ih hrest
          rw [hchanged] at hperm
          simp only [appliedIds, List.filter_cons, happlied, Bool.false_eq_true, if_false,
            List.map_cons, List.cons_append]
          refine hperm.trans ?_
          rw [← List.append_assoc]
          exact List.perm_append_singleton _ _

/-- A publication that is applied is applied record by record, each once. -/
theorem changed_of_applyPublished {aether : ShellAether ε} {nodeClassId : ClassId}
    {bytes : Bytes} {storage : UiStorage} {domain : ShellDomain ε}
    {applied : AppliedPublication ε} (hnew : ∀ record ∈ applied.records, record.applied = false)
    (h : applyPublished aether nodeClassId root bytes storage domain = .ok applied) :
    applied.ui.changedObjIds.Perm (applied.records.map PublishedRecord.objId) := by
  obtain ⟨count, -, h⟩ := except_bind_eq_ok_iff.mp h
  obtain ⟨records, -, h⟩ := except_bind_eq_ok_iff.mp h
  obtain ⟨existing, hexisting, h⟩ := except_bind_eq_ok_iff.mp h
  obtain ⟨ui, hui, h⟩ := except_bind_eq_ok_iff.mp h
  obtain rfl := Except.ok.inj h
  obtain ⟨hsame, new, hchanged, hperm⟩ := changed_of_progressLoop hexisting
  have hnone : appliedIds records = [] := by
    rw [appliedIds, List.map_eq_nil_iff, List.filter_eq_nil_iff]
    intro record hrecord
    simp [hnew record hrecord]
  have hids : existing.records.map PublishedRecord.objId =
      records.map PublishedRecord.objId := by
    have hmap := congrArg (List.map PublishedRecord.objId) hsame
    simp only [unmarked, List.map_map] at hmap
    exact hmap
  rw [hnone, List.nil_append] at hperm
  have hshells := changed_of_createShells hui
  rw [hchanged, List.nil_append, hids] at hshells
  have hcancel : (new ++ ui.changedObjIds).Perm
      (new ++ records.map PublishedRecord.objId) :=
    (hperm.append_right _).symm.trans (hshells.trans List.perm_append_comm)
  exact (List.perm_append_left_iff new).mp hcancel

end Once

end AppTraverse
