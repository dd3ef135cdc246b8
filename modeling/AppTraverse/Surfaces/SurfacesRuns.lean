import AppTraverse.Surfaces.SurfacesModel
import Mathlib.Data.List.Nodup

/-!
# The three lists of `Surfaces` stay consistent

Every Event moves a reference in all the lists that hold it, and the two loops of
`SetDesktopZOrderFromObjIds` arrive at a permutation of the live Surfaces, whatever ids they are
given.  A replay applies the Events that were applied, so that it ends where they ended.
-/

namespace AppTraverse

open Foundations

section Order

variable {fields : SurfacesFields}

/-- The Surfaces that a list of ids names, each where it is named first. -/
def listedLive (fields : SurfacesFields) (orderedObjIds : List UInt32) : List ObjId :=
  (orderedObjIds.eraseDups.map ObjId.mk).filter fun surface =>
    decide (surface ∈ fields.surfaces)

theorem findLiveSurfaceByObjId_eq (id : ObjId) :
    findLiveSurfaceByObjId fields id = if id ∈ fields.surfaces then some id else none := by
  unfold findLiveSurfaceByObjId
  split
  case isTrue hlive =>
    cases hfound : fields.surfaces.find? fun entry => decide (entry = id) with
    | none => exact absurd (List.find?_eq_none.mp hfound id hlive) (by simp)
    | some entry =>
        have hentry := List.find?_some hfound
        rw [of_decide_eq_true hentry]
  case isFalse hstale =>
    rw [List.find?_eq_none]
    intro entry hentry hsame
    rw [of_decide_eq_true hsame] at hentry
    exact hstale hentry

/-- The first loop skips what it has seen. -/
theorem resolveListed_eq (seen orderedObjIds : List UInt32) :
    resolveListed fields seen orderedObjIds =
      listedLive fields (orderedObjIds.filter fun rawId => decide (rawId ∉ seen)) := by
  induction orderedObjIds generalizing seen with
  | nil => rfl
  | cons rawId rest ih =>
      rw [resolveListed]
      split
      case isTrue hseen =>
        rw [ih, List.filter_cons_of_neg (by simpa using hseen)]
      case isFalse hunseen =>
        have hrest : (rest.filter fun other => decide (other ∉ seen)).filter
            (fun other => !other == rawId) =
              rest.filter fun other => decide (other ∉ rawId :: seen) := by
          rw [List.filter_filter]
          congr 1
          ext other
          by_cases hsame : other = rawId <;> simp [hsame]
        rw [findLiveSurfaceByObjId_eq, List.filter_cons_of_pos (by simpa using hunseen),
          listedLive, List.eraseDups_cons, hrest, List.map_cons]
        split
        case h_1 hnone =>
          have hstale : ObjId.mk rawId ∉ fields.surfaces := by
            intro hlive
            rw [if_pos hlive] at hnone
            cases hnone
          rw [List.filter_cons_of_neg (by simpa using hstale)]
          exact ih (rawId :: seen)
        case h_2 surface hsome =>
          have hlive : ObjId.mk rawId ∈ fields.surfaces := by
            by_contra hstale
            rw [if_neg hstale] at hsome
            cases hsome
          rw [if_pos hlive] at hsome
          cases hsome
          rw [List.filter_cons_of_pos (by simpa using hlive)]
          exact congrArg _ (ih (rawId :: seen))

/-- The second loop appends the Surfaces that are not there, in the order of the list. -/
theorem appendRemaining_eq {surfaces : List ObjId} (hnodup : surfaces.Nodup)
    (resolved : List ObjId) :
    appendRemaining surfaces resolved =
      resolved ++ surfaces.filter fun live => decide (live ∉ resolved) := by
  induction surfaces generalizing resolved with
  | nil => exact (List.append_nil resolved).symm
  | cons live rest ih =>
      obtain ⟨hlive, hrest⟩ := List.nodup_cons.mp hnodup
      unfold appendRemaining at ih ⊢
      rw [List.foldl_cons]
      split
      case isTrue hthere =>
        rw [ih hrest, List.filter_cons_of_neg (by simpa using hthere)]
      case isFalse habsent =>
        have hsame : (rest.filter fun other => decide (other ∉ resolved ++ [live])) =
            rest.filter fun other => decide (other ∉ resolved) := by
          apply List.filter_congr
          intro other hother
          have hne : other ≠ live := fun heq => hlive (heq ▸ hother)
          simp [hne]
        rw [ih hrest, hsame, List.filter_cons_of_pos (by simpa using habsent),
          List.append_assoc, List.singleton_append]

theorem mem_listedLive {orderedObjIds : List UInt32} {surface : ObjId} :
    surface ∈ listedLive fields orderedObjIds ↔
      surface.id ∈ orderedObjIds ∧ surface ∈ fields.surfaces := by
  unfold listedLive
  rw [List.mem_filter, decide_eq_true_eq, List.mem_map]
  constructor
  · rintro ⟨⟨rawId, hmem, rfl⟩, hlive⟩
    exact ⟨List.mem_eraseDups.mp hmem, hlive⟩
  · rintro ⟨hmem, hlive⟩
    exact ⟨⟨surface.id, List.mem_eraseDups.mpr hmem, rfl⟩, hlive⟩

/-- What `SetDesktopZOrderFromObjIds` arrives at: the listed Surfaces where they are named
first, and then the others in the order of the list. -/
theorem resolveDesktopZOrder_eq (hnodup : fields.surfaces.Nodup)
    (orderedObjIds : List UInt32) :
    resolveDesktopZOrder fields orderedObjIds =
      listedLive fields orderedObjIds ++
        fields.surfaces.filter fun live => decide (live.id ∉ orderedObjIds) := by
  have hall : orderedObjIds.filter (fun rawId => decide (rawId ∉ ([] : List UInt32))) =
      orderedObjIds := by simp
  rw [resolveDesktopZOrder, resolveListed_eq, hall, appendRemaining_eq hnodup]
  congr 1
  apply List.filter_congr
  intro live hlive
  have hlisted : live ∈ listedLive fields orderedObjIds ↔ live.id ∈ orderedObjIds := by
    rw [mem_listedLive]
    exact and_iff_left hlive
  simp [hlisted]

theorem nodup_eraseDups {α : Type} [BEq α] [LawfulBEq α] :
    ∀ values : List α, values.eraseDups.Nodup
  | [] => List.nodup_nil
  | value :: rest => by
      rw [List.eraseDups_cons, List.nodup_cons]
      refine ⟨?_, nodup_eraseDups _⟩
      rw [List.mem_eraseDups, List.mem_filter]
      rintro ⟨-, hne⟩
      simp at hne
  termination_by values => values.length
  decreasing_by exact Nat.lt_succ_of_le (List.length_filter_le _ _)

theorem resolveDesktopZOrder_perm (hnodup : fields.surfaces.Nodup)
    (orderedObjIds : List UInt32) :
    (resolveDesktopZOrder fields orderedObjIds).Perm fields.surfaces := by
  have hlisted : (listedLive fields orderedObjIds).Nodup := by
    apply List.Nodup.filter
    apply (nodup_eraseDups orderedObjIds).map
    intro rawId other hsame
    exact ObjId.mk.inj hsame
  have hresolved : (resolveDesktopZOrder fields orderedObjIds).Nodup := by
    rw [resolveDesktopZOrder_eq hnodup, List.nodup_append]
    refine ⟨hlisted, hnodup.filter _, ?_⟩
    rintro surface hmem other hother rfl
    exact of_decide_eq_true (List.mem_filter.mp hother).2 (mem_listedLive.mp hmem).1
  apply (List.perm_ext_iff_of_nodup hresolved hnodup).mpr
  intro surface
  rw [resolveDesktopZOrder_eq hnodup, List.mem_append, mem_listedLive, List.mem_filter,
    decide_eq_true_eq]
  constructor
  · rintro (⟨-, hlive⟩ | ⟨hlive, -⟩) <;> exact hlive
  · intro hlive
    by_cases hmem : surface.id ∈ orderedObjIds
    · exact Or.inl ⟨hmem, hlive⟩
    · exact Or.inr ⟨hlive, hmem⟩

end Order

section Numbers

variable {number : ObjId → UInt32} {surfaces : List ObjId}

/-- No live number is the greatest there is. -/
def NumbersBelow (number : ObjId → UInt32) (surfaces : List ObjId) : Prop :=
  ∀ surface ∈ surfaces, number surface < 0xffffffff

/-- The loop over the numbers ends above where it began and above each of them. -/
theorem lt_nextSurfaceNumber_loop (hbelow : NumbersBelow number surfaces) (next : UInt32) :
    next ≤ surfaces.foldl (fun next existing => if number existing ≥ next then
        number existing + 1 else next) next ∧
      ∀ surface ∈ surfaces, number surface < surfaces.foldl (fun next existing =>
        if number existing ≥ next then number existing + 1 else next) next := by
  induction surfaces generalizing next with
  | nil => exact ⟨UInt32.le_refl _, fun _ hmem => absurd hmem List.not_mem_nil⟩
  | cons existing rest ih =>
      have hexisting := hbelow existing List.mem_cons_self
      obtain ⟨hle, hrest⟩ := ih (fun surface hmem => hbelow surface (List.mem_cons_of_mem _ hmem))
        (if number existing ≥ next then number existing + 1 else next)
      -- The sum does not wrap, since the number is not the greatest.
      have hstep : next ≤ (if number existing ≥ next then number existing + 1 else next) ∧
          number existing < (if number existing ≥ next then number existing + 1 else next) := by
        rw [UInt32.lt_iff_toNat_lt] at hexisting
        have hmax : (0xffffffff : UInt32).toNat = 4294967295 := rfl
        split
        case isTrue hge =>
          rw [ge_iff_le, UInt32.le_iff_toNat_le] at hge
          rw [UInt32.le_iff_toNat_le, UInt32.lt_iff_toNat_lt, UInt32.toNat_add]
          have hone : (1 : UInt32).toNat = 1 := rfl
          omega
        case isFalse hlt =>
          exact ⟨UInt32.le_refl _, UInt32.not_le.mp hlt⟩
      refine ⟨UInt32.le_trans hstep.1 hle, ?_⟩
      intro surface hmem
      rcases List.mem_cons.mp hmem with rfl | hmem
      · exact UInt32.lt_of_lt_of_le hstep.2 hle
      · exact hrest surface hmem

/-- The number of a new Surface is greater than those of the live ones. -/
theorem lt_nextSurfaceNumber (hbelow : NumbersBelow number surfaces) {surface : ObjId}
    (hmem : surface ∈ surfaces) : number surface < nextSurfaceNumber number surfaces :=
  (lt_nextSurfaceNumber_loop hbelow 1).2 surface hmem

end Numbers

section Consistency

variable {fields next : SurfacesFields} {number : ObjId → UInt32}

/-- The three lists tell the same of the live Surfaces. -/
structure SurfacesFields.IsConsistent (fields : SurfacesFields) (number : ObjId → UInt32) :
    Prop where
  order : fields.desktopZOrder.Perm fields.surfaces
  current : fields.mobileCurrent = ObjId.empty ∨ fields.mobileCurrent ∈ fields.surfaces
  numbers : (fields.surfaces.map number).Nodup

namespace SurfacesFields.IsConsistent

theorem nodup (h : fields.IsConsistent number) : fields.surfaces.Nodup :=
  h.numbers.of_map number

/-- A new Surface with the next number is added. -/
theorem addSurface (h : fields.IsConsistent number) {sibling : ObjId}
    (hbelow : NumbersBelow number fields.surfaces) (hfresh : sibling ∉ fields.surfaces)
    (happly : fields.apply (.addSurface sibling) = some next) :
    next.IsConsistent fun surface => if surface = sibling then
      nextSurfaceNumber number fields.surfaces else number surface := by
  cases happly
  have hkept : fields.surfaces.map (fun surface => if surface = sibling then
      nextSurfaceNumber number fields.surfaces else number surface) =
        fields.surfaces.map number := by
    apply List.map_congr_left
    intro surface hmem
    exact if_neg fun hsame : surface = sibling => hfresh (hsame ▸ hmem)
  refine ⟨h.order.append_right _, ?_, ?_⟩
  · rcases h.current with hempty | hlive
    · exact Or.inl hempty
    · exact Or.inr (List.mem_append_left _ hlive)
  · rw [List.map_append, hkept, List.map_singleton, if_pos rfl, List.nodup_append]
    refine ⟨h.numbers, List.nodup_singleton _, ?_⟩
    intro low hlow high hhigh hsame
    obtain ⟨surface, hmem, rfl⟩ := List.mem_map.mp hlow
    rw [List.mem_singleton.mp hhigh] at hsame
    exact UInt32.ne_of_lt (lt_nextSurfaceNumber hbelow hmem) hsame

/-- A live Surface is removed from all the lists. -/
theorem removeSurface (h : fields.IsConsistent number) {surface : ObjId}
    (happly : fields.apply (.removeSurface surface) = some next) :
    next.IsConsistent number := by
  change (if surface ∈ fields.surfaces then some (fields.remove surface) else none) =
    some next at happly
  split at happly
  case isFalse => cases happly
  case isTrue hlive =>
    cases happly
    have herase : fields.surfaces.erase surface =
        fields.surfaces.filter fun entry => !decide (entry = surface) := by
      rw [h.nodup.erase_eq_filter]
      apply List.filter_congr
      intro entry _
      by_cases hsame : entry = surface <;> simp [hsame]
    refine ⟨?_, ?_, h.numbers.sublist (List.erase_sublist.map number)⟩
    · show (fields.desktopZOrder.filter _).Perm (fields.surfaces.erase surface)
      rw [herase]
      exact h.order.filter _
    · show (if _ then _ else _) = _ ∨ (if _ then _ else _) ∈ fields.surfaces.erase surface
      split
      case isTrue => exact Or.inl rfl
      case isFalse hother =>
        rcases h.current with hempty | hcurrent
        · exact Or.inl hempty
        · by_cases hvalid : fields.mobileCurrent = ObjId.empty
          · exact Or.inl hvalid
          · rw [h.nodup.mem_erase_iff]
            refine Or.inr ⟨?_, hcurrent⟩
            intro hsame
            apply hother
            rw [ObjId.isValid_iff.mpr hvalid, decide_eq_true hsame]
            rfl

theorem setCurrentSurface (h : fields.IsConsistent number) {surface : ObjId}
    (hlive : surface ∈ fields.surfaces)
    (happly : fields.apply (.setCurrentSurface surface) = some next) :
    next.IsConsistent number := by
  cases happly
  exact ⟨h.order, Or.inr hlive, h.numbers⟩

theorem setDesktopZOrder (h : fields.IsConsistent number) {orderedObjIds : List UInt32}
    (happly : fields.apply (.setDesktopZOrder (resolveDesktopZOrder fields orderedObjIds)) =
      some next) :
    next.IsConsistent number := by
  cases happly
  exact ⟨resolveDesktopZOrder_perm h.nodup orderedObjIds, h.current, h.numbers⟩

end SurfacesFields.IsConsistent

end Consistency

section Serialized

theorem apply_of_surfacesClass (fields : SurfacesFields) (id : ObjId) (event : SurfacesEvent)
    (next : SurfacesFields) (_ : surfacesClass.canApplyTo fields event = true)
    (h : surfacesClass.applyTo fields id event = .ok next) : fields.apply event = some next := by
  unfold surfacesClass at h
  cases happly : fields.apply event with
  | none => simp [happly] at h
  | some applied => simpa [happly] using h

theorem surfacesClass_applyTo_returns (fields : SurfacesFields) (id : ObjId)
    (event : SurfacesEvent) (state : SurfacesFields) (_ : True)
    (_ : surfacesClass.canApplyTo fields event = true) (h : fields.apply event = some state) :
    ∃ next, surfacesClass.applyTo fields id event = .ok next := by
  refine ⟨state, ?_⟩
  unfold surfacesClass
  simp [h]

/-- All fields of `Surfaces` are serialized. -/
def surfacesSerialized : SerializedFields surfacesClass SurfacesFields where
  view fields := fields
  ofBase snapshot := snapshot
  canApply _ _ := true
  apply fields _ event := fields.apply event
  sound _ := True
  canApplyTo_eq _ _ := rfl
  apply_view := apply_of_surfacesClass
  applyTo_returns := surfacesClass_applyTo_returns
  sound_applyTo _ _ _ _ _ _ := trivial
  sound_loadBase _ _ _ := trivial
  view_loadBase _ _ := rfl
  ofBase_saveBase _ := rfl

end Serialized

namespace SurfacesModel

variable {model next : SurfacesModel} {creation : EventCreation}

/-- A `Surfaces` Node in memory is the fold of its journal. -/
structure IsLoaded (model : SurfacesModel) : Prop where
  stands : model.node.Stands surfacesSerialized
  sorted : JournalSorted model.node.journal

/-- A commit applies its Event to the fields. -/
theorem IsLoaded.committed (h : model.IsLoaded) {event : SurfacesEvent}
    (hrun : model.commit creation event = .ok next) :
    next.IsLoaded ∧ next.number = model.number ∧ next.hasApplication = model.hasApplication ∧
      model.node.fields.apply event = some next.node.fields := by
  obtain ⟨node, hcommit, hpure⟩ := except_bind_eq_ok_iff.mp hrun
  cases hpure
  obtain ⟨-, hinserted⟩ := recordInserted_of_commit hcommit
  obtain ⟨-, hcan, happly⟩ := applied_of_localRecord hinserted
    (rfl : (Ref.mk creation.id (some event)).obj = some event) h.sorted h.stands.materialized
  have hstep : journalStep surfacesClass model.node
      (.commit ⟨creation.id, some event⟩ creation.clockUs) = some node :=
    toOption_eq_some_iff.mpr hcommit
  exact ⟨⟨h.stands.journalStep hstep, hinserted.sorted h.sorted⟩, rfl, rfl,
    apply_of_surfacesClass _ _ _ _ hcan happly⟩

/-- A commit returns when its Event can be applied and there is a timestamp left. -/
theorem IsLoaded.commit_returns (h : model.IsLoaded) {event : SurfacesEvent}
    {applied : SurfacesFields} (happly : model.node.fields.apply event = some applied)
    (htimestamp : commitTimestamp model.node.journal creation.clockUs ≠ 0) :
    ∃ next, model.commit creation event = .ok next := by
  obtain ⟨node, hnode⟩ : ∃ node, AppTraverse.commit surfacesClass model.node
      ⟨creation.id, some event⟩ creation.clockUs = .ok node :=
    h.stands.commit_returns h.sorted creation.valid rfl rfl happly htimestamp
  refine ⟨{ model with node := node }, ?_⟩
  unfold SurfacesModel.commit
  rw [hnode]
  rfl

/-- A Surface that `Create` makes is none of the live ones, and no live number is the greatest
there is. -/
def Admits (model : SurfacesModel) : SurfacesAction → Prop
  | .command _ (.addSurface sibling) =>
      sibling ∉ model.node.fields.surfaces ∧
        NumbersBelow model.number model.node.fields.surfaces
  | _ => True

instance decidableAdmits (model : SurfacesModel) : ∀ action, Decidable (model.Admits action)
  | .command _ (.addSurface sibling) =>
      inferInstanceAs (Decidable (sibling ∉ model.node.fields.surfaces ∧
        ∀ surface ∈ model.node.fields.surfaces, model.number surface < 0xffffffff))
  | .command _ (.remove _) => .isTrue trivial
  | .command _ (.makeCurrent _) => .isTrue trivial
  | .command _ (.setDesktopZOrderFromObjIds _) => .isTrue trivial
  | .replayFromBase => .isTrue trivial
  | .compactJournal _ => .isTrue trivial

/-- What holds between the actions. -/
structure IsSound (model : SurfacesModel) : Prop extends model.IsLoaded where
  consistent : model.node.fields.IsConsistent model.number

/-- A command keeps the lists consistent. -/
theorem IsSound.perform (h : model.IsSound) {command : SurfacesCommand}
    (hadmits : model.Admits (.command creation command))
    (hrun : model.perform creation command = .ok next) : next.IsSound := by
  cases command with
  | addSurface sibling =>
      obtain ⟨hfresh, hbelow⟩ := hadmits
      obtain ⟨checked, -, hcommit⟩ := except_bind_eq_ok_iff.mp hrun
      have hnumbered : IsLoaded { model with
          number := fun surface => if surface = sibling then
            nextSurfaceNumber model.number model.node.fields.surfaces
            else model.number surface } := ⟨h.stands, h.sorted⟩
      obtain ⟨hloaded, hnumber, -, happly⟩ := hnumbered.committed hcommit
      refine ⟨hloaded, ?_⟩
      rw [hnumber]
      exact h.consistent.addSurface hbelow hfresh happly
  | remove surface =>
      change (if surface ∉ model.node.fields.surfaces then Except.ok model else _) = _ at hrun
      split at hrun
      case isTrue =>
        cases hrun
        exact h
      case isFalse =>
        obtain ⟨hloaded, hnumber, -, happly⟩ := h.toIsLoaded.committed hrun
        refine ⟨hloaded, ?_⟩
        rw [hnumber]
        exact h.consistent.removeSurface happly
  | makeCurrent surface =>
      change (if _ then Except.ok model else if surface ∉ model.node.fields.surfaces then
        Except.ok model else _) = _ at hrun
      split at hrun
      case isTrue =>
        cases hrun
        exact h
      case isFalse =>
      split at hrun
      case isTrue =>
        cases hrun
        exact h
      case isFalse hlive =>
        obtain ⟨hloaded, hnumber, -, happly⟩ := h.toIsLoaded.committed hrun
        refine ⟨hloaded, ?_⟩
        rw [hnumber]
        exact h.consistent.setCurrentSurface (not_not.mp hlive) happly
  | setDesktopZOrderFromObjIds orderedObjIds =>
      change (if _ then Except.ok model else _) = _ at hrun
      split at hrun
      case isTrue =>
        cases hrun
        exact h
      case isFalse =>
        obtain ⟨hloaded, hnumber, -, happly⟩ := h.toIsLoaded.committed hrun
        refine ⟨hloaded, ?_⟩
        rw [hnumber]
        exact h.consistent.setDesktopZOrder happly

/-- A command returns while the journal has a timestamp left: the Surface of a
`RemoveSurfaceEvent` is live where the Event is applied. -/
theorem IsLoaded.perform_returns (h : model.IsLoaded) {command : SurfacesCommand}
    (happlication : model.hasApplication = true)
    (htimestamp : commitTimestamp model.node.journal creation.clockUs ≠ 0) :
    ∃ next, model.perform creation command = .ok next := by
  cases command with
  | addSurface sibling =>
      have hnumbered : IsLoaded { model with
          number := fun surface => if surface = sibling then
            nextSurfaceNumber model.number model.node.fields.surfaces
            else model.number surface } := ⟨h.stands, h.sorted⟩
      obtain ⟨next, hnext⟩ := hnumbered.commit_returns
        (rfl : model.node.fields.apply (.addSurface sibling) = some _) htimestamp
      refine ⟨next, ?_⟩
      have hasserted : assertThat model.hasApplication = .ok () := by
        rw [happlication]
        rfl
      show (do assertThat model.hasApplication; _) = _
      rw [hasserted]
      exact hnext
  | remove surface =>
      show ∃ next, model.remove surface creation = .ok next
      unfold SurfacesModel.remove
      split
      case isTrue => exact ⟨model, rfl⟩
      case isFalse hlive => exact h.commit_returns (if_pos (not_not.mp hlive)) htimestamp
  | makeCurrent surface =>
      show ∃ next, model.makeCurrent surface creation = .ok next
      unfold SurfacesModel.makeCurrent
      split
      case isTrue => exact ⟨model, rfl⟩
      case isFalse =>
      split
      case isTrue => exact ⟨model, rfl⟩
      case isFalse => exact h.commit_returns rfl htimestamp
  | setDesktopZOrderFromObjIds orderedObjIds =>
      show ∃ next, model.setDesktopZOrderFromObjIds orderedObjIds creation = .ok next
      unfold SurfacesModel.setDesktopZOrderFromObjIds
      dsimp only
      split
      case isTrue => exact ⟨model, rfl⟩
      case isFalse => exact h.commit_returns rfl htimestamp

/-- After `SetDesktopZOrderFromObjIds` the order is the one it arrived at, also where it found
nothing to change. -/
theorem IsLoaded.desktopZOrder (h : model.IsLoaded) {orderedObjIds : List UInt32}
    (hrun : model.perform creation (.setDesktopZOrderFromObjIds orderedObjIds) = .ok next) :
    next.node.fields.desktopZOrder =
        resolveDesktopZOrder model.node.fields orderedObjIds ∧
      next.node.fields.surfaces = model.node.fields.surfaces := by
  change (if _ then Except.ok model else _) = _ at hrun
  split at hrun
  case isTrue hsame =>
    cases hrun
    exact ⟨of_decide_eq_true hsame, rfl⟩
  case isFalse =>
    obtain ⟨-, -, -, happly⟩ := h.committed hrun
    have hfields := Option.some.inj happly
    rw [← hfields]
    exact ⟨rfl, rfl⟩

/-- An action keeps the lists consistent.  A replay and a compaction change none of them. -/
theorem IsSound.step (h : model.IsSound) {action : SurfacesAction}
    (hadmits : model.Admits action) (hstep : model.step action = some next) : next.IsSound := by
  cases action with
  | command creation command => exact h.perform hadmits (toOption_eq_some_iff.mp hstep)
  | replayFromBase =>
      obtain ⟨node, hnode, rfl⟩ := Option.map_eq_some_iff.mp hstep
      obtain ⟨rebuilt, hrebuilt, hfields⟩ := h.stands.replayFromBase_returns
      cases hrebuilt.symm.trans (toOption_eq_some_iff.mp hnode)
      have hfields : node.fields = model.node.fields := hfields
      have hkept := @journalStep_keeps _ _ _ _ _ _ .replayFromBase h.sorted hnode
      exact ⟨⟨@Node.Stands.journalStep _ _ _ _ _ _ _ _ h.stands .replayFromBase hnode, hkept.1⟩,
        hfields ▸ h.consistent⟩
  | compactJournal nowUs =>
      obtain ⟨node, hnode, rfl⟩ := Option.map_eq_some_iff.mp hstep
      have hfolded := h.stands.prefixFolded (toOption_eq_some_iff.mp hnode)
      have hfields : node.fields = model.node.fields := hfolded.view
      have hsorted : JournalSorted node.journal := by
        rw [hfolded.journal]
        exact h.sorted.sublist (List.drop_sublist _ _)
      exact ⟨⟨hfolded.stands h.stands, hsorted⟩, hfields ▸ h.consistent⟩

theorem IsSound.run {final : SurfacesModel} (h : model.IsSound) {actions : List SurfacesAction}
    (hadmits : EveryStep SurfacesModel.step SurfacesModel.Admits model actions)
    (hrun : runActions SurfacesModel.step model actions = some final) : final.IsSound :=
  runActions_invariant IsSound (fun _ _ _ hsound hadmitted hstep => hsound.step hadmitted hstep)
    h hadmits hrun

end SurfacesModel

/-- In every run from consistent lists the lists stay consistent, every command returns while
there is a timestamp left, and a replay leads to the same fields. -/
theorem surfaces_stayConsistent {model final : SurfacesModel} (hloaded : model.IsLoaded)
    (horder : model.node.fields.desktopZOrder.Perm model.node.fields.surfaces)
    (hnumbers : (model.node.fields.surfaces.map model.number).Nodup)
    (hcurrent : model.node.fields.mobileCurrent = ObjId.empty ∨
      model.node.fields.mobileCurrent ∈ model.node.fields.surfaces)
    {actions : List SurfacesAction}
    (hadmits : EveryStep SurfacesModel.step SurfacesModel.Admits model actions)
    (hrun : runActions SurfacesModel.step model actions = some final) :
    final.node.fields.surfaces.Nodup ∧
    final.node.fields.desktopZOrder.Perm final.node.fields.surfaces ∧
    (final.node.fields.mobileCurrent = ObjId.empty ∨
      final.node.fields.mobileCurrent ∈ final.node.fields.surfaces) ∧
    (final.node.fields.surfaces.map final.number).Nodup ∧
    (∀ creation orderedObjIds next,
      final.perform creation (.setDesktopZOrderFromObjIds orderedObjIds) = .ok next →
      next.node.fields.surfaces = final.node.fields.surfaces ∧
      next.node.fields.desktopZOrder = listedLive final.node.fields orderedObjIds ++
        final.node.fields.surfaces.filter fun live => decide (live.id ∉ orderedObjIds)) ∧
    (∀ creation command, final.hasApplication = true →
      commitTimestamp final.node.journal creation.clockUs ≠ 0 →
      ∃ next, final.perform creation command = .ok next) ∧
    ∃ replayed, replayFromBase surfacesClass final.node = .ok replayed ∧
      replayed.fields = final.node.fields := by
  have hsound : final.IsSound :=
    SurfacesModel.IsSound.run ⟨hloaded, horder, hcurrent, hnumbers⟩ hadmits hrun
  refine ⟨hsound.consistent.nodup, hsound.consistent.order, hsound.consistent.current,
    hsound.consistent.numbers, ?_, ?_, hsound.stands.replayFromBase_returns⟩
  · intro creation orderedObjIds next hnext
    obtain ⟨horder, hsurfaces⟩ := hsound.toIsLoaded.desktopZOrder hnext
    rw [resolveDesktopZOrder_eq hsound.consistent.nodup] at horder
    exact ⟨hsurfaces, horder⟩
  · intro creation command happlication htimestamp
    exact hsound.toIsLoaded.perform_returns happlication htimestamp

/-- A `Surfaces` Node that was just initialized. -/
def newSurfaces (fields : SurfacesFields) (number : ObjId → UInt32) : SurfacesModel where
  node := initializeRuntimeNode surfacesClass ⟨1⟩ 0 ⟨2⟩ fields
  number := number
  hasApplication := true

theorem newSurfaces_isLoaded (fields : SurfacesFields) (number : ObjId → UInt32) :
    (newSurfaces fields number).IsLoaded where
  stands := ⟨folds_initializeRuntimeNode, rfl, trivial⟩
  sorted := List.Pairwise.nil

/-- Two Surfaces, numbered 1 and 2. -/
def twoSurfaces : SurfacesModel :=
  newSurfaces { surfaces := [⟨11⟩, ⟨12⟩], desktopZOrder := [⟨12⟩, ⟨11⟩] }
    fun surface => if surface = ⟨11⟩ then 1 else 2

/-- A Surface is added, the first one becomes the current page and is removed, and an order is
given that names a Surface twice and others that are not there. -/
def surfacesActions : List SurfacesAction :=
  [.command ⟨⟨21⟩, 10, rfl⟩ (.addSurface ⟨13⟩), .command ⟨⟨22⟩, 10, rfl⟩ (.makeCurrent ⟨11⟩),
    .command ⟨⟨23⟩, 10, rfl⟩ (.remove ⟨11⟩), .replayFromBase,
    .command ⟨⟨24⟩, 10, rfl⟩ (.setDesktopZOrderFromObjIds [13, 11, 13, 99])]

theorem twoSurfaces_stayConsistent : ∃ final,
    runActions SurfacesModel.step twoSurfaces surfacesActions = some final ∧
      final.node.fields = ⟨[⟨12⟩, ⟨13⟩], ObjId.empty, [⟨13⟩, ⟨12⟩]⟩ ∧
      final.node.fields.desktopZOrder.Perm final.node.fields.surfaces := by
  have hfields : (runActions SurfacesModel.step twoSurfaces surfacesActions).map
      (fun final => final.node.fields) =
        some ⟨[⟨12⟩, ⟨13⟩], ObjId.empty, [⟨13⟩, ⟨12⟩]⟩ := by
    decide +kernel
  obtain ⟨final, hrun, hfinal⟩ := Option.map_eq_some_iff.mp hfields
  obtain ⟨-, horder, -⟩ := surfaces_stayConsistent
    (show twoSurfaces.IsLoaded from newSurfaces_isLoaded _ _)
    (show List.Perm [ObjId.mk 12, ⟨11⟩] [⟨11⟩, ⟨12⟩] from List.Perm.swap _ _ _) (by decide +kernel) (Or.inl rfl) (by decide +kernel) hrun
  exact ⟨final, hrun, hfinal, horder⟩

/-- One Surface, and a current page that is not live. -/
def staleCurrent : SurfacesModel := newSurfaces ⟨[⟨11⟩], ⟨99⟩, [⟨11⟩]⟩ fun _ => 1

/-- A current page that is not live when the run begins stays where it is: the removal of
another Surface does not touch it. -/
theorem staleCurrent_isKept :
    staleCurrent.IsLoaded ∧
      staleCurrent.node.fields.desktopZOrder.Perm staleCurrent.node.fields.surfaces ∧
      (staleCurrent.node.fields.surfaces.map staleCurrent.number).Nodup ∧
      EveryStep SurfacesModel.step SurfacesModel.Admits staleCurrent
        [.command ⟨⟨21⟩, 10, rfl⟩ (.remove ⟨11⟩)] ∧
      ∃ final, runActions SurfacesModel.step staleCurrent
          [.command ⟨⟨21⟩, 10, rfl⟩ (.remove ⟨11⟩)] = some final ∧
        ¬ (final.node.fields.mobileCurrent = ObjId.empty ∨
          final.node.fields.mobileCurrent ∈ final.node.fields.surfaces) := by
  have hfields : (runActions SurfacesModel.step staleCurrent
      [.command ⟨⟨21⟩, 10, rfl⟩ (.remove ⟨11⟩)]).map (fun final => final.node.fields) =
        some ⟨[], ⟨99⟩, []⟩ := by
    decide +kernel
  obtain ⟨final, hrun, hfinal⟩ := Option.map_eq_some_iff.mp hfields
  refine ⟨newSurfaces_isLoaded _ _, List.Perm.refl _, List.nodup_singleton _, by decide +kernel,
    final, hrun, ?_⟩
  rw [hfinal]
  decide

end AppTraverse
