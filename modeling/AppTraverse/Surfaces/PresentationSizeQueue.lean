import Mathlib.Data.List.AList
import AppTraverse.Foundations.TransitionSystem

/-!
# The queue of presentation sizes

UI threads report the sizes of Surfaces, and drains on the model thread apply them.  A step of
the system is one section under the mutex of the queue, or one thing that a thread does between
two sections: a call of `post_`, a lookup in the Domain, an `Apply`.  A Surface is in the model
with the size it has; its other fields play no part, and they are not changed by a drain.

`posted` is not part of the program: it has the size of the last `Post` for each id.
-/

namespace AppTraverse

open Foundations

/-- `SurfaceSlot`, and the presentation size of a `Surface`. -/
structure SurfaceSlot where
  width : Int32
  height : Int32
  deriving DecidableEq, Repr

/-- Sizes by the id of a Surface. -/
abbrev SurfaceSizes := AList fun _ : UInt32 => SurfaceSlot

/-- Where the drain on the model thread is.  `rest` are the keys still to come. -/
inductive DrainPhase where
  | begun
  | unscheduled
  | nextKey (rest : List UInt32) (needAgain : Bool)
  | read (key : UInt32) (size : SurfaceSlot) (rest : List UInt32) (needAgain : Bool)
  | missing (key : UInt32) (rest : List UInt32) (needAgain : Bool)
  | found (key : UInt32) (size : SurfaceSlot) (rest : List UInt32) (needAgain : Bool)
  | applying (key : UInt32) (size : SurfaceSlot) (rest : List UInt32) (needAgain : Bool)
  | applied (key : UInt32) (size : SurfaceSlot) (rest : List UInt32) (needAgain : Bool)
  | handing
  deriving DecidableEq, Repr

/-- The queue with the threads that use it: `posting` calls of `Post` are between their two
sections, `handing` have set the flag and not called `post_` yet, and `queued` drains are
accepted and not begun. -/
structure SizeQueue where
  slots : SurfaceSizes := ∅
  drainScheduled : Bool := false
  posting : Nat := 0
  handing : Nat := 0
  queued : Nat := 0
  drain : Option DrainPhase := none
  surfaces : SurfaceSizes
  posted : SurfaceSizes := ∅
  deriving DecidableEq

/-- The steps of the system. -/
inductive SizeQueueAction where
  | post (key : UInt32) (size : SurfaceSlot)
  | ensureDrainScheduled
  | callPost
  | beginDrain
  | collectKeys (keys : List UInt32)
  | drainStep
  | addSurface (key : UInt32) (size : SurfaceSlot)
  | removeSurface (key : UInt32)
  deriving DecidableEq, Repr

namespace SizeQueue

variable (queue : SizeQueue)

/-- The first section of `Post`. -/
def post (key : UInt32) (size : SurfaceSlot) : SizeQueue :=
  { queue with
    slots := queue.slots.insert key size
    posting := queue.posting + 1
    posted := queue.posted.insert key size }

/-- The section of `EnsureDrainScheduled`, in a call of `Post`. -/
def ensureDrainScheduled : Option SizeQueue :=
  if queue.posting = 0 then
    none
  else if queue.drainScheduled then
    some { queue with posting := queue.posting - 1 }
  else
    some { queue with
      posting := queue.posting - 1
      drainScheduled := true
      handing := queue.handing + 1 }

/-- `Surface::SetPresentationSize`. -/
def setPresentationSize (key : UInt32) (size : SurfaceSlot) : SizeQueue :=
  if queue.surfaces.lookup key = some size then queue
  else { queue with surfaces := queue.surfaces.insert key size }

def toPhase (phase : DrainPhase) : SizeQueue := { queue with drain := some phase }

/-- The first section of a drain that iterates: collect the keys, in the order of the hash
table. -/
def collectKeys (keys : List UInt32) : Option SizeQueue :=
  if queue.drain = some .unscheduled ∧ keys.Perm queue.slots.keys then
    some (queue.toPhase (.nextKey keys false))
  else
    none

/-- The next step of the drain, from where it is. -/
def drainStep : DrainPhase → Option SizeQueue
  | .begun => some { queue with drainScheduled := false, drain := some .unscheduled }
  | .unscheduled => none
  | .nextKey [] needAgain =>
      if needAgain && !queue.drainScheduled then
        some { queue with drainScheduled := true, drain := some .handing }
      else
        some { queue with drain := none }
  | .nextKey (key :: rest) needAgain =>
      match queue.slots.lookup key with
      | none => some (queue.toPhase (.nextKey rest needAgain))
      | some size => some (queue.toPhase (.read key size rest needAgain))
  | .read key size rest needAgain =>
      if (queue.surfaces.lookup key).isNone then
        some (queue.toPhase (.missing key rest needAgain))
      else
        some (queue.toPhase (.found key size rest needAgain))
  | .missing key rest needAgain =>
      some { queue with
        slots := queue.slots.erase key
        drain := some (.nextKey rest needAgain) }
  | .found key size rest needAgain =>
      match queue.slots.lookup key with
      | none => some (queue.toPhase (.nextKey rest needAgain))
      | some latest =>
          some (queue.toPhase (.applying key (if latest ≠ size then latest else size) rest
            needAgain))
  | .applying key size rest needAgain =>
      some ((queue.setPresentationSize key size).toPhase (.applied key size rest needAgain))
  | .applied key size rest needAgain =>
      match queue.slots.lookup key with
      | none => some (queue.toPhase (.nextKey rest needAgain))
      | some latest =>
          if latest = size then
            some { queue with
              slots := queue.slots.erase key
              drain := some (.nextKey rest needAgain) }
          else
            some (queue.toPhase (.nextKey rest true))
  | .handing => some { queue with queued := queue.queued + 1, drain := none }

/-- One step of the system.  The model thread adds and removes Surfaces between its drains. -/
def step : SizeQueueAction → Option SizeQueue
  | .post key size => some (queue.post key size)
  | .ensureDrainScheduled => queue.ensureDrainScheduled
  | .callPost =>
      if queue.handing = 0 then none
      else some { queue with handing := queue.handing - 1, queued := queue.queued + 1 }
  | .beginDrain =>
      if queue.queued = 0 ∨ queue.drain ≠ none then none
      else some { queue with queued := queue.queued - 1, drain := some .begun }
  | .collectKeys keys => queue.collectKeys keys
  | .drainStep => queue.drain.bind queue.drainStep
  | .addSurface key size =>
      if queue.drain ≠ none then none
      else some { queue with surfaces := queue.surfaces.insert key size }
  | .removeSurface key =>
      if queue.drain ≠ none then none
      else some { queue with surfaces := queue.surfaces.erase key }

/-- The drains that are scheduled and not begun. -/
def scheduled : Nat :=
  queue.handing + queue.queued + if queue.drain = some .handing then 1 else 0

end SizeQueue

/-- The keys that a drain has still to come to. -/
def DrainPhase.keys : DrainPhase → List UInt32
  | .nextKey rest _ => rest
  | .read key _ rest _ => key :: rest
  | .missing key rest _ => key :: rest
  | .found key _ rest _ => key :: rest
  | .applying key _ rest _ => key :: rest
  | .applied key _ rest _ => key :: rest
  | _ => []

/-- Another look at all the slots follows: the keys are not collected yet, or there will be
another drain. -/
def DrainPhase.looksAgain : DrainPhase → Bool
  | .begun => true
  | .unscheduled => true
  | .nextKey _ needAgain => needAgain
  | .read _ _ _ needAgain => needAgain
  | .missing _ _ needAgain => needAgain
  | .found _ _ _ needAgain => needAgain
  | .applying _ _ _ needAgain => needAgain
  | .applied _ _ _ needAgain => needAgain
  | .handing => true

/-- What the drain knows of the key that it is at. -/
def DrainPhase.Knows (slots surfaces : SurfaceSizes) : DrainPhase → Prop
  | .missing key _ _ => surfaces.lookup key = none
  | .applying key _ _ _ => slots.lookup key ≠ none
  | .applied key size _ _ => surfaces.lookup key = some size
  | _ => True

/-- Those who answer for the flag: it is set until the drain has begun. -/
def SizeQueue.flagHolders (queue : SizeQueue) : Nat :=
  queue.scheduled + if queue.drain = some .begun then 1 else 0

/-- The slot of the key is looked at later: a `Post` is still to schedule a drain, a drain is
scheduled, or the drain that runs comes to it. -/
def SizeQueue.Covers (queue : SizeQueue) (key : UInt32) : Prop :=
  0 < queue.posting ∨ queue.drainScheduled = true ∨
    ∃ phase, queue.drain = some phase ∧ (key ∈ phase.keys ∨ phase.looksAgain = true)

/-- What holds between the steps. -/
structure SizeQueue.IsSound (queue : SizeQueue) : Prop where
  flag : queue.flagHolders = if queue.drainScheduled then 1 else 0
  covered : ∀ key, queue.slots.lookup key ≠ none → queue.Covers key
  slots : ∀ key size, queue.slots.lookup key = some size → queue.posted.lookup key = some size
  shown : ∀ key size shown, queue.posted.lookup key = some size →
    queue.slots.lookup key = none → queue.surfaces.lookup key = some shown → shown = size
  knows : ∀ phase, queue.drain = some phase → phase.Knows queue.slots queue.surfaces

namespace SizeQueue.IsSound

variable {queue next : SizeQueue}

theorem post (h : queue.IsSound) (key : UInt32) (size : SurfaceSlot) :
    (queue.post key size).IsSound where
  flag := h.flag
  covered _ _ := Or.inl (Nat.succ_pos _)
  slots other held hother := by
    by_cases hsame : other = key
    · subst hsame
      rw [SizeQueue.post, AList.lookup_insert] at hother ⊢
      exact hother
    · change (queue.slots.insert key size).lookup other = _ at hother
      show (queue.posted.insert key size).lookup other = _
      rw [AList.lookup_insert_ne hsame] at hother ⊢
      exact h.slots other held hother
  shown other held shown hposted hslot hsurface := by
    change (queue.slots.insert key size).lookup other = none at hslot
    change (queue.posted.insert key size).lookup other = _ at hposted
    by_cases hsame : other = key
    · subst hsame
      rw [AList.lookup_insert] at hslot
      cases hslot
    · rw [AList.lookup_insert_ne hsame] at hslot hposted
      exact h.shown other held shown hposted hslot hsurface
  knows phase hphase := by
    have hknown := h.knows phase hphase
    cases phase with
    | applying other held rest needAgain =>
        show (queue.slots.insert key size).lookup other ≠ none
        by_cases hsame : other = key
        · rw [hsame, AList.lookup_insert]
          simp
        · rw [AList.lookup_insert_ne hsame]
          exact hknown
    | _ => exact hknown

/-- A step that only moves the threads. -/
theorem threads (h : queue.IsSound) (hslots : next.slots = queue.slots)
    (hsurfaces : next.surfaces = queue.surfaces) (hposted : next.posted = queue.posted)
    (hflag : next.flagHolders = if next.drainScheduled then 1 else 0)
    (hcovered : ∀ key, queue.slots.lookup key ≠ none → next.Covers key)
    (hknows : ∀ phase, next.drain = some phase → phase.Knows queue.slots queue.surfaces) :
    next.IsSound where
  flag := hflag
  covered := by rw [hslots]; exact hcovered
  slots := by rw [hslots, hposted]; exact h.slots
  shown := by rw [hslots, hposted, hsurfaces]; exact h.shown
  knows := by rw [hslots, hsurfaces]; exact hknows

theorem ensureDrainScheduled (h : queue.IsSound)
    (hstep : queue.ensureDrainScheduled = some next) : next.IsSound := by
  have hflag := h.flag
  unfold SizeQueue.ensureDrainScheduled at hstep
  split at hstep
  case isTrue => cases hstep
  case isFalse =>
  split at hstep
  case isTrue hset =>
    cases hstep
    exact h.threads rfl rfl rfl hflag (fun _ _ => Or.inr (Or.inl hset)) h.knows
  case isFalse hunset =>
    cases hstep
    refine h.threads rfl rfl rfl ?_ (fun _ _ => Or.inr (Or.inl rfl)) h.knows
    rw [if_neg hunset] at hflag
    unfold flagHolders scheduled at hflag ⊢
    simp only [if_true]
    omega

theorem callPost (h : queue.IsSound) (hstep : queue.step .callPost = some next) :
    next.IsSound := by
  have hflag := h.flag
  change (if queue.handing = 0 then none else some _) = some next at hstep
  split at hstep
  case isTrue => cases hstep
  case isFalse hhanding =>
    cases hstep
    refine h.threads rfl rfl rfl ?_ h.covered h.knows
    show _ = if queue.drainScheduled then 1 else 0
    rw [← hflag]
    unfold flagHolders scheduled
    simp only
    omega

theorem beginDrain (h : queue.IsSound) (hstep : queue.step .beginDrain = some next) :
    next.IsSound := by
  have hflag := h.flag
  change (if queue.queued = 0 ∨ queue.drain ≠ none then none else some _) = some next at hstep
  split at hstep
  case isTrue => cases hstep
  case isFalse hready =>
    obtain ⟨hqueued, hidle⟩ := not_or.mp hready
    have hidle : queue.drain = none := not_not.mp hidle
    cases hstep
    refine h.threads rfl rfl rfl ?_ ?_ ?_
    · show _ = if queue.drainScheduled then 1 else 0
      rw [← hflag]
      unfold flagHolders scheduled
      rw [hidle]
      simp
      omega
    · exact fun _ _ => Or.inr (Or.inr ⟨_, rfl, Or.inr rfl⟩)
    · rintro phase hphase
      cases hphase
      trivial

theorem collectKeys (h : queue.IsSound) {keys : List UInt32}
    (hstep : queue.collectKeys keys = some next) : next.IsSound := by
  have hflag := h.flag
  unfold SizeQueue.collectKeys at hstep
  split at hstep
  case isFalse => cases hstep
  case isTrue hready =>
    obtain ⟨hphase, hkeys⟩ := hready
    cases hstep
    refine h.threads rfl rfl rfl ?_ ?_ ?_
    · show _ = if queue.drainScheduled then 1 else 0
      rw [← hflag]
      unfold flagHolders scheduled toPhase
      rw [hphase]
      simp
    · intro key hslot
      refine Or.inr (Or.inr ⟨_, rfl, Or.inl ?_⟩)
      show key ∈ keys
      rw [hkeys.mem_iff, ← AList.mem_keys, ← AList.lookup_isSome, Option.isSome_iff_ne_none]
      exact hslot
    · intro phase hphase
      cases hphase
      trivial

/-- Surfaces come and go while no drain runs. -/
theorem surfacesChanged (h : queue.IsSound) (hidle : queue.drain = none)
    {surfaces : SurfaceSizes} (hshown : ∀ key size shown, queue.posted.lookup key = some size →
      surfaces.lookup key = some shown → queue.surfaces.lookup key = some shown) :
    IsSound { queue with surfaces := surfaces } where
  flag := h.flag
  covered := h.covered
  slots := h.slots
  shown key size shown hposted hslot hsurface :=
    h.shown key size shown hposted hslot (hshown key size shown hposted hsurface)
  knows phase hphase := by
    rw [show queue.drain = some phase from hphase] at hidle
    cases hidle

/-- Only at its two ends does a drain answer for the flag. -/
theorem flagHolders_toPhase {phase phase' : DrainPhase} (hdrain : queue.drain = some phase)
    (hinside : phase ≠ .begun ∧ phase ≠ .handing) (hinside' : phase' ≠ .begun ∧ phase' ≠ .handing) :
    (queue.toPhase phase').flagHolders = queue.flagHolders := by
  unfold SizeQueue.flagHolders SizeQueue.scheduled SizeQueue.toPhase
  rw [hdrain]
  simp [hinside.1, hinside.2, hinside'.1, hinside'.2]

/-- The drain goes on, and comes to what it would have come to. -/
theorem covers_toPhase (h : queue.IsSound) {phase phase' : DrainPhase}
    (hdrain : queue.drain = some phase) {key : UInt32} (hslot : queue.slots.lookup key ≠ none)
    (hkeys : key ∈ phase.keys ∨ phase.looksAgain = true →
      key ∈ phase'.keys ∨ phase'.looksAgain = true) :
    (queue.toPhase phase').Covers key := by
  rcases h.covered key hslot with hposting | hscheduled | ⟨held, hheld, hcomes⟩
  · exact Or.inl hposting
  · exact Or.inr (Or.inl hscheduled)
  · cases hheld.symm.trans hdrain
    exact Or.inr (Or.inr ⟨phase', rfl, hkeys hcomes⟩)

/-- The drain goes on, and what it came to is still to be come to. -/
theorem moved (h : queue.IsSound) {phase phase' : DrainPhase}
    (hdrain : queue.drain = some phase) (hinside : phase ≠ .begun ∧ phase ≠ .handing)
    (hinside' : phase' ≠ .begun ∧ phase' ≠ .handing)
    (hkeys : ∀ key, queue.slots.lookup key ≠ none → key ∈ phase.keys ∨ phase.looksAgain = true →
      key ∈ phase'.keys ∨ phase'.looksAgain = true)
    (hknows : phase'.Knows queue.slots queue.surfaces) : (queue.toPhase phase').IsSound := by
  refine h.threads rfl rfl rfl ?_ ?_ ?_
  · rw [flagHolders_toPhase hdrain hinside hinside']
    exact h.flag
  · intro key hslot
    exact h.covers_toPhase hdrain hslot (hkeys key hslot)
  · intro held hheld
    cases hheld
    exact hknows

/-- The drain passes over a key that has no slot any more. -/
theorem passed (h : queue.IsSound) {phase : DrainPhase} {key : UInt32} {rest : List UInt32}
    {needAgain : Bool} (hdrain : queue.drain = some phase)
    (hinside : phase ≠ .begun ∧ phase ≠ .handing) (hkeys : phase.keys = key :: rest)
    (hagain : phase.looksAgain = needAgain) (hnone : queue.slots.lookup key = none) :
    (queue.toPhase (.nextKey rest needAgain)).IsSound := by
  refine h.moved hdrain hinside (by simp) ?_ trivial
  intro other hslot hcomes
  rw [hkeys, List.mem_cons, hagain] at hcomes
  rcases hcomes with (rfl | hrest) | hlooks
  · exact absurd hnone hslot
  · exact Or.inl hrest
  · exact Or.inr hlooks

/-- The drain leaves a key whose slot it erases: the Surface is not there, or it has the size of
the slot. -/
theorem erased (h : queue.IsSound) {phase : DrainPhase} {key : UInt32} {rest : List UInt32}
    {needAgain : Bool} (hdrain : queue.drain = some phase)
    (hinside : phase ≠ .begun ∧ phase ≠ .handing) (hkeys : phase.keys = key :: rest)
    (hagain : phase.looksAgain = needAgain)
    (hlast : ∀ size shown, queue.posted.lookup key = some size →
      queue.surfaces.lookup key = some shown → shown = size) :
    IsSound { queue with
      slots := queue.slots.erase key
      drain := some (.nextKey rest needAgain) } where
  flag := by
    have hsame := flagHolders_toPhase hdrain hinside
      (show DrainPhase.nextKey rest needAgain ≠ .begun ∧
        DrainPhase.nextKey rest needAgain ≠ .handing by simp)
    exact hsame.trans h.flag
  covered other hslot := by
    change (queue.slots.erase key).lookup other ≠ none at hslot
    have hne : other ≠ key := by
      rintro rfl
      exact hslot (AList.lookup_erase _ _)
    rw [AList.lookup_erase_ne hne] at hslot
    refine h.covers_toPhase hdrain hslot (fun hcomes => ?_)
    rw [hkeys, List.mem_cons, hagain] at hcomes
    rcases hcomes with (hsame | hrest) | hlooks
    · exact absurd hsame hne
    · exact Or.inl hrest
    · exact Or.inr hlooks
  slots other size hslot := by
    change (queue.slots.erase key).lookup other = some size at hslot
    by_cases hsame : other = key
    · rw [hsame, AList.lookup_erase] at hslot
      cases hslot
    · rw [AList.lookup_erase_ne hsame] at hslot
      exact h.slots other size hslot
  shown other size shown hposted hslot hsurface := by
    change (queue.slots.erase key).lookup other = none at hslot
    by_cases hsame : other = key
    · subst hsame
      exact hlast size shown hposted hsurface
    · rw [AList.lookup_erase_ne hsame] at hslot
      exact h.shown other size shown hposted hslot hsurface
  knows held hheld := by
    cases hheld
    trivial

/-- The size of a slot is applied to its Surface. -/
theorem applied (h : queue.IsSound) {key : UInt32} {size : SurfaceSlot} {rest : List UInt32}
    {needAgain : Bool} (hdrain : queue.drain = some (.applying key size rest needAgain)) :
    ((queue.setPresentationSize key size).toPhase (.applied key size rest needAgain)).IsSound := by
  have hslot : queue.slots.lookup key ≠ none := h.knows _ hdrain
  have hlookup : (queue.setPresentationSize key size).surfaces.lookup key = some size := by
    unfold setPresentationSize
    split
    case isTrue hsame => exact hsame
    case isFalse => exact AList.lookup_insert _
  have hother : ∀ other, other ≠ key →
      (queue.setPresentationSize key size).surfaces.lookup other =
        queue.surfaces.lookup other := by
    intro other hne
    unfold setPresentationSize
    split
    case isTrue => rfl
    case isFalse => exact AList.lookup_insert_ne hne
  have hframe : (queue.setPresentationSize key size).toPhase (.applied key size rest needAgain) =
      { queue with
        surfaces := (queue.setPresentationSize key size).surfaces
        drain := some (.applied key size rest needAgain) } := by
    unfold setPresentationSize
    split <;> rfl
  rw [hframe]
  refine ⟨?_, ?_, h.slots, ?_, ?_⟩
  · have hsame := flagHolders_toPhase hdrain (by simp)
      (show DrainPhase.applied key size rest needAgain ≠ .begun ∧
        DrainPhase.applied key size rest needAgain ≠ .handing by simp)
    exact hsame.trans h.flag
  · intro other hheld
    exact h.covers_toPhase hdrain hheld fun hcomes => hcomes
  · intro other posted shown hposted hnone hsurface
    have hne : other ≠ key := by
      rintro rfl
      exact hslot hnone
    change (queue.setPresentationSize key size).surfaces.lookup other = _ at hsurface
    rw [hother other hne] at hsurface
    exact h.shown other posted shown hposted hnone hsurface
  · intro phase hphase
    cases hphase
    exact hlookup

/-- The drain ends, and schedules another one if it has to. -/
theorem finished (h : queue.IsSound) {needAgain : Bool}
    (hdrain : queue.drain = some (.nextKey [] needAgain))
    (hstep : queue.drainStep (.nextKey [] needAgain) = some next) : next.IsSound := by
  have hflag := h.flag
  unfold flagHolders scheduled at hflag
  rw [hdrain] at hflag
  change (if needAgain && !queue.drainScheduled then some _ else some _) = some next at hstep
  split at hstep
  case isTrue hagain =>
    cases hstep
    have hunset : ¬queue.drainScheduled = true := by
      simp at hagain
      simp [hagain.2]
    rw [if_neg hunset] at hflag
    refine h.threads rfl rfl rfl ?_ (fun _ _ => Or.inr (Or.inl rfl)) ?_
    · show _ = 1
      simp [flagHolders, scheduled] at hflag ⊢
      omega
    · intro phase hphase
      cases hphase
      trivial
  case isFalse hdone =>
    cases hstep
    refine h.threads rfl rfl rfl ?_ ?_ ?_
    · show _ = if queue.drainScheduled then 1 else 0
      rw [← hflag]
      simp [flagHolders, scheduled]
    · intro key hslot
      rcases h.covered key hslot with hposting | hscheduled | ⟨held, hheld, hcomes⟩
      · exact Or.inl hposting
      · exact Or.inr (Or.inl hscheduled)
      · cases hheld.symm.trans hdrain
        rcases hcomes with hmem | hlooks
        · cases hmem
        · have hneed : needAgain = true := hlooks
          rw [hneed] at hdone
          exact Or.inr (Or.inl (by simpa using hdone))
    · intro phase hphase
      cases hphase

/-- One step of the drain. -/
theorem drainStep (h : queue.IsSound) {phase : DrainPhase} (hdrain : queue.drain = some phase)
    (hstep : queue.drainStep phase = some next) : next.IsSound := by
  cases phase with
  | begun =>
      have hflag := h.flag
      cases hstep
      refine h.threads rfl rfl rfl ?_ (fun _ _ => Or.inr (Or.inr ⟨_, rfl, Or.inr rfl⟩)) ?_
      · -- The drain itself answered for the flag.
        unfold flagHolders scheduled at hflag ⊢
        rw [hdrain] at hflag
        simp only [reduceCtorEq, if_false, if_true, Option.some.injEq] at hflag ⊢
        split at hflag <;> simp_all
      · rintro held hheld
        cases hheld
        trivial
  | unscheduled => cases hstep
  | nextKey keys needAgain =>
      cases keys with
      | nil => exact h.finished hdrain hstep
      | cons key rest =>
          change (match queue.slots.lookup key with | none => _ | some size => _) = _ at hstep
          split at hstep
          case h_1 hnone =>
            cases hstep
            exact h.passed hdrain (by simp) rfl rfl hnone
          case h_2 size hsize =>
            cases hstep
            exact h.moved hdrain (by simp) (by simp) (fun _ _ hcomes => hcomes) trivial
  | read key size rest needAgain =>
      change (if _ then some _ else some _) = some next at hstep
      split at hstep
      case isTrue hgone =>
        cases hstep
        exact h.moved hdrain (by simp) (by simp) (fun _ _ hcomes => hcomes)
          (Option.isNone_iff_eq_none.mp hgone)
      case isFalse =>
        cases hstep
        exact h.moved hdrain (by simp) (by simp) (fun _ _ hcomes => hcomes) trivial
  | missing key rest needAgain =>
      have hgone : queue.surfaces.lookup key = none := h.knows _ hdrain
      cases hstep
      apply h.erased hdrain (by simp) rfl rfl
      intro size shown _ hsurface
      rw [hgone] at hsurface
      cases hsurface
  | found key size rest needAgain =>
      change (match queue.slots.lookup key with | none => _ | some latest => _) = _ at hstep
      split at hstep
      case h_1 hnone =>
        cases hstep
        exact h.passed hdrain (by simp) rfl rfl hnone
      case h_2 latest hlatest =>
        cases hstep
        refine h.moved hdrain (by simp) (by simp) (fun _ _ hcomes => hcomes) ?_
        show queue.slots.lookup key ≠ none
        rw [hlatest]
        simp
  | applying key size rest needAgain =>
      cases hstep
      exact h.applied hdrain
  | applied key size rest needAgain =>
      have hshown : queue.surfaces.lookup key = some size := h.knows _ hdrain
      change (match queue.slots.lookup key with | none => _ | some latest => _) = _ at hstep
      split at hstep
      case h_1 hnone =>
        cases hstep
        exact h.passed hdrain (by simp) rfl rfl hnone
      case h_2 latest hlatest =>
      split at hstep
      case isTrue hsame =>
        -- The slot held the size of the last `Post`, and the Surface has it.
        cases hstep
        apply h.erased hdrain (by simp) rfl rfl
        intro posted shown hposted hsurface
        rw [h.slots key latest hlatest] at hposted
        rw [hshown] at hsurface
        rw [← Option.some.inj hsurface, ← Option.some.inj hposted, hsame]
      case isFalse =>
        cases hstep
        exact h.moved hdrain (by simp) (by simp) (fun _ _ _ => Or.inr rfl) trivial
  | handing =>
      have hflag := h.flag
      cases hstep
      unfold flagHolders scheduled at hflag
      rw [hdrain] at hflag
      have hset : queue.drainScheduled = true := by
        by_contra hunset
        rw [if_neg hunset] at hflag
        simp at hflag
      refine h.threads rfl rfl rfl ?_ (fun _ _ => Or.inr (Or.inl hset)) ?_
      · show _ = if queue.drainScheduled then 1 else 0
        rw [← hflag]
        simp [flagHolders, scheduled]
        omega
      · intro phase hphase
        cases hphase

end SizeQueue.IsSound

namespace SizeQueue

variable {queue next final : SizeQueue}

/-- A Surface is added under an id for which no size was posted. -/
def AddsUnposted (queue : SizeQueue) : SizeQueueAction → Prop
  | .addSurface key _ => queue.posted.lookup key = none
  | _ => True

instance (queue : SizeQueue) : ∀ action, Decidable (queue.AddsUnposted action)
  | .addSurface key _ => inferInstanceAs (Decidable (queue.posted.lookup key = none))
  | .post _ _ => .isTrue trivial
  | .ensureDrainScheduled => .isTrue trivial
  | .callPost => .isTrue trivial
  | .beginDrain => .isTrue trivial
  | .collectKeys _ => .isTrue trivial
  | .drainStep => .isTrue trivial
  | .removeSurface _ => .isTrue trivial

theorem IsSound.step (h : queue.IsSound) {action : SizeQueueAction}
    (hadds : queue.AddsUnposted action) (hstep : queue.step action = some next) :
    next.IsSound := by
  cases action with
  | post key size =>
      cases hstep
      exact h.post key size
  | ensureDrainScheduled => exact h.ensureDrainScheduled hstep
  | callPost => exact h.callPost hstep
  | beginDrain => exact h.beginDrain hstep
  | collectKeys keys => exact h.collectKeys hstep
  | drainStep =>
      obtain ⟨phase, hdrain, hphase⟩ := Option.bind_eq_some_iff.mp hstep
      exact h.drainStep hdrain hphase
  | addSurface key size =>
      have hunposted : queue.posted.lookup key = none := hadds
      change (if queue.drain ≠ none then none else some _) = some next at hstep
      split at hstep
      case isTrue => cases hstep
      case isFalse hidle =>
        cases hstep
        apply h.surfacesChanged (not_not.mp hidle)
        intro other posted shown hposted hsurface
        have hne : other ≠ key := by
          rintro rfl
          rw [hunposted] at hposted
          cases hposted
        rw [AList.lookup_insert_ne hne] at hsurface
        exact hsurface
  | removeSurface key =>
      change (if queue.drain ≠ none then none else some _) = some next at hstep
      split at hstep
      case isTrue => cases hstep
      case isFalse hidle =>
        cases hstep
        apply h.surfacesChanged (not_not.mp hidle)
        intro other posted shown _ hsurface
        by_cases hsame : other = key
        · rw [hsame, AList.lookup_erase] at hsurface
          cases hsurface
        · rw [AList.lookup_erase_ne hsame] at hsurface
          exact hsurface

/-- Before the first `Post`. -/
def initial (surfaces : SurfaceSizes) : SizeQueue := { surfaces := surfaces }

theorem isSound_initial (surfaces : SurfaceSizes) : (initial surfaces).IsSound where
  flag := rfl
  covered _ hslot := absurd (AList.lookup_empty _) hslot
  slots key size hslot := by
    rw [show (initial surfaces).slots = ∅ from rfl, AList.lookup_empty] at hslot
    cases hslot
  shown key size shown hposted := by
    rw [show (initial surfaces).posted = ∅ from rfl, AList.lookup_empty] at hposted
    cases hposted
  knows _ hphase := by cases hphase

theorem IsSound.run (h : queue.IsSound) {actions : List SizeQueueAction}
    (hadds : EveryStep SizeQueue.step SizeQueue.AddsUnposted queue actions)
    (hrun : runActions SizeQueue.step queue actions = some final) : final.IsSound :=
  runActions_invariant IsSound (fun _ _ _ hsound hadd hstep => hsound.step hadd hstep) h hadds
    hrun

/-- At most one drain is scheduled. -/
theorem IsSound.scheduled_le (h : queue.IsSound) : queue.scheduled ≤ 1 := by
  have hflag := h.flag
  unfold flagHolders at hflag
  split at hflag <;> split at hflag <;> omega

/-- When nobody is on the way to a slot there is none. -/
theorem IsSound.slots_of_idle (h : queue.IsSound) (hscheduled : queue.scheduled = 0)
    (hdrain : queue.drain = none) (hposting : queue.posting = 0) (key : UInt32) :
    queue.slots.lookup key = none := by
  by_contra hslot
  rcases h.covered key hslot with hposts | hset | ⟨phase, hphase, -⟩
  · omega
  · have hflag := h.flag
    unfold flagHolders at hflag
    rw [hscheduled, hdrain, hset] at hflag
    simp at hflag
  · rw [hdrain] at hphase
    cases hphase

end SizeQueue

/-- In every run at most one drain is scheduled, and when none is scheduled or running and no
`Post` is between its two sections, there is no slot and every Surface has the size that was
last posted for it. -/
theorem presentationSizeQueue_keepsLastSize {surfaces : SurfaceSizes} {final : SizeQueue}
    {actions : List SizeQueueAction}
    (hadds : EveryStep SizeQueue.step SizeQueue.AddsUnposted (SizeQueue.initial surfaces) actions)
    (hrun : runActions SizeQueue.step (SizeQueue.initial surfaces) actions = some final) :
    final.scheduled ≤ 1 ∧
    (final.scheduled = 0 → final.drain = none → final.posting = 0 →
      (∀ key, final.slots.lookup key = none) ∧
      ∀ key size shown, final.posted.lookup key = some size →
        final.surfaces.lookup key = some shown → shown = size) := by
  have hsound := (SizeQueue.isSound_initial surfaces).run hadds hrun
  refine ⟨hsound.scheduled_le, ?_⟩
  intro hscheduled hdrain hposting
  have hslots := hsound.slots_of_idle hscheduled hdrain hposting
  refine ⟨hslots, ?_⟩
  intro key size shown hposted hsurface
  exact hsound.shown key size shown hposted (hslots key) hsurface

/-- A Surface with the size that a new Surface has. -/
def oneSurface : SurfaceSizes := (∅ : SurfaceSizes).insert 5 ⟨360, 240⟩

/-- A size is posted again after the drain has applied the one before, so that the drain
schedules another. -/
def postedWhileApplied : List SizeQueueAction :=
  [.post 5 ⟨100, 80⟩, .ensureDrainScheduled, .callPost, .beginDrain, .drainStep,
    .collectKeys [5], .drainStep, .drainStep, .drainStep, .drainStep, .post 5 ⟨120, 90⟩,
    .drainStep, .drainStep, .ensureDrainScheduled, .drainStep, .beginDrain, .drainStep,
    .collectKeys [5], .drainStep, .drainStep, .drainStep, .drainStep, .drainStep, .drainStep]

theorem postedWhileApplied_isShown : ∃ final,
    runActions SizeQueue.step (SizeQueue.initial oneSurface) postedWhileApplied = some final ∧
      final.slots.lookup 5 = none ∧
      ∀ shown, final.surfaces.lookup 5 = some shown → shown = ⟨120, 90⟩ := by
  have hseen : (runActions SizeQueue.step (SizeQueue.initial oneSurface) postedWhileApplied).map
      (fun final => (final.scheduled, final.drain, final.posting, final.posted.lookup 5)) =
        some (0, none, 0, some ⟨120, 90⟩) := by
    decide +kernel
  obtain ⟨final, hrun, hfinal⟩ := Option.map_eq_some_iff.mp hseen
  obtain ⟨hscheduled, hfinal⟩ := Prod.mk.inj hfinal
  obtain ⟨hdrain, hfinal⟩ := Prod.mk.inj hfinal
  obtain ⟨hposting, hposted⟩ := Prod.mk.inj hfinal
  obtain ⟨-, hidle⟩ := presentationSizeQueue_keepsLastSize (by decide +kernel) hrun
  obtain ⟨hslots, hsizes⟩ := hidle hscheduled hdrain hposting
  exact ⟨final, hrun, hslots 5, fun shown hshown => hsizes 5 _ shown hposted hshown⟩

/-- Between the two sections of a `Post` there is a slot and no drain; and a size that was
posted for an id without a Surface is dropped, so that a Surface which is added later under
this id does not have it. -/
theorem sizes_canBeAwaited :
    (∃ final, runActions SizeQueue.step (SizeQueue.initial oneSurface) [.post 5 ⟨100, 80⟩] =
        some final ∧
      final.scheduled = 0 ∧ final.drain = none ∧ final.slots.lookup 5 = some ⟨100, 80⟩) ∧
    ∃ final, runActions SizeQueue.step (SizeQueue.initial ∅)
        [.post 5 ⟨100, 80⟩, .ensureDrainScheduled, .callPost, .beginDrain, .drainStep,
          .collectKeys [5], .drainStep, .drainStep, .drainStep, .drainStep,
          .addSurface 5 ⟨360, 240⟩] = some final ∧
      final.scheduled = 0 ∧ final.drain = none ∧ final.posting = 0 ∧
      final.posted.lookup 5 = some ⟨100, 80⟩ ∧ final.surfaces.lookup 5 = some ⟨360, 240⟩ := by
  constructor
  · exact ⟨_, rfl, rfl, rfl, rfl⟩
  · have hseen : (runActions SizeQueue.step (SizeQueue.initial ∅)
        [.post 5 ⟨100, 80⟩, .ensureDrainScheduled, .callPost, .beginDrain, .drainStep,
          .collectKeys [5], .drainStep, .drainStep, .drainStep, .drainStep,
          .addSurface 5 ⟨360, 240⟩]).map (fun final => (final.scheduled, final.drain,
            final.posting, final.posted.lookup 5, final.surfaces.lookup 5)) =
          some (0, none, 0, some ⟨100, 80⟩, some ⟨360, 240⟩) := by
      decide +kernel
    obtain ⟨final, hrun, hfinal⟩ := Option.map_eq_some_iff.mp hseen
    simp only [Prod.mk.injEq] at hfinal
    exact ⟨final, hrun, hfinal.1, hfinal.2.1, hfinal.2.2.1, hfinal.2.2.2.1, hfinal.2.2.2.2⟩

end AppTraverse
