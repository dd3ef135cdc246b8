import AppTraverse.Foundations.TransitionSystem
import AppTraverse.Journal.AssertingNode

/-!
# The surfaces of the multi-window example

`Surfaces` is a Node with three lists of `Surface` objects: the live ones, the current page of a
mobile host, and the order of the desktop windows.  Its Events only move references.  A
`Surface` is referred to by its id, which is what the pointer comparisons of the source tell
apart within one Domain.  Of the fields of a `Surface` the model keeps its number: the bounds
and the presenters play no part here.
-/

namespace AppTraverse

open Foundations

/-- The fields of `Surfaces`.  The empty id is the empty pointer. -/
structure SurfacesFields where
  surfaces : List ObjId := []
  mobileCurrent : ObjId := ObjId.empty
  desktopZOrder : List ObjId := []
  deriving DecidableEq, Repr

/-- The Events of `Surfaces`. -/
inductive SurfacesEvent where
  | addSurface (surface : ObjId)
  | removeSurface (surface : ObjId)
  | setCurrentSurface (surface : ObjId)
  | setDesktopZOrder (ordered : List ObjId)
  deriving DecidableEq, Repr

namespace SurfacesFields

variable (fields : SurfacesFields)

/-- What `Surfaces::Apply(RemoveSurfaceEvent)` does to a live Surface. -/
def remove (surface : ObjId) : SurfacesFields where
  surfaces := fields.surfaces.erase surface
  mobileCurrent :=
    if fields.mobileCurrent.isValid && decide (fields.mobileCurrent = surface) then ObjId.empty
    else fields.mobileCurrent
  desktopZOrder := fields.desktopZOrder.filter fun entry => !decide (entry = surface)

/-- `Surfaces::Apply`, where its assertion holds. -/
def apply : SurfacesEvent → Option SurfacesFields
  | .addSurface surface => some { fields with
      surfaces := fields.surfaces ++ [surface]
      desktopZOrder := fields.desktopZOrder ++ [surface] }
  | .removeSurface surface =>
      if surface ∈ fields.surfaces then some (fields.remove surface) else none
  | .setCurrentSurface surface => some { fields with mobileCurrent := surface }
  | .setDesktopZOrder ordered => some { fields with desktopZOrder := ordered }

end SurfacesFields

/-- `Surfaces` as a Node class: no Event has a `CanApply`, and a `RemoveSurfaceEvent` asserts
that its Surface is live. -/
def surfacesClass : NodeClass SurfacesFields SurfacesFields SurfacesEvent where
  canApplyTo _ _ := true
  applyTo fields _ event :=
    match fields.apply event with
    | none => .error .assertFailed
    | some next => .ok next
  saveBase fields := fields
  loadBase _ snapshot := snapshot
  matchesSharedMetadata _ _ _ := true

/-- A `Surfaces` in memory. -/
abbrev SurfacesNode := Node SurfacesFields SurfacesFields SurfacesEvent

section Commands

/-- `SameSurfaceOrder`. -/
def sameSurfaceOrder (a b : List ObjId) : Bool := decide (a = b)

/-- `FindLiveSurfaceByObjId`. -/
def findLiveSurfaceByObjId (fields : SurfacesFields) (id : ObjId) : Option ObjId :=
  fields.surfaces.find? fun entry => decide (entry = id)

/-- The first loop of `SetDesktopZOrderFromObjIds`, over the listed ids. -/
def resolveListed (fields : SurfacesFields) : List UInt32 → List UInt32 → List ObjId
  | _, [] => []
  | seen, rawId :: rest =>
      if rawId ∈ seen then
        resolveListed fields seen rest
      else
        match findLiveSurfaceByObjId fields ⟨rawId⟩ with
        | none => resolveListed fields (rawId :: seen) rest
        | some surface => surface :: resolveListed fields (rawId :: seen) rest

/-- The second loop of `SetDesktopZOrderFromObjIds`, over the live Surfaces. -/
def appendRemaining (surfaces resolved : List ObjId) : List ObjId :=
  surfaces.foldl
    (fun resolved live => if live ∈ resolved then resolved else resolved ++ [live]) resolved

/-- The order that `SetDesktopZOrderFromObjIds` arrives at. -/
def resolveDesktopZOrder (fields : SurfacesFields) (orderedObjIds : List UInt32) : List ObjId :=
  appendRemaining fields.surfaces (resolveListed fields [] orderedObjIds)

/-- The number of a new Surface: one more than the greatest there is. -/
def nextSurfaceNumber (number : ObjId → UInt32) (surfaces : List ObjId) : UInt32 :=
  surfaces.foldl (fun next existing => if number existing ≥ next then number existing + 1
    else next) 1

end Commands

/-- A `Surfaces` Node, the numbers of the Surfaces, and whether the Domain has an
`Application`. -/
structure SurfacesModel where
  node : SurfacesNode
  number : ObjId → UInt32
  hasApplication : Bool

namespace SurfacesModel

variable (model : SurfacesModel)

def commit (creation : EventCreation) (event : SurfacesEvent) : Except Fault SurfacesModel := do
  let node ←
    AppTraverse.commit surfacesClass model.node ⟨creation.id, some event⟩ creation.clockUs
  pure { model with node := node }

/-- `Surface::AddSurface`: the Surface that `Create` made gets its number, and is added. -/
def addSurface (sibling : ObjId) (creation : EventCreation) : Except Fault SurfacesModel := do
  let nextNumber := nextSurfaceNumber model.number model.node.fields.surfaces
  let numbered := { model with
    number := fun surface => if surface = sibling then nextNumber else model.number surface }
  assertThat model.hasApplication
  numbered.commit creation (.addSurface sibling)

/-- `Surface::Remove`. -/
def remove (surface : ObjId) (creation : EventCreation) : Except Fault SurfacesModel :=
  if surface ∉ model.node.fields.surfaces then
    .ok model
  else
    model.commit creation (.removeSurface surface)

/-- `Surface::MakeCurrent`. -/
def makeCurrent (surface : ObjId) (creation : EventCreation) : Except Fault SurfacesModel :=
  if model.node.fields.mobileCurrent.isValid &&
      decide (model.node.fields.mobileCurrent = surface) then
    .ok model
  else if surface ∉ model.node.fields.surfaces then
    .ok model
  else
    model.commit creation (.setCurrentSurface surface)

/-- `Surfaces::SetDesktopZOrderFromObjIds`. -/
def setDesktopZOrderFromObjIds (orderedObjIds : List UInt32) (creation : EventCreation) :
    Except Fault SurfacesModel :=
  let resolved := resolveDesktopZOrder model.node.fields orderedObjIds
  if sameSurfaceOrder model.node.fields.desktopZOrder resolved then
    .ok model
  else
    model.commit creation (.setDesktopZOrder resolved)

end SurfacesModel

/-- A command on a Surface, live or not, and a command on their order. -/
inductive SurfacesCommand where
  | addSurface (sibling : ObjId)
  | remove (surface : ObjId)
  | makeCurrent (surface : ObjId)
  | setDesktopZOrderFromObjIds (orderedObjIds : List UInt32)
  deriving DecidableEq, Repr

/-- A command, or a call that replays the journal. -/
inductive SurfacesAction where
  | command (creation : EventCreation) (command : SurfacesCommand)
  | replayFromBase
  | compactJournal (nowUs : UInt64)

namespace SurfacesModel

variable (model : SurfacesModel)

def perform (creation : EventCreation) : SurfacesCommand → Except Fault SurfacesModel
  | .addSurface sibling => model.addSurface sibling creation
  | .remove surface => model.remove surface creation
  | .makeCurrent surface => model.makeCurrent surface creation
  | .setDesktopZOrderFromObjIds orderedObjIds =>
      model.setDesktopZOrderFromObjIds orderedObjIds creation

/-- An action that returns. -/
def step : SurfacesAction → Option SurfacesModel
  | .command creation command => (model.perform creation command).toOption
  | .replayFromBase =>
      (replayFromBase surfacesClass model.node).toOption.map fun node =>
        { model with node := node }
  | .compactJournal nowUs =>
      (compactJournal surfacesClass model.node nowUs).toOption.map fun node =>
        { model with node := node }

end SurfacesModel

end AppTraverse
