import Mathlib.Algebra.Group.Nat.Defs
import Mathlib.Data.List.Basic

/-!
# Identities, references and faults

The small value types that every part of the model is written in: byte
strings, object ids, class ids, the identity and the order of a shared journal
entry, and a reference to another object.

An `ObjPtr` is modelled as a `Ref`: the stored `ObjId` together with the object
it was loaded to, if any.  An empty id is the empty reference, and a valid
reference whose object never arrived stays unloaded.
-/

namespace AppTraverse

/-- A C++ byte vector, and also a `std::string`, which holds bytes. -/
abbrev Bytes := List UInt8

/-- `ae::ObjId`: a 32-bit identity whose zero value is the empty id. -/
structure ObjId where
  id : UInt32
  deriving DecidableEq, Repr

namespace ObjId

/-- The empty id. -/
def empty : ObjId := ⟨0⟩

/-- `ObjId::is_valid`. -/
def isValid (id : ObjId) : Bool := decide (id ≠ empty)

@[simp] theorem isValid_empty : empty.isValid = false := rfl

theorem isValid_iff {id : ObjId} : id.isValid = true ↔ id ≠ empty := by
  simp [isValid]

theorem isValid_eq_false_iff {id : ObjId} : id.isValid = false ↔ id = empty := by
  simp [isValid]

end ObjId

/-- A serialized class id. -/
abbrev ClassId := UInt32

/-- Stable global identity for a shared journal Event across replicas. -/
structure SharedEventId where
  originUid : Bytes := []
  originSequence : UInt64 := 0
  deriving DecidableEq, Repr

/-- Position of a shared journal entry: a timestamp, and nothing else. -/
structure SharedEventOrder where
  timestampUs : UInt64 := 0
  deriving DecidableEq, Repr

/-- `SharedEventOrderLess`. -/
def sharedEventOrderLess (a b : SharedEventOrder) : Bool :=
  decide (a.timestampUs < b.timestampUs)

/-- Why a run of the program stops instead of returning: an `assert` failed, a
null reference was dereferenced, a reference was cast to a class its object does
not have, or the id generator never offered an acceptable id. -/
inductive Fault where
  | assertFailed
  | nullDeref
  | badCast
  | noUniqueId
  deriving DecidableEq, Repr

/-- `assert(condition)`. -/
def assertThat (condition : Bool) : Except Fault Unit :=
  if condition then .ok () else .error .assertFailed

@[simp] theorem assertThat_eq_ok_iff {condition : Bool} {u : Unit} :
    assertThat condition = .ok u ↔ condition = true := by
  cases condition <;> simp [assertThat]

/-- An object reference: the id it stores and the object it was loaded to. -/
structure Ref (τ : Type) where
  id : ObjId
  obj : Option τ
  deriving DecidableEq, Repr

namespace Ref

variable {τ : Type}

/-- The empty reference. -/
def empty : Ref τ := ⟨.empty, none⟩

/-- `ObjPtr::is_valid`. -/
def isValid (ref : Ref τ) : Bool := ref.id.isValid

/-- `ObjPtr::is_loaded`. -/
def isLoaded (ref : Ref τ) : Bool := ref.obj.isSome

/-- What a serialized reference keeps: only the id. -/
def unloaded (ref : Ref τ) : Ref τ := ⟨ref.id, none⟩

@[simp] theorem isValid_empty : (empty : Ref τ).isValid = false := rfl

@[simp] theorem unloaded_id (ref : Ref τ) : ref.unloaded.id = ref.id := rfl

theorem isLoaded_iff {ref : Ref τ} :
    ref.isLoaded = true ↔ ∃ value, ref.obj = some value := by
  simp [isLoaded, Option.isSome_iff_exists]

end Ref

end AppTraverse
