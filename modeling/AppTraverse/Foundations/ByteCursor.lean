import Mathlib.Data.List.Basic
import Mathlib.Tactic.Cases

/-!
# Readers that carry a position

Parsers of a byte vector come in two shapes.  One keeps the vector and a position
and indexes into it, and an index outside the vector is undefined behaviour.  The
other consumes a list and returns what is left.

A `Cursor` is of the first shape: an access outside the vector is a value of its
own, `ReadPastEnd`.  `Cursor.Refines` relates it to a reader of the second shape,
and says at once that no access is outside the vector.  The rules below build the
relation for a whole parser from its parts.
-/

namespace AppTraverse
namespace Foundations

/-- An access to a byte that the vector does not have. -/
inductive ReadPastEnd where
  | readPastEnd
  deriving DecidableEq, Repr

/-- A reader over a byte vector and a position.  It fails, or it returns a value
and the position after it. -/
abbrev Cursor (ρ : Type) := List UInt8 → Nat → Except ReadPastEnd (Option (ρ × Nat))

/-- A reader over the bytes that are left. -/
abbrev SuffixReader (ρ : Type) := List UInt8 → Option (ρ × List UInt8)

namespace Cursor

variable {ρ σ : Type}

/-- `in[pos]`. -/
def byteAt (bytes : List UInt8) (pos : Nat) : Except ReadPastEnd UInt8 :=
  match bytes[pos]? with
  | none => .error .readPastEnd
  | some value => .ok value

/-- The `size` bytes from `pos` on. -/
def bytesAt (bytes : List UInt8) (pos size : Nat) : Except ReadPastEnd (List UInt8) :=
  if pos + size ≤ bytes.length then
    .ok ((bytes.drop pos).take size)
  else
    .error .readPastEnd

/-- Read nothing. -/
def done (value : ρ) : Cursor ρ := fun _ pos => .ok (some (value, pos))

/-- Read, and go on from the position reached; `||` of the source. -/
def andThen (first : Cursor ρ) (next : ρ → Cursor σ) : Cursor σ := fun bytes pos =>
  match first bytes pos with
  | .error reason => .error reason
  | .ok none => .ok none
  | .ok (some (value, after)) => next value bytes after

/-- Go on only if the condition holds. -/
def onlyIf (condition : Bool) (next : Cursor ρ) : Cursor ρ := fun bytes pos =>
  if condition then next bytes pos else .ok none

/-- From a position within the vector, a cursor reads what the suffix reader reads
from the bytes that are left, and nothing outside. -/
def Refines (cursor : Cursor ρ) (reader : SuffixReader ρ) : Prop :=
  ∀ bytes pos, pos ≤ bytes.length →
    (cursor bytes pos = .ok none ∧ reader (bytes.drop pos) = none) ∨
    ∃ value after, after ≤ bytes.length ∧ cursor bytes pos = .ok (some (value, after)) ∧
      reader (bytes.drop pos) = some (value, bytes.drop after)

theorem refines_done (value : ρ) : Refines (done value) fun input => some (value, input) :=
  fun _ pos hpos => Or.inr ⟨value, pos, hpos, rfl, rfl⟩

/-- Reading one thing after another refines reading one thing after another. -/
theorem Refines.andThen {first : Cursor ρ} {next : ρ → Cursor σ}
    {reader : SuffixReader ρ} {readNext : ρ → SuffixReader σ}
    (hfirst : Refines first reader) (hnext : ∀ value, Refines (next value) (readNext value)) :
    Refines (first.andThen next) fun input =>
      (reader input).bind fun read => readNext read.1 read.2 := by
  intro bytes pos hpos
  rcases hfirst bytes pos hpos with ⟨hcursor, hreader⟩ | ⟨value, after, hafter, hcursor, hreader⟩
  · exact Or.inl ⟨by simp [Cursor.andThen, hcursor], by simp [hreader]⟩
  · rcases hnext value bytes after hafter with ⟨hcursor', hreader'⟩ |
      ⟨value', after', hafter', hcursor', hreader'⟩
    · exact Or.inl ⟨by simp [Cursor.andThen, hcursor, hcursor'],
        by simp [hreader, hreader']⟩
    · exact Or.inr ⟨value', after', hafter',
        by simp [Cursor.andThen, hcursor, hcursor'], by simp [hreader, hreader']⟩

theorem Refines.onlyIf {next : Cursor ρ} {reader : SuffixReader ρ} (condition : Bool)
    (hnext : Refines next reader) :
    Refines (Cursor.onlyIf condition next) fun input =>
      if condition then reader input else none := by
  intro bytes pos hpos
  cases condition with
  | false => exact Or.inl ⟨rfl, rfl⟩
  | true => exact hnext bytes pos hpos

/-- A read of a fixed number of bytes that are there is within the vector. -/
theorem byteAt_eq_ok {bytes : List UInt8} {pos : Nat} {value : UInt8} {rest : List UInt8}
    (h : bytes.drop pos = value :: rest) : byteAt bytes pos = .ok value := by
  have hget : bytes[pos]? = some value := by
    have hdrop := congrArg (fun l => l[0]?) h
    simpa using hdrop
  simp [byteAt, hget]

end Cursor

end Foundations
end AppTraverse
