import Mathlib.Algebra.Group.Nat.Defs
import AppTraverse.Foundations.ByteCursor

/-!
# Sources that remember a failed read

A byte source keeps a vector, a position, and whether every read so far was within the
vector.  A read past the end yields zeros and marks the source, and from then on every
read yields zeros, so a parser may look at the mark once after several reads.

`Follows` relates such a parser to a reader of the bytes that are left.  It says that the
parser takes no byte outside the vector, that it leaves a mark exactly where the reader
fails, and that otherwise both read the same value and stop at the same place.
-/

namespace AppTraverse
namespace Foundations

/-- The number that bytes spell, least significant first. -/
def fromBytes : List UInt8 → Nat
  | [] => 0
  | byte :: rest => byte.toNat + 256 * fromBytes rest

/-- The low bytes of a number, least significant first. -/
def toBytes : Nat → Nat → List UInt8
  | 0, _ => []
  | width + 1, value => UInt8.ofNat value :: toBytes width (value / 256)

@[simp] theorem length_toBytes (width value : Nat) : (toBytes width value).length = width := by
  induction width generalizing value with
  | zero => rfl
  | succ width ih => rw [toBytes, List.length_cons, ih]

theorem fromBytes_toBytes (width value : Nat) :
    fromBytes (toBytes width value) = value % 256 ^ width := by
  induction width generalizing value with
  | zero => simp [toBytes, fromBytes, Nat.mod_one]
  | succ width ih =>
      have hbyte : (UInt8.ofNat value).toNat = value % 256 := by simp
      rw [toBytes, fromBytes, ih, hbyte, Nat.pow_succ', Nat.mod_mul]

/-- A reader of the bytes that are left, extended by bytes that it does not reach. -/
def Prefixed {ρ : Type} (reader : SuffixReader ρ) : Prop :=
  ∀ input value rest more, reader input = some (value, rest) →
    reader (input ++ more) = some (value, rest ++ more) ∧ rest.length ≤ input.length

namespace SuffixReader

variable {ρ σ : Type}

/-- A given number of bytes. -/
def take (size : Nat) : SuffixReader (List UInt8) := fun input =>
  if input.length < size then none else some (input.take size, input.drop size)

/-- One thing after another. -/
def andThen (first : SuffixReader ρ) (next : ρ → SuffixReader σ) : SuffixReader σ := fun input =>
  (first input).bind fun read => next read.1 read.2

/-- Nothing is read. -/
def done (value : ρ) : SuffixReader ρ := fun input => some (value, input)

/-- A given number of things. -/
def many (reader : SuffixReader ρ) : Nat → SuffixReader (List ρ)
  | 0 => done []
  | count + 1 => andThen reader fun head => andThen (many reader count) fun tail =>
      done (head :: tail)

theorem many_succ_none {reader : SuffixReader ρ} {input : List UInt8}
    (h : reader input = none) (count : Nat) : many reader (count + 1) input = none := by
  rw [many, andThen, h]
  rfl

theorem many_succ_some {reader : SuffixReader ρ} {input rest : List UInt8} {head : ρ}
    (h : reader input = some (head, rest)) (count : Nat) :
    many reader (count + 1) input =
      (many reader count rest).map fun read => (head :: read.1, read.2) := by
  rw [many, andThen, h, Option.bind_some, andThen]
  cases many reader count rest with
  | none => rfl
  | some read => rfl

theorem prefixed_take (size : Nat) : Prefixed (take size) := by
  intro input value rest more h
  rw [take] at h
  split at h
  case isTrue => cases h
  case isFalse hlong =>
    obtain ⟨rfl, rfl⟩ := Prod.mk.inj (Option.some.inj h)
    have hsize : size ≤ input.length := by omega
    constructor
    · rw [take, if_neg (by rw [List.length_append]; omega), List.take_append_of_le_length hsize,
        List.drop_append_of_le_length hsize]
    · rw [List.length_drop]
      omega

theorem prefixed_done (value : ρ) : Prefixed (done value) := by
  intro input value' rest more h
  obtain ⟨rfl, rfl⟩ := Prod.mk.inj (Option.some.inj h)
  exact ⟨rfl, Nat.le_refl _⟩

theorem prefixed_andThen {first : SuffixReader ρ} {next : ρ → SuffixReader σ}
    (hfirst : Prefixed first) (hnext : ∀ value, Prefixed (next value)) :
    Prefixed (andThen first next) := by
  intro input value rest more h
  obtain ⟨read, hread, h⟩ := Option.bind_eq_some_iff.mp h
  obtain ⟨hextended, hshorter⟩ := hfirst input read.1 read.2 more hread
  obtain ⟨hextended', hshorter'⟩ := hnext read.1 read.2 value rest more h
  constructor
  · rw [andThen, hextended, Option.bind_some, hextended']
  · omega

theorem prefixed_many {reader : SuffixReader ρ} (hreader : Prefixed reader) (count : Nat) :
    Prefixed (many reader count) := by
  induction count with
  | zero => exact prefixed_done []
  | succ count ih =>
      apply prefixed_andThen hreader
      intro head
      apply prefixed_andThen ih
      intro tail
      exact prefixed_done (head :: tail)

/-- What was written thing by thing is read thing by thing. -/
theorem many_flatMap {reader : SuffixReader ρ} {write : ρ → List UInt8} {values : List ρ}
    (hreads : ∀ value ∈ values, ∀ rest, reader (write value ++ rest) = some (value, rest))
    (rest : List UInt8) :
    many reader values.length (values.flatMap write ++ rest) = some (values, rest) := by
  induction values with
  | nil => rfl
  | cons head tail ih =>
      have hhead := hreads head (List.mem_cons_self ..) (tail.flatMap write ++ rest)
      have htail := ih fun value hvalue => hreads value (List.mem_cons_of_mem _ hvalue)
      rw [List.length_cons, List.flatMap_cons, List.append_assoc, many, andThen, hhead,
        Option.bind_some, andThen, htail, Option.bind_some]
      rfl

theorem length_of_many {reader : SuffixReader ρ} {count : Nat} {input : List UInt8}
    {values : List ρ} {rest : List UInt8} (h : many reader count input = some (values, rest)) :
    values.length = count := by
  induction count generalizing input values rest with
  | zero =>
      obtain ⟨rfl, rfl⟩ := Prod.mk.inj (Option.some.inj h)
      rfl
  | succ count ih =>
      obtain ⟨head, -, h⟩ := Option.bind_eq_some_iff.mp h
      obtain ⟨tail, htail, h⟩ := Option.bind_eq_some_iff.mp h
      obtain ⟨rfl, rfl⟩ := Prod.mk.inj (Option.some.inj h)
      rw [List.length_cons, ih htail]

/-- What holds of every value that a reader can read holds of all that it reads. -/
theorem forall_of_many {reader : SuffixReader ρ} {P : ρ → Prop}
    (hreader : ∀ input value rest, reader input = some (value, rest) → P value)
    {count : Nat} {input : List UInt8} {values : List ρ} {rest : List UInt8}
    (h : many reader count input = some (values, rest)) : ∀ value ∈ values, P value := by
  induction count generalizing input values rest with
  | zero =>
      obtain ⟨rfl, rfl⟩ := Prod.mk.inj (Option.some.inj h)
      simp
  | succ count ih =>
      obtain ⟨head, hhead, h⟩ := Option.bind_eq_some_iff.mp h
      obtain ⟨tail, htail, h⟩ := Option.bind_eq_some_iff.mp h
      obtain ⟨rfl, rfl⟩ := Prod.mk.inj (Option.some.inj h)
      intro value hvalue
      rcases List.mem_cons.mp hvalue with rfl | hvalue
      · exact hreader _ _ _ hhead
      · exact ih htail value hvalue

/-- What a reader reads to the end, it does not read without its end. -/
theorem none_of_torn {reader : SuffixReader ρ} (hreader : Prefixed reader)
    {whole torn missing : List UInt8} {value : ρ} (hwhole : reader whole = some (value, []))
    (hmissing : missing ≠ []) (hbytes : torn ++ missing = whole) : reader torn = none := by
  cases htorn : reader torn with
  | none => rfl
  | some read =>
      have hextended := (hreader torn read.1 read.2 missing htorn).1
      rw [hbytes, hwhole] at hextended
      have hrest : [] = read.2 ++ missing := congrArg Prod.snd (Option.some.inj hextended)
      exact absurd (List.append_eq_nil_iff.mp hrest.symm).2 hmissing

end SuffixReader

/-- A byte vector that is read from a position on.  `ok` says that no read was past the
end. -/
structure ByteSource where
  data : List UInt8
  pos : Nat := 0
  ok : Bool := true
  deriving DecidableEq, Repr

/-- A parser of a byte source. -/
abbrev SourceReader (ρ : Type) := StateT ByteSource (Except ReadPastEnd) ρ

namespace ByteSource

/-- Copy bytes out, or zeros and a mark when there are too few. -/
def read (size : Nat) : SourceReader (List UInt8) := fun source =>
  if !source.ok || decide (source.data.length < source.pos + size) then
    .ok (List.replicate size 0, { source with ok := false })
  else do
    let taken ← Cursor.bytesAt source.data source.pos size
    pure (taken, { source with pos := source.pos + size })

/-- A number of so many bytes. -/
def readNumber (width : Nat) : SourceReader Nat := do
  let taken ← read width
  pure (fromBytes taken)

end ByteSource

/-- The parser reads what the reader reads, within the vector, and leaves a mark where the
reader fails. -/
structure Follows {ρ : Type} (parser : SourceReader ρ) (reader : SuffixReader ρ) : Prop where
  sticky : ∀ source, source.ok = false →
    ∃ value after, parser source = .ok (value, after) ∧ after.ok = false
  reads : ∀ bytes pos, pos ≤ bytes.length →
    (reader (bytes.drop pos) = none ∧
      ∃ value after, parser ⟨bytes, pos, true⟩ = .ok (value, after) ∧ after.ok = false) ∨
    ∃ value after, after ≤ bytes.length ∧
      reader (bytes.drop pos) = some (value, bytes.drop after) ∧
      parser ⟨bytes, pos, true⟩ = .ok (value, ⟨bytes, after, true⟩)

namespace Follows

variable {ρ σ : Type}

theorem pure (value : ρ) : Follows (Pure.pure value) (SuffixReader.done value) where
  sticky source hsource := ⟨value, source, rfl, hsource⟩
  reads _ pos hpos := Or.inr ⟨value, pos, hpos, rfl, rfl⟩

theorem bind {parser : SourceReader ρ} {reader : SuffixReader ρ}
    {next : ρ → SourceReader σ} {readNext : ρ → SuffixReader σ}
    (hfirst : Follows parser reader) (hnext : ∀ value, Follows (next value) (readNext value)) :
    Follows (parser >>= next) (SuffixReader.andThen reader readNext) where
  sticky source hsource := by
    obtain ⟨value, after, hparser, hafter⟩ := hfirst.sticky source hsource
    obtain ⟨value', after', hparser', hafter'⟩ := (hnext value).sticky after hafter
    refine ⟨value', after', ?_, hafter'⟩
    show (parser source).bind (fun read => next read.1 read.2) = _
    rw [hparser]
    exact hparser'
  reads bytes pos hpos := by
    show (_ ∧ ∃ _ _, (parser _).bind (fun read => next read.1 read.2) = _ ∧ _) ∨
      ∃ _ _, _ ∧ _ ∧ (parser _).bind (fun read => next read.1 read.2) = _
    rcases hfirst.reads bytes pos hpos with ⟨hnone, value, after, hparser, hmark⟩ |
      ⟨value, after, hafter, hsome, hparser⟩
    · obtain ⟨value', after', hparser', hmark'⟩ := (hnext value).sticky after hmark
      refine Or.inl ⟨by rw [SuffixReader.andThen, hnone]; rfl, value', after', ?_, hmark'⟩
      rw [hparser]
      exact hparser'
    · rw [SuffixReader.andThen, hsome, Option.bind_some, hparser]
      exact (hnext value).reads bytes after hafter

end Follows

theorem follows_read (size : Nat) : Follows (ByteSource.read size) (SuffixReader.take size) where
  sticky source hsource := by
    refine ⟨List.replicate size 0, { source with ok := false }, ?_, rfl⟩
    rw [ByteSource.read, hsource]
    rfl
  reads bytes pos hpos := by
    have hlength : (bytes.drop pos).length = bytes.length - pos := List.length_drop
    by_cases hshort : bytes.length < pos + size
    · refine Or.inl ⟨if_pos (by omega), List.replicate size 0, ⟨bytes, pos, false⟩, ?_, rfl⟩
      rw [ByteSource.read]
      simp [hshort]
    · refine Or.inr ⟨(bytes.drop pos).take size, pos + size, by omega, ?_, ?_⟩
      · rw [SuffixReader.take, if_neg (by omega), List.drop_drop]
      · rw [ByteSource.read]
        simp only [Bool.not_true, Bool.false_or, decide_eq_true_eq, if_neg hshort]
        rw [Cursor.bytesAt, if_pos (by omega)]
        rfl

/-- A number of so many bytes, from the bytes that are left. -/
def SuffixReader.number (width : Nat) : SuffixReader Nat :=
  SuffixReader.andThen (SuffixReader.take width) fun taken => SuffixReader.done (fromBytes taken)

theorem follows_readNumber (width : Nat) :
    Follows (ByteSource.readNumber width) (SuffixReader.number width) :=
  (follows_read width).bind fun taken => Follows.pure (fromBytes taken)

theorem SuffixReader.prefixed_number (width : Nat) : Prefixed (SuffixReader.number width) :=
  SuffixReader.prefixed_andThen (SuffixReader.prefixed_take width) fun taken =>
    SuffixReader.prefixed_done (fromBytes taken)

theorem SuffixReader.number_toBytes (width value : Nat) (rest : List UInt8) :
    SuffixReader.number width (toBytes width value ++ rest) =
      some (value % 256 ^ width, rest) := by
  have hlength := length_toBytes width value
  rw [SuffixReader.number, SuffixReader.andThen, SuffixReader.take,
    if_neg (by rw [List.length_append]; omega), Option.bind_some,
    List.take_left' hlength, List.drop_left' hlength, SuffixReader.done,
    fromBytes_toBytes]

end Foundations
end AppTraverse
