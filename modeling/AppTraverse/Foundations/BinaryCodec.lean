import Mathlib.Data.List.Basic

/-!
# Codecs over byte strings

A codec writes values as bytes and reads them back from the front of an input,
leaving what follows.  It carries the proof that reading returns what was
written, so codecs built with the combinators below are correct by construction.
-/

namespace AppTraverse
namespace Foundations

/-- The four bytes of a 32-bit value, most significant first, spell it. -/
theorem u32_of_bytes (value : UInt32) :
    ((value >>> 24).toUInt8.toUInt32 <<< 24) |||
      ((value >>> 16).toUInt8.toUInt32 <<< 16) |||
      ((value >>> 8).toUInt8.toUInt32 <<< 8) ||| value.toUInt8.toUInt32 = value := by
  apply UInt32.eq_of_toBitVec_eq
  apply BitVec.eq_of_getLsbD_eq
  intro i hi
  simp only [UInt32.toBitVec_or, UInt32.toBitVec_shiftLeft, UInt8.toBitVec_toUInt32,
    UInt32.toBitVec_toUInt8, UInt32.toBitVec_shiftRight, BitVec.getLsbD_or]
  simp only [BitVec.getLsbD_setWidth, UInt32.toBitVec_ofNat, BitVec.reduceMod,
    BitVec.shiftLeft_eq', BitVec.toNat_ofNat, BitVec.getLsbD_shiftLeft,
    BitVec.ushiftRight_eq', BitVec.getLsbD_ushiftRight, hi]
  -- The bit comes from exactly one of the four bytes.
  by_cases h24 : i < 24 <;> by_cases h16 : i < 16 <;> by_cases h8 : i < 8 <;> grind

/-- The two halves of a 64-bit value spell it. -/
theorem u64_of_words (value : UInt64) :
    ((value >>> 32).toUInt32.toUInt64 <<< 32) ||| value.toUInt32.toUInt64 = value := by
  apply UInt64.eq_of_toBitVec_eq
  apply BitVec.eq_of_getLsbD_eq
  intro i hi
  simp only [UInt64.toBitVec_or, UInt64.toBitVec_shiftLeft, UInt32.toBitVec_toUInt64,
    UInt64.toBitVec_toUInt32, UInt64.toBitVec_shiftRight, BitVec.getLsbD_or]
  simp [BitVec.getLsbD_setWidth, hi]
  grind

/-- Four bytes are the four bytes of the value they spell. -/
theorem bytes_of_u32 (a b c d : UInt8) :
    (((a.toUInt32 <<< 24) ||| (b.toUInt32 <<< 16) ||| (c.toUInt32 <<< 8) |||
        d.toUInt32) >>> 24).toUInt8 = a ∧
    (((a.toUInt32 <<< 24) ||| (b.toUInt32 <<< 16) ||| (c.toUInt32 <<< 8) |||
        d.toUInt32) >>> 16).toUInt8 = b ∧
    (((a.toUInt32 <<< 24) ||| (b.toUInt32 <<< 16) ||| (c.toUInt32 <<< 8) |||
        d.toUInt32) >>> 8).toUInt8 = c ∧
    ((a.toUInt32 <<< 24) ||| (b.toUInt32 <<< 16) ||| (c.toUInt32 <<< 8) |||
        d.toUInt32).toUInt8 = d := by
  refine ⟨?_, ?_, ?_, ?_⟩
  all_goals
    apply UInt8.eq_of_toBitVec_eq
    apply BitVec.eq_of_getLsbD_eq
    intro i hi
    simp only [UInt32.toBitVec_or, UInt32.toBitVec_shiftLeft, UInt8.toBitVec_toUInt32,
      UInt32.toBitVec_toUInt8, UInt32.toBitVec_shiftRight]
    simp [BitVec.getLsbD_setWidth, hi]
  -- A shift by 24, 16 or 8 leaves the bits of the bytes above it to be told apart.
  all_goals grind

/-- Two words are the two halves of the value they spell. -/
theorem words_of_u64 (high low : UInt32) :
    (((high.toUInt64 <<< 32) ||| low.toUInt64) >>> 32).toUInt32 = high ∧
    ((high.toUInt64 <<< 32) ||| low.toUInt64).toUInt32 = low := by
  constructor
  all_goals
    apply UInt32.eq_of_toBitVec_eq
    apply BitVec.eq_of_getLsbD_eq
    intro i hi
    simp only [UInt64.toBitVec_or, UInt64.toBitVec_shiftLeft, UInt32.toBitVec_toUInt64,
      UInt64.toBitVec_toUInt32, UInt64.toBitVec_shiftRight]
    simp [BitVec.getLsbD_setWidth, hi]
  all_goals grind

/-- The eight bytes of a 64-bit value, least significant first, spell it. -/
theorem u64_of_bytes (value : UInt64) :
    (value >>> 0).toUInt8.toUInt64 <<< 0 ||| (value >>> 8).toUInt8.toUInt64 <<< 8 |||
      (value >>> 16).toUInt8.toUInt64 <<< 16 ||| (value >>> 24).toUInt8.toUInt64 <<< 24 |||
      (value >>> 32).toUInt8.toUInt64 <<< 32 ||| (value >>> 40).toUInt8.toUInt64 <<< 40 |||
      (value >>> 48).toUInt8.toUInt64 <<< 48 ||| (value >>> 56).toUInt8.toUInt64 <<< 56 =
      value := by
  apply UInt64.eq_of_toBitVec_eq
  apply BitVec.eq_of_getLsbD_eq
  intro i hi
  simp only [UInt64.toBitVec_or, UInt64.toBitVec_shiftLeft, UInt8.toBitVec_toUInt64,
    UInt64.toBitVec_toUInt8, UInt64.toBitVec_shiftRight, BitVec.getLsbD_or]
  simp only [BitVec.getLsbD_setWidth, UInt64.toBitVec_ofNat, BitVec.reduceMod,
    BitVec.shiftLeft_eq', BitVec.toNat_ofNat, BitVec.getLsbD_shiftLeft,
    BitVec.ushiftRight_eq', BitVec.getLsbD_ushiftRight, hi]
  -- The bit comes from exactly one of the eight bytes.
  have hbyte : i / 8 = 0 ∨ i / 8 = 1 ∨ i / 8 = 2 ∨ i / 8 = 3 ∨ i / 8 = 4 ∨ i / 8 = 5 ∨
      i / 8 = 6 ∨ i / 8 = 7 := by omega
  rcases hbyte with h | h | h | h | h | h | h | h <;> grind

/-- A way to write the values of a type as bytes and to read them back. -/
structure Codec (β : Type) where
  encode : β → List UInt8
  decode : List UInt8 → Option (β × List UInt8)
  decode_encode : ∀ value rest, decode (encode value ++ rest) = some (value, rest)

namespace Codec

variable {β γ : Type}

/-- One byte. -/
def uint8 : Codec UInt8 where
  encode value := [value]
  decode
    | value :: rest => some (value, rest)
    | [] => none
  decode_encode _ _ := rfl

/-- Four bytes, most significant first. -/
def uint32 : Codec UInt32 where
  encode value := [(value >>> 24).toUInt8, (value >>> 16).toUInt8, (value >>> 8).toUInt8,
    value.toUInt8]
  decode
    | a :: b :: c :: d :: rest =>
        some ((a.toUInt32 <<< 24) ||| (b.toUInt32 <<< 16) ||| (c.toUInt32 <<< 8) |||
          d.toUInt32, rest)
    | _ => none
  decode_encode value rest := by
    simp only [List.cons_append, List.nil_append]
    rw [u32_of_bytes]

/-- One value after another. -/
def pair (first : Codec β) (second : Codec γ) : Codec (β × γ) where
  encode value := first.encode value.1 ++ second.encode value.2
  decode input := do
    let (a, rest) ← first.decode input
    let (b, rest) ← second.decode rest
    some ((a, b), rest)
  decode_encode value rest := by
    simp [first.decode_encode, second.decode_encode]

/-- Values of another type, written as values that spell them. -/
def restrict (codec : Codec β) (write : γ → β) (read : β → Option γ)
    (read_write : ∀ value, read (write value) = some value) : Codec γ where
  encode value := codec.encode (write value)
  decode input := do
    let (spelled, rest) ← codec.decode input
    let value ← read spelled
    some (value, rest)
  decode_encode value rest := by
    simp [codec.decode_encode, read_write]

/-- Values of another type, each of them spelled by one value. -/
def map (codec : Codec β) (write : γ → β) (read : β → γ)
    (read_write : ∀ value, read (write value) = value) : Codec γ :=
  codec.restrict write (fun spelled => some (read spelled)) fun value => by
    rw [read_write]

/-- One of two types, told apart by a tag. -/
def sum (first : Codec β) (second : Codec γ) : Codec (β ⊕ γ) where
  encode
    | .inl value => 0 :: first.encode value
    | .inr value => 1 :: second.encode value
  decode
    | [] => none
    | tag :: rest =>
        if tag = 0 then (first.decode rest).map fun read => (.inl read.1, read.2)
        else (second.decode rest).map fun read => (.inr read.1, read.2)
  decode_encode value rest := by
    cases value with
    | inl value => simp [first.decode_encode]
    | inr value => simp [second.decode_encode]

/-- No value at all. -/
def unit : Codec Unit where
  encode _ := []
  decode input := some ((), input)
  decode_encode _ _ := rfl

/-- A value or nothing. -/
def option (codec : Codec β) : Codec (Option β) :=
  (unit.sum codec).map
    (fun value => match value with
      | none => .inl ()
      | some value => .inr value)
    (fun spelled => match spelled with
      | .inl _ => none
      | .inr value => some value)
    fun value => by cases value <;> rfl

/-- A number, as that many ones and a zero. -/
def decodeCount : List UInt8 → Option (Nat × List UInt8)
  | [] => none
  | tag :: rest =>
      if tag = 0 then some (0, rest)
      else (decodeCount rest).map fun read => (read.1 + 1, read.2)

theorem decodeCount_replicate (count : Nat) (rest : List UInt8) :
    decodeCount (List.replicate count 1 ++ 0 :: rest) = some (count, rest) := by
  induction count with
  | zero => rfl
  | succ count ih =>
      rw [List.replicate_succ, List.cons_append, decodeCount, ih]
      simp

/-- A given number of values. -/
def decodeMany (codec : Codec β) : Nat → List UInt8 → Option (List β × List UInt8)
  | 0, input => some ([], input)
  | count + 1, input => do
      let (head, rest) ← codec.decode input
      let (tail, rest) ← decodeMany codec count rest
      some (head :: tail, rest)

theorem decodeMany_flatMap (codec : Codec β) (values : List β) (rest : List UInt8) :
    decodeMany codec values.length (values.flatMap codec.encode ++ rest) =
      some (values, rest) := by
  induction values with
  | nil => rfl
  | cons head tail ih =>
      rw [List.length_cons, List.flatMap_cons, List.append_assoc, decodeMany]
      simp [codec.decode_encode, ih]

/-- A list: its length and then its values. -/
def list (codec : Codec β) : Codec (List β) where
  encode values := List.replicate values.length 1 ++ 0 :: values.flatMap codec.encode
  decode input := do
    let (count, rest) ← decodeCount input
    decodeMany codec count rest
  decode_encode values rest := by
    rw [List.append_assoc, List.cons_append, decodeCount_replicate]
    exact decodeMany_flatMap codec values rest

/-- Eight bytes, most significant first. -/
def uint64 : Codec UInt64 :=
  (uint32.pair uint32).map
    (fun value => ((value >>> 32).toUInt32, value.toUInt32))
    (fun halves => (halves.1.toUInt64 <<< 32) ||| halves.2.toUInt64)
    u64_of_words

end Codec

end Foundations
end AppTraverse
