import AppTraverse.Foundations.BinaryCodec
import AppTraverse.Foundations.ByteCursor
import AppTraverse.Journal.Identity

/-!
# The frames of an Aether stream

`aether_stream_frame.cpp` puts one payload into one frame: four magic bytes, a version, the
kind, the length of the payload in little-endian order, and the payload.  The decoder indexes
into the vector that it was given and writes to two output parameters.  Both are in the model:
a read outside the vector is `ReadPastEnd`, and the outputs are passed in and returned.
-/

namespace AppTraverse

open Foundations

/-- `AetherFrameKind`. -/
inductive AetherFrameKind where
  | application
  | heartbeatPing
  | heartbeatPong
  | control
  deriving DecidableEq, Repr

namespace AetherFrameKind

def raw : AetherFrameKind → UInt8
  | .application => 1
  | .heartbeatPing => 2
  | .heartbeatPong => 3
  | .control => 4

/-- The kind with this number, if there is one. -/
def ofRaw (raw : UInt8) : Option AetherFrameKind :=
  if raw = application.raw then some .application
  else if raw = heartbeatPing.raw then some .heartbeatPing
  else if raw = heartbeatPong.raw then some .heartbeatPong
  else if raw = control.raw then some .control
  else none

theorem ofRaw_eq_some_iff {number : UInt8} {kind : AetherFrameKind} :
    ofRaw number = some kind ↔ number = kind.raw := by
  constructor
  · intro h
    unfold ofRaw at h
    split at h
    case isTrue hraw => cases h; exact hraw
    case isFalse =>
    split at h
    case isTrue hraw => cases h; exact hraw
    case isFalse =>
    split at h
    case isTrue hraw => cases h; exact hraw
    case isFalse =>
    split at h
    case isTrue hraw => cases h; exact hraw
    case isFalse => cases h
  · rintro rfl
    cases kind <;> rfl

end AetherFrameKind

def kAetherStreamHeaderSize : Nat := 10

def kMaxApplicationPayloadSize : Nat := 16 * 1024 * 1024

def kHeartbeatPayloadSize : Nat := 8

def kMaxControlPayloadSize : Nat := 1024

/-- The size rule of a kind. -/
def AetherFrameKind.allowsSize (kind : AetherFrameKind) (size : Nat) : Bool :=
  match kind with
  | .application => decide (size ≤ kMaxApplicationPayloadSize)
  | .control => decide (size ≠ 0) && decide (size ≤ kMaxControlPayloadSize)
  | _ => decide (size = kHeartbeatPayloadSize)

/-- The output parameters of `DecodeAetherFrame`. -/
structure AetherFrame where
  kind : AetherFrameKind
  payload : Bytes
  deriving DecidableEq, Repr

/-- The four magic bytes, `ATRN`. -/
def kAetherStreamMagic : Bytes := [0x41, 0x54, 0x52, 0x4e]

/-- The version of the frame layout. -/
def kAetherStreamVersion : UInt8 := 1

/-- The length field. -/
def sizeBytes (size : UInt32) : Bytes :=
  [size.toUInt8, (size >>> 8).toUInt8, (size >>> 16).toUInt8, (size >>> 24).toUInt8]

/-- `EncodeAetherFrame`.  The cast of the length keeps its low 32 bits. -/
def encodeAetherFrame (kind : AetherFrameKind) (payload : Bytes) : Bytes :=
  kAetherStreamMagic ++ kAetherStreamVersion :: kind.raw ::
    (sizeBytes (UInt32.ofNat payload.length) ++ payload)

/-- The magic bytes are there, in a vector that has a header. -/
def readMagic (bytes : Bytes) : Except ReadPastEnd Bool := do
  let a ← Cursor.byteAt bytes 0
  let b ← Cursor.byteAt bytes 1
  let c ← Cursor.byteAt bytes 2
  let d ← Cursor.byteAt bytes 3
  pure (decide ([a, b, c, d] = kAetherStreamMagic))

/-- The length field of a vector that has a header. -/
def readSize (bytes : Bytes) : Except ReadPastEnd UInt32 := do
  let a ← Cursor.byteAt bytes 6
  let b ← Cursor.byteAt bytes 7
  let c ← Cursor.byteAt bytes 8
  let d ← Cursor.byteAt bytes 9
  pure (a.toUInt32 ||| (b.toUInt32 <<< 8) ||| (c.toUInt32 <<< 16) ||| (d.toUInt32 <<< 24))

/-- `DecodeAetherFrame`: the answer, and the output parameters after the call.  The sum of
the header size and a 32-bit length is a `size_t`. -/
def decodeAetherFrame (bytes : Bytes) (out : AetherFrame) :
    Except ReadPastEnd (Bool × AetherFrame) :=
  if bytes.length < kAetherStreamHeaderSize then
    .ok (false, out)
  else do
    if !(← readMagic bytes) then
      pure (false, out)
    else
      let version ← Cursor.byteAt bytes 4
      if version ≠ kAetherStreamVersion then
        pure (false, out)
      else
        let rawKind ← Cursor.byteAt bytes 5
        match AetherFrameKind.ofRaw rawKind with
        | none => pure (false, out)
        | some kind =>
            let payloadSize ← readSize bytes
            if bytes.length ≠ kAetherStreamHeaderSize + payloadSize.toNat then
              pure (false, out)
            else if !kind.allowsSize payloadSize.toNat then
              pure (false, out)
            else
              let payload ← Cursor.bytesAt bytes kAetherStreamHeaderSize
                (bytes.length - kAetherStreamHeaderSize)
              pure (true, ⟨kind, payload⟩)

/-- Little-endian and big-endian reads put the same bytes together. -/
theorem or_reverse (a b c d : UInt32) : a ||| b ||| c ||| d = d ||| c ||| b ||| a := by
  ac_rfl

/-- The length field is read as it was written. -/
theorem readSize_sizeBytes (size : UInt32) (head rest : Bytes) (hhead : head.length = 6) :
    readSize (head ++ (sizeBytes size ++ rest)) = .ok size := by
  have hbyte : ∀ i, Cursor.byteAt (head ++ (sizeBytes size ++ rest)) (6 + i) =
      Cursor.byteAt (sizeBytes size ++ rest) i := by
    intro i
    simp [Cursor.byteAt, List.getElem?_append_right, hhead]
  unfold readSize
  rw [hbyte 0, hbyte 1, hbyte 2, hbyte 3]
  show Except.ok _ = _
  congr 1
  rw [or_reverse]
  exact u32_of_bytes size

/-- The four bytes of a length field are those of the length that they spell. -/
theorem sizeBytes_of_bytes (a b c d : UInt8) :
    sizeBytes (a.toUInt32 ||| b.toUInt32 <<< 8 ||| c.toUInt32 <<< 16 ||| d.toUInt32 <<< 24) =
      [a, b, c, d] := by
  obtain ⟨hd, hc, hb, ha⟩ := bytes_of_u32 d c b a
  rw [or_reverse]
  simp only [sizeBytes, ha, hb, hc, hd]

/-- A vector with a header is ten bytes and the payload. -/
theorem exists_header {bytes : Bytes} (h : ¬bytes.length < kAetherStreamHeaderSize) :
    ∃ m₀ m₁ m₂ m₃ version kind a b c d payload,
      bytes = m₀ :: m₁ :: m₂ :: m₃ :: version :: kind :: a :: b :: c :: d :: payload := by
  match bytes with
  | m₀ :: m₁ :: m₂ :: m₃ :: version :: kind :: a :: b :: c :: d :: payload =>
      exact ⟨m₀, m₁, m₂, m₃, version, kind, a, b, c, d, payload, rfl⟩
  | [] | [_] | [_, _] | [_, _, _] | [_, _, _, _] | [_, _, _, _, _] | [_, _, _, _, _, _]
  | [_, _, _, _, _, _, _] | [_, _, _, _, _, _, _, _] | [_, _, _, _, _, _, _, _, _] =>
      simp [kAetherStreamHeaderSize] at h

/-- `EncodeHeartbeatNonce`. -/
def encodeHeartbeatNonce (nonce : UInt64) : Bytes :=
  (List.range kHeartbeatPayloadSize).map fun i =>
    ((nonce >>> UInt64.ofNat (i * 8)) &&& 0xff).toUInt8

/-- `DecodeHeartbeatNonce`. -/
def decodeHeartbeatNonce (payload : Bytes) : Except ReadPastEnd UInt64 :=
  if payload.length < kHeartbeatPayloadSize then
    .ok 0
  else
    (List.range kHeartbeatPayloadSize).foldlM (fun nonce i => do
      let byte ← Cursor.byteAt payload i
      pure (nonce ||| (byte.toUInt64 <<< UInt64.ofNat (i * 8)))) 0

theorem encodeAetherFrame_length (kind : AetherFrameKind) (payload : Bytes) :
    (encodeAetherFrame kind payload).length = kAetherStreamHeaderSize + payload.length := by
  simp [encodeAetherFrame, kAetherStreamMagic, sizeBytes, kAetherStreamHeaderSize]
  omega

/-- A payload within a size rule has a length of 32 bits. -/
theorem AetherFrameKind.lt_of_allowsSize {kind : AetherFrameKind} {size : Nat}
    (h : kind.allowsSize size = true) : size < 4294967296 := by
  cases kind with
  | application =>
      have hle : size ≤ 16777216 := of_decide_eq_true h
      omega
  | heartbeatPing =>
      have heq : size = 8 := of_decide_eq_true h
      omega
  | heartbeatPong =>
      have heq : size = 8 := of_decide_eq_true h
      omega
  | control =>
      have hle : size ≤ 1024 := of_decide_eq_true ((Bool.and_eq_true _ _).mp h).2
      omega

/-- A frame within the size rule of its kind is read as it was written. -/
theorem decodeAetherFrame_encodeAetherFrame {kind : AetherFrameKind} {payload : Bytes}
    (hsize : kind.allowsSize payload.length = true) (out : AetherFrame) :
    decodeAetherFrame (encodeAetherFrame kind payload) out = .ok (true, ⟨kind, payload⟩) := by
  have hlength := encodeAetherFrame_length kind payload
  have hheader : ¬(encodeAetherFrame kind payload).length < kAetherStreamHeaderSize := by
    omega
  have hsmall : (UInt32.ofNat payload.length).toNat = payload.length := by
    simpa using Nat.mod_eq_of_lt (AetherFrameKind.lt_of_allowsSize hsize)
  have hread : readSize (encodeAetherFrame kind payload) =
      .ok (UInt32.ofNat payload.length) :=
    readSize_sizeBytes _ (kAetherStreamMagic ++ [kAetherStreamVersion, kind.raw]) payload rfl
  have hpayload : Cursor.bytesAt (encodeAetherFrame kind payload) kAetherStreamHeaderSize
      payload.length = .ok payload := by
    unfold Cursor.bytesAt
    rw [if_pos (by omega)]
    show Except.ok (List.take payload.length payload) = _
    rw [List.take_length]
  have hmagic : readMagic (encodeAetherFrame kind payload) = .ok true := rfl
  have hversion : Cursor.byteAt (encodeAetherFrame kind payload) 4 =
      .ok kAetherStreamVersion := rfl
  have hraw : Cursor.byteAt (encodeAetherFrame kind payload) 5 = .ok kind.raw := rfl
  have hkind := AetherFrameKind.ofRaw_eq_some_iff.mpr (rfl : kind.raw = kind.raw)
  unfold decodeAetherFrame
  rw [if_neg hheader]
  simp [hmagic, hversion, hraw, hkind, hread, hlength, hsmall, hsize, hpayload, bind,
    Except.bind, pure, Except.pure]

/-- No read is outside the vector.  A rejection leaves the outputs, and what is accepted is
the encoding of what is returned. -/
theorem decodeAetherFrame_spec (bytes : Bytes) (out : AetherFrame) :
    ∃ accepted result, decodeAetherFrame bytes out = .ok (accepted, result) ∧
      (accepted = false → result = out) ∧
      (accepted = true → bytes = encodeAetherFrame result.kind result.payload ∧
        result.kind.allowsSize result.payload.length = true) := by
  have hrejected : ∀ {answer : Except ReadPastEnd (Bool × AetherFrame)},
      answer = .ok (false, out) →
      ∃ accepted result, answer = .ok (accepted, result) ∧
        (accepted = false → result = out) ∧
        (accepted = true → bytes = encodeAetherFrame result.kind result.payload ∧
          result.kind.allowsSize result.payload.length = true) :=
    fun h => ⟨false, out, h, fun _ => rfl, fun h => absurd h (by simp)⟩
  by_cases hheader : bytes.length < kAetherStreamHeaderSize
  · exact hrejected (if_pos hheader)
  obtain ⟨m₀, m₁, m₂, m₃, version, raw, a, b, c, d, payload, hsplit⟩ := exists_header hheader
  have hlength : bytes.length = kAetherStreamHeaderSize + payload.length := by
    simp [hsplit, kAetherStreamHeaderSize]
    omega
  -- The reads of the header are within the vector.
  have hmagic : readMagic bytes = .ok (decide ([m₀, m₁, m₂, m₃] = kAetherStreamMagic)) := by
    rw [hsplit]; rfl
  have hversion : Cursor.byteAt bytes 4 = .ok version := by rw [hsplit]; rfl
  have hraw : Cursor.byteAt bytes 5 = .ok raw := by rw [hsplit]; rfl
  obtain ⟨size, hsize, hbytes⟩ : ∃ size, readSize bytes = .ok size ∧
      sizeBytes size = [a, b, c, d] :=
    ⟨_, by rw [hsplit]; rfl, sizeBytes_of_bytes a b c d⟩
  have hpayload : Cursor.bytesAt bytes kAetherStreamHeaderSize payload.length =
      .ok payload := by
    unfold Cursor.bytesAt
    rw [if_pos (by omega), hsplit]
    show Except.ok (List.take payload.length payload) = _
    rw [List.take_length]
  unfold decodeAetherFrame
  rw [if_neg hheader]
  simp only [hmagic, hversion, hraw, hsize, hlength, Nat.add_sub_cancel_left, hpayload,
    bind, Except.bind, pure, Except.pure]
  split
  case isTrue => exact hrejected rfl
  case isFalse hm =>
  split
  case isTrue => exact hrejected rfl
  case isFalse hv =>
  split
  case h_1 => exact hrejected rfl
  case h_2 kind hk =>
  split
  case isTrue => exact hrejected rfl
  case isFalse hdeclared =>
  split
  case isTrue => exact hrejected rfl
  case isFalse hallowed =>
    apply Exists.intro true
    apply Exists.intro ⟨kind, payload⟩
    have hm : [m₀, m₁, m₂, m₃] = kAetherStreamMagic := by simpa using hm
    have hv : version = kAetherStreamVersion := by simpa using hv
    have hk : raw = kind.raw := AetherFrameKind.ofRaw_eq_some_iff.mp hk
    have hdeclared : payload.length = size.toNat := by simpa using hdeclared
    have hallowed : kind.allowsSize payload.length = true := by
      rw [hdeclared]
      simpa using hallowed
    refine ⟨rfl, by simp, fun _ => ⟨?_, hallowed⟩⟩
    show bytes = encodeAetherFrame kind payload
    have hcast : UInt32.ofNat payload.length = size := by
      rw [hdeclared, UInt32.ofNat_toNat]
    rw [hsplit]
    unfold encodeAetherFrame
    rw [hcast, hbytes, ← hm, hv, hk]
    rfl

/-- A nonce is read as it was written. -/
theorem decodeHeartbeatNonce_encodeHeartbeatNonce (nonce : UInt64) :
    decodeHeartbeatNonce (encodeHeartbeatNonce nonce) = .ok nonce := by
  have hmask : ∀ word : UInt64, (word &&& 0xff).toUInt8 = word.toUInt8 := by
    intro word
    rw [UInt64.toUInt8_and]
    show word.toUInt8 &&& 0xff = word.toUInt8
    exact UInt8.and_neg_one
  have hbytes : encodeHeartbeatNonce nonce =
      [(nonce >>> 0).toUInt8, (nonce >>> 8).toUInt8, (nonce >>> 16).toUInt8,
        (nonce >>> 24).toUInt8, (nonce >>> 32).toUInt8, (nonce >>> 40).toUInt8,
        (nonce >>> 48).toUInt8, (nonce >>> 56).toUInt8] := by
    unfold encodeHeartbeatNonce
    simp only [hmask]
    rfl
  rw [hbytes]
  have hspelled := u64_of_bytes nonce
  show Except.ok _ = _
  congr 1
  rw [UInt64.zero_or]
  exact hspelled

/-- The codec is canonical: what is written is read, and what is read was written. -/
theorem aetherFrame_isCanonical :
    (∀ kind payload out, AetherFrameKind.allowsSize kind payload.length = true →
      decodeAetherFrame (encodeAetherFrame kind payload) out =
        .ok (true, ⟨kind, payload⟩)) ∧
    (∀ bytes out, ∃ accepted result,
      decodeAetherFrame bytes out = .ok (accepted, result) ∧
      (accepted = false → result = out) ∧
      (accepted = true → bytes = encodeAetherFrame result.kind result.payload ∧
        result.kind.allowsSize result.payload.length = true)) ∧
    ∀ nonce, decodeHeartbeatNonce (encodeHeartbeatNonce nonce) = .ok nonce := by
  refine ⟨?_, decodeAetherFrame_spec, decodeHeartbeatNonce_encodeHeartbeatNonce⟩
  intro kind payload out hsize
  exact decodeAetherFrame_encodeAetherFrame hsize out

end AppTraverse
