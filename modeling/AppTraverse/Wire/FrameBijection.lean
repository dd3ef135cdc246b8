import AppTraverse.Wire.FrameCursor

/-!
# The frame codec is a bijection

`SyncFrame` shows that an encoded frame is read back.  Here is the other half: a
decoder accepts nothing but the encoding of the frame it returns.  Each reader is
inverted on its own, to the bytes it consumed, and a decoder is put together from
its readers.

Together they make the readable frames of each kind and the byte strings its
decoder accepts correspond one to one, with no byte string accepted as two kinds.
-/

namespace AppTraverse

open Foundations

section Readers

theorem eq_of_readU32 {input rest : Bytes} {value : UInt32}
    (h : readU32 input = some (value, rest)) : input = u32Bytes value ++ rest := by
  match input with
  | [] | [_] | [_, _] | [_, _, _] => cases h
  | a :: b :: c :: d :: tail =>
      cases h
      obtain ⟨ha, hb, hc, hd⟩ := bytes_of_u32 a b c d
      rw [u32Bytes, ha, hb, hc, hd]
      rfl

theorem eq_of_readObjId {input rest : Bytes} {id : ObjId}
    (h : readObjId input = some (id, rest)) :
    id.isValid = true ∧ input = u32Bytes id.id ++ rest := by
  obtain ⟨⟨raw, after⟩, hraw, h⟩ := Option.bind_eq_some_iff.mp h
  simp only at h
  split at h
  case isTrue hvalid =>
    cases h
    exact ⟨hvalid, eq_of_readU32 hraw⟩
  case isFalse => cases h

theorem eq_of_readU64 {input rest : Bytes} {value : UInt64}
    (h : readU64 input = some (value, rest)) :
    input = u32Bytes (value >>> 32).toUInt32 ++ (u32Bytes value.toUInt32 ++ rest) := by
  obtain ⟨⟨high, afterHigh⟩, hhigh, h⟩ := Option.bind_eq_some_iff.mp h
  obtain ⟨⟨low, afterLow⟩, hlow, h⟩ := Option.bind_eq_some_iff.mp h
  cases h
  obtain ⟨hfirst, hsecond⟩ := words_of_u64 high low
  rw [hfirst, hsecond, eq_of_readU32 hhigh, eq_of_readU32 hlow]

/-- A length that was read is the length of the bytes that follow it. -/
theorem u32Bytes_of_length {size : UInt32} {bytes : Bytes}
    (h : size.toNat = bytes.length) : u32Bytes (UInt32.ofNat bytes.length) = u32Bytes size := by
  rw [← h, UInt32.ofNat_toNat]

theorem eq_of_readBoundedBytes {input rest bytes : Bytes} {maxSize : UInt32}
    (h : readBoundedBytes input maxSize = some (bytes, rest)) :
    bytes ≠ [] ∧ bytes.length ≤ maxSize.toNat ∧
      input = u32Bytes (UInt32.ofNat bytes.length) ++ (bytes ++ rest) := by
  obtain ⟨⟨size, after⟩, hsize, h⟩ := Option.bind_eq_some_iff.mp h
  simp only at h
  split at h
  case isTrue => cases h
  case isFalse hbounds =>
    obtain ⟨hzero, hmax, hroom⟩ : size ≠ 0 ∧ ¬ maxSize < size ∧ ¬ after.length < size.toNat := by
      simpa only [not_or] using hbounds
    cases h
    have hlength : (after.take size.toNat).length = size.toNat := by
      rw [List.length_take]
      omega
    refine ⟨?_, ?_, ?_⟩
    · intro hempty
      rw [hempty] at hlength
      exact hzero (UInt32.toNat_inj.mp hlength.symm)
    · rw [hlength]
      exact UInt32.le_iff_toNat_le.mp (UInt32.not_lt.mp hmax)
    · rw [u32Bytes_of_length hlength.symm, List.take_append_drop]
      exact eq_of_readU32 hsize

theorem eq_of_readHeader {input rest : Bytes} {type : SyncFrameType}
    (h : readHeader input type = some rest) : input = header type ++ rest := by
  match input with
  | [] | [_] => cases h
  | first :: second :: tail =>
      simp only [readHeader] at h
      split at h
      case isTrue hmatch =>
        cases h
        rw [hmatch.1, hmatch.2]
        rfl
      case isFalse => cases h

end Readers

section Decoders

/-- `DecodeNodeStateFrame` accepts only the encoding of a readable frame. -/
theorem encode_of_decodeNodeStateFrame {bytes : Bytes} {frame : NodeStateFrame}
    (h : decodeNodeStateFrame bytes = some frame) :
    frame.isReadable = true ∧ encodeNodeStateFrame frame = bytes := by
  obtain ⟨afterHeader, hheader, h⟩ := Option.bind_eq_some_iff.mp h
  obtain ⟨⟨packetId, afterPacket⟩, hpacket, h⟩ := Option.bind_eq_some_iff.mp h
  obtain ⟨⟨targetNodeId, afterTarget⟩, htarget, h⟩ := Option.bind_eq_some_iff.mp h
  obtain ⟨⟨shareId, afterShare⟩, hshare, h⟩ := Option.bind_eq_some_iff.mp h
  obtain ⟨⟨payloadSize, payload⟩, hsize, h⟩ := Option.bind_eq_some_iff.mp h
  simp only at h
  split at h
  case isFalse => cases h
  case isTrue hlength =>
    cases h
    obtain ⟨hpacketValid, hpacketBytes⟩ := eq_of_readObjId hpacket
    obtain ⟨htargetValid, htargetBytes⟩ := eq_of_readObjId htarget
    obtain ⟨hshareValid, hshareBytes⟩ := eq_of_readObjId hshare
    have hfits : payload.length < 4294967296 := by
      rw [← hlength]
      exact payloadSize.toNat_lt
    constructor
    · simp [NodeStateFrame.isReadable, hpacketValid, htargetValid, hshareValid, hfits]
    · rw [eq_of_readHeader hheader, hpacketBytes, htargetBytes, hshareBytes,
        eq_of_readU32 hsize]
      simp [encodeNodeStateFrame, appendObjId, appendU32, u32Bytes_of_length hlength]

/-- `DecodeAckFrame` accepts only the encoding of a readable frame. -/
theorem encode_of_decodeAckFrame {bytes : Bytes} {frame : AckFrame}
    (h : decodeAckFrame bytes = some frame) :
    frame.isReadable = true ∧ encodeAckFrame frame = bytes := by
  obtain ⟨afterHeader, hheader, h⟩ := Option.bind_eq_some_iff.mp h
  obtain ⟨⟨packetId, afterPacket⟩, hpacket, h⟩ := Option.bind_eq_some_iff.mp h
  obtain ⟨⟨targetNodeId, afterTarget⟩, htarget, h⟩ := Option.bind_eq_some_iff.mp h
  obtain ⟨⟨shareId, afterShare⟩, hshare, h⟩ := Option.bind_eq_some_iff.mp h
  simp only at h
  split at h
  case isFalse => cases h
  case isTrue hend =>
    cases h
    obtain ⟨hpacketValid, hpacketBytes⟩ := eq_of_readObjId hpacket
    obtain ⟨htargetValid, htargetBytes⟩ := eq_of_readObjId htarget
    obtain ⟨hshareValid, hshareBytes⟩ := eq_of_readObjId hshare
    have hnone : afterShare = [] := List.isEmpty_iff.mp hend
    constructor
    · simp [AckFrame.isReadable, hpacketValid, htargetValid, hshareValid]
    · rw [eq_of_readHeader hheader, hpacketBytes, htargetBytes, hshareBytes, hnone]
      simp [encodeAckFrame, appendObjId, appendU32]

/-- `DecodeEventFrame` accepts only the encoding of a readable frame. -/
theorem encode_of_decodeEventFrame {derivesEvent : ClassId → Bool} {bytes : Bytes}
    {frame : EventFrame} (h : decodeEventFrame derivesEvent bytes = some frame) :
    frame.isReadable derivesEvent = true ∧ encodeEventFrame frame = bytes := by
  obtain ⟨afterHeader, hheader, h⟩ := Option.bind_eq_some_iff.mp h
  obtain ⟨⟨packetId, afterPacket⟩, hpacket, h⟩ := Option.bind_eq_some_iff.mp h
  obtain ⟨⟨targetNodeId, afterTarget⟩, htarget, h⟩ := Option.bind_eq_some_iff.mp h
  obtain ⟨⟨shareId, afterShare⟩, hshare, h⟩ := Option.bind_eq_some_iff.mp h
  obtain ⟨⟨originUid, afterOrigin⟩, horigin, h⟩ := Option.bind_eq_some_iff.mp h
  obtain ⟨⟨originSequence, afterSequence⟩, hsequence, h⟩ := Option.bind_eq_some_iff.mp h
  simp only at h
  split at h
  case isTrue => cases h
  case isFalse hsequenceSet =>
  obtain ⟨⟨timestampUs, afterTimestamp⟩, htimestamp, h⟩ := Option.bind_eq_some_iff.mp h
  simp only at h
  split at h
  case isTrue => cases h
  case isFalse htimestampSet =>
  obtain ⟨⟨eventClassId, afterClass⟩, hclass, h⟩ := Option.bind_eq_some_iff.mp h
  simp only at h
  split at h
  case isTrue => cases h
  case isFalse hclassKnown =>
  obtain ⟨⟨payloadSize, payload⟩, hsize, h⟩ := Option.bind_eq_some_iff.mp h
  simp only at h
  split at h
  case isFalse => cases h
  case isTrue hlength =>
    cases h
    obtain ⟨hpacketValid, hpacketBytes⟩ := eq_of_readObjId hpacket
    obtain ⟨htargetValid, htargetBytes⟩ := eq_of_readObjId htarget
    obtain ⟨hshareValid, hshareBytes⟩ := eq_of_readObjId hshare
    obtain ⟨horiginSet, horiginShort, horiginBytes⟩ := eq_of_readBoundedBytes horigin
    obtain ⟨hclassSet, hclassDerives⟩ :
        eventClassId ≠ 0 ∧ derivesEvent eventClassId = true := by
      simpa [not_or] using hclassKnown
    have hfits : payload.length < 4294967296 := by
      rw [← hlength]
      exact payloadSize.toNat_lt
    constructor
    · simp [EventFrame.isReadable, hpacketValid, htargetValid, hshareValid, horiginSet,
        horiginShort, hsequenceSet, htimestampSet, hclassSet, hclassDerives, hfits]
    · rw [eq_of_readHeader hheader, hpacketBytes, htargetBytes, hshareBytes, horiginBytes,
        eq_of_readU64 hsequence, eq_of_readU64 htimestamp, eq_of_readU32 hclass,
        eq_of_readU32 hsize]
      simp [encodeEventFrame, appendObjId, appendU32, appendU64,
        u32Bytes_of_length hlength]

end Decoders

section Codec

variable (derivesEvent : ClassId → Bool)

/-- The decoder of a kind accepts a byte string. -/
def AcceptedAs (bytes : Bytes) : SyncFrameType → Prop
  | .nodeState => ∃ frame, decodeNodeStateFrameAt bytes = .ok (some frame)
  | .ack => ∃ frame, decodeAckFrameAt bytes = .ok (some frame)
  | .event => ∃ frame, decodeEventFrameAt derivesEvent bytes = .ok (some frame)

/-- What a decoder accepts is reported as its kind. -/
theorem peek_of_acceptedAs {bytes : Bytes} {type : SyncFrameType}
    (h : AcceptedAs derivesEvent bytes type) : peekSyncFrameType bytes = some type := by
  cases type with
  | nodeState =>
      obtain ⟨frame, hframe⟩ := h
      rw [decodeNodeStateFrameAt_eq] at hframe
      rw [← (encode_of_decodeNodeStateFrame (Except.ok.inj hframe)).2]
      exact peekSyncFrameType_encodeNodeStateFrame frame
  | ack =>
      obtain ⟨frame, hframe⟩ := h
      rw [decodeAckFrameAt_eq] at hframe
      rw [← (encode_of_decodeAckFrame (Except.ok.inj hframe)).2]
      exact peekSyncFrameType_encodeAckFrame frame
  | event =>
      obtain ⟨frame, hframe⟩ := h
      rw [decodeEventFrameAt_eq] at hframe
      rw [← (encode_of_decodeEventFrame (Except.ok.inj hframe)).2]
      exact peekSyncFrameType_encodeEventFrame frame

/-- A readable Event frame has an origin uid that fits its length field. -/
theorem originUid_fits_of_isReadable {frame : EventFrame}
    (h : frame.isReadable derivesEvent = true) :
    frame.identity.originUid.length < 2 ^ 32 := by
  simp only [EventFrame.isReadable, Bool.and_eq_true, decide_eq_true_eq] at h
  have hshort : frame.identity.originUid.length ≤ kMaxOriginUidBytes.toNat := by tauto
  exact Nat.lt_of_le_of_lt hshort (by decide)

/-- The codec: every readable frame is read back, only encodings are accepted, no
byte string is accepted as two kinds, and no decoder reads past the end. -/
theorem frameCodec_isBijection :
    ((∀ frame : NodeStateFrame, frame.isReadable = true →
        decodeNodeStateFrameAt (encodeNodeStateFrame frame) = .ok (some frame)) ∧
      (∀ frame : AckFrame, frame.isReadable = true →
        decodeAckFrameAt (encodeAckFrame frame) = .ok (some frame)) ∧
      (∀ frame : EventFrame, frame.isReadable derivesEvent = true →
        decodeEventFrameAt derivesEvent (encodeEventFrame frame) = .ok (some frame))) ∧
    ((∀ bytes frame, decodeNodeStateFrameAt bytes = .ok (some frame) →
        encodeNodeStateFrame frame = bytes) ∧
      (∀ bytes frame, decodeAckFrameAt bytes = .ok (some frame) →
        encodeAckFrame frame = bytes) ∧
      (∀ bytes frame, decodeEventFrameAt derivesEvent bytes = .ok (some frame) →
        encodeEventFrame frame = bytes)) ∧
    (∀ bytes type, AcceptedAs derivesEvent bytes type →
      peekSyncFrameTypeAt bytes = .ok (some type) ∧
        ∀ other, AcceptedAs derivesEvent bytes other → other = type) ∧
    (∀ bytes, (∃ read, decodeNodeStateFrameAt bytes = .ok read) ∧
      (∃ read, decodeAckFrameAt bytes = .ok read) ∧
      (∃ read, decodeEventFrameAt derivesEvent bytes = .ok read) ∧
      (∃ read, peekSyncFrameTypeAt bytes = .ok read)) := by
  simp only [decodeNodeStateFrameAt_eq, decodeAckFrameAt_eq, decodeEventFrameAt_eq,
    peekSyncFrameTypeAt_eq, Except.ok.injEq]
  refine ⟨⟨?_, ?_, ?_⟩, ⟨?_, ?_, ?_⟩, ?_, ?_⟩
  · intro frame hreadable
    rw [decodeNodeStateFrame_encode, if_pos hreadable]
  · intro frame hreadable
    rw [decodeAckFrame_encode, if_pos hreadable]
  · intro frame hreadable
    rw [decodeEventFrame_encode derivesEvent
      (originUid_fits_of_isReadable derivesEvent hreadable), if_pos hreadable]
  · exact fun bytes frame h => (encode_of_decodeNodeStateFrame h).2
  · exact fun bytes frame h => (encode_of_decodeAckFrame h).2
  · exact fun bytes frame h => (encode_of_decodeEventFrame h).2
  · intro bytes type htype
    have hpeek := peek_of_acceptedAs derivesEvent htype
    refine ⟨hpeek, fun other hother => ?_⟩
    rw [peek_of_acceptedAs derivesEvent hother] at hpeek
    exact Option.some.inj hpeek
  · exact fun bytes => ⟨⟨_, rfl⟩, ⟨_, rfl⟩, ⟨_, rfl⟩, ⟨_, rfl⟩⟩

end Codec

end AppTraverse
