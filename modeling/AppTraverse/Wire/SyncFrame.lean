import AppTraverse.Foundations.BinaryCodec
import AppTraverse.Journal.Identity

/-!
# Frames of the synchronization protocol

`sync_frame.cpp`: protocol v1 carries a NodeState, an Ack or a standalone Event
in one frame.  A reader is a function from the unread bytes to a value and the
bytes after it, so a read position is the suffix that is left.

A frame the encoder wrote decodes to itself or to nothing: a length that does
not fit its 32-bit field makes the frame unreadable, never a different frame.
The one exception is an origin uid of 2^32 bytes or more, whose truncated length
moves every later field.
-/

namespace AppTraverse

open Foundations

/-- `kSyncProtocolVersion`. -/
def kSyncProtocolVersion : UInt8 := 1

/-- `kMaxOriginUidBytes`. -/
def kMaxOriginUidBytes : UInt32 := 256

/-- `SyncFrameType`. -/
inductive SyncFrameType where
  | nodeState
  | ack
  | event
  deriving DecidableEq, Repr

/-- The byte of a frame type. -/
def SyncFrameType.raw : SyncFrameType → UInt8
  | .nodeState => 1
  | .ack => 2
  | .event => 3

/-- Initial state of one SharedNode for one Share relationship. -/
structure NodeStateFrame where
  packetId : ObjId
  targetNodeId : ObjId
  destinationShareId : ObjId
  payload : Bytes
  deriving DecidableEq, Repr

/-- `AckFrame`. -/
structure AckFrame where
  packetId : ObjId
  targetNodeId : ObjId
  destinationShareId : ObjId
  deriving DecidableEq, Repr

/-- Incremental standalone Event for one already-synchronized SharedNode. -/
structure EventFrame where
  packetId : ObjId
  targetNodeId : ObjId
  destinationShareId : ObjId
  identity : SharedEventId
  timestampUs : UInt64
  eventClassId : ClassId
  payload : Bytes
  deriving DecidableEq, Repr

section Integers

/-- The big-endian bytes that `AppendU32` pushes. -/
def u32Bytes (value : UInt32) : Bytes :=
  [(value >>> 24).toUInt8, (value >>> 16).toUInt8, (value >>> 8).toUInt8,
    value.toUInt8]

/-- `AppendU32`. -/
def appendU32 (out : Bytes) (value : UInt32) : Bytes := out ++ u32Bytes value

/-- `AppendObjId`. -/
def appendObjId (out : Bytes) (id : ObjId) : Bytes := appendU32 out id.id

/-- `AppendU64`. -/
def appendU64 (out : Bytes) (value : UInt64) : Bytes :=
  appendU32 (appendU32 out (value >>> 32).toUInt32) value.toUInt32

/-- `ReadU32`. -/
def readU32 : Bytes → Option (UInt32 × Bytes)
  | a :: b :: c :: d :: rest =>
      some ((a.toUInt32 <<< 24) ||| (b.toUInt32 <<< 16) ||| (c.toUInt32 <<< 8) |||
        d.toUInt32, rest)
  | _ => none

/-- `ReadObjId`: the zero id is never legal on the wire. -/
def readObjId (input : Bytes) : Option (ObjId × Bytes) := do
  let (raw, rest) ← readU32 input
  let id : ObjId := ⟨raw⟩
  if id.isValid then some (id, rest) else none

/-- `ReadU64`. -/
def readU64 (input : Bytes) : Option (UInt64 × Bytes) := do
  let (hi, rest) ← readU32 input
  let (lo, rest) ← readU32 rest
  some ((hi.toUInt64 <<< 32) ||| lo.toUInt64, rest)

/-- `ReadBoundedBytes`. -/
def readBoundedBytes (input : Bytes) (maxSize : UInt32) : Option (Bytes × Bytes) := do
  let (size, rest) ← readU32 input
  if size = 0 ∨ maxSize < size ∨ rest.length < size.toNat then
    none
  else
    some (rest.take size.toNat, rest.drop size.toNat)

@[simp] theorem readU32_u32Bytes (value : UInt32) (rest : Bytes) :
    readU32 (u32Bytes value ++ rest) = some (value, rest) := by
  simp only [u32Bytes, List.cons_append, List.nil_append, readU32]
  rw [u32_of_bytes]

theorem readObjId_u32Bytes (id : ObjId) (rest : Bytes) :
    readObjId (u32Bytes id.id ++ rest) =
      if id.isValid then some (id, rest) else none := by
  simp [readObjId]

theorem readU64_u32Bytes (value : UInt64) (rest : Bytes) :
    readU64 (u32Bytes (value >>> 32).toUInt32 ++ (u32Bytes value.toUInt32 ++ rest)) =
      some (value, rest) := by
  simp only [readU64, readU32_u32Bytes, Option.bind_eq_bind, Option.bind_some]
  rw [u64_of_words]

/-- A byte string whose length fits its field is read back, within the bound. -/
theorem readBoundedBytes_u32Bytes {bytes : Bytes} (maxSize : UInt32) (rest : Bytes)
    (hlength : bytes.length < 2 ^ 32) :
    readBoundedBytes (u32Bytes (UInt32.ofNat bytes.length) ++ (bytes ++ rest)) maxSize =
      if bytes = [] ∨ maxSize.toNat < bytes.length then none
      else some (bytes, rest) := by
  have hsize : (UInt32.ofNat bytes.length).toNat = bytes.length := by
    rw [UInt32.toNat_ofNat']
    omega
  have hzero : UInt32.ofNat bytes.length = 0 ↔ bytes = [] := by
    rw [← UInt32.toNat_inj, hsize]
    simp
  have hbound : maxSize < UInt32.ofNat bytes.length ↔ maxSize.toNat < bytes.length := by
    rw [UInt32.lt_iff_toNat_lt, hsize]
  have hroom : ¬ (bytes ++ rest).length < bytes.length := by
    rw [List.length_append]
    omega
  simp only [readBoundedBytes, readU32_u32Bytes, Option.bind_eq_bind, Option.bind_some,
    hsize, hzero, hbound, hroom, or_false, List.take_left, List.drop_left]

end Integers

section Frames

/-- `AppendHeader` on an empty frame. -/
def header (type : SyncFrameType) : Bytes := [type.raw, kSyncProtocolVersion]

/-- `ReadHeader`. -/
def readHeader (input : Bytes) (expected : SyncFrameType) : Option Bytes :=
  match input with
  | type :: version :: rest =>
      if type = expected.raw ∧ version = kSyncProtocolVersion then some rest else none
  | _ => none

/-- `PeekSyncFrameType`. -/
def peekSyncFrameType : Bytes → Option SyncFrameType
  | type :: version :: _ =>
      if version ≠ kSyncProtocolVersion then none
      else if type = SyncFrameType.nodeState.raw then some .nodeState
      else if type = SyncFrameType.ack.raw then some .ack
      else if type = SyncFrameType.event.raw then some .event
      else none
  | _ => none

/-- `EncodeNodeStateFrame`. -/
def encodeNodeStateFrame (frame : NodeStateFrame) : Bytes :=
  let out := header .nodeState
  let out := appendObjId out frame.packetId
  let out := appendObjId out frame.targetNodeId
  let out := appendObjId out frame.destinationShareId
  let out := appendU32 out (UInt32.ofNat frame.payload.length)
  out ++ frame.payload

/-- `DecodeNodeStateFrame`: the declared payload is the rest of the frame. -/
def decodeNodeStateFrame (bytes : Bytes) : Option NodeStateFrame := do
  let rest ← readHeader bytes .nodeState
  let (packetId, rest) ← readObjId rest
  let (targetNodeId, rest) ← readObjId rest
  let (destinationShareId, rest) ← readObjId rest
  let (payloadSize, rest) ← readU32 rest
  if payloadSize.toNat = rest.length then
    some ⟨packetId, targetNodeId, destinationShareId, rest⟩
  else
    none

/-- `EncodeAckFrame`. -/
def encodeAckFrame (frame : AckFrame) : Bytes :=
  let out := header .ack
  let out := appendObjId out frame.packetId
  let out := appendObjId out frame.targetNodeId
  appendObjId out frame.destinationShareId

/-- `DecodeAckFrame`. -/
def decodeAckFrame (bytes : Bytes) : Option AckFrame := do
  let rest ← readHeader bytes .ack
  let (packetId, rest) ← readObjId rest
  let (targetNodeId, rest) ← readObjId rest
  let (destinationShareId, rest) ← readObjId rest
  if rest.isEmpty then some ⟨packetId, targetNodeId, destinationShareId⟩ else none

/-- `EncodeEventFrame`. -/
def encodeEventFrame (frame : EventFrame) : Bytes :=
  let out := header .event
  let out := appendObjId out frame.packetId
  let out := appendObjId out frame.targetNodeId
  let out := appendObjId out frame.destinationShareId
  let out := appendU32 out (UInt32.ofNat frame.identity.originUid.length)
  let out := out ++ frame.identity.originUid
  let out := appendU64 out frame.identity.originSequence
  let out := appendU64 out frame.timestampUs
  let out := appendU32 out frame.eventClassId
  let out := appendU32 out (UInt32.ofNat frame.payload.length)
  out ++ frame.payload

/-- `DecodeEventFrame`.  `derivesEvent` is the registry's answer to
`GenerationDistance(Event::kClassId, class) >= 0`. -/
def decodeEventFrame (derivesEvent : ClassId → Bool) (bytes : Bytes) :
    Option EventFrame := do
  let rest ← readHeader bytes .event
  let (packetId, rest) ← readObjId rest
  let (targetNodeId, rest) ← readObjId rest
  let (destinationShareId, rest) ← readObjId rest
  let (originUid, rest) ← readBoundedBytes rest kMaxOriginUidBytes
  let (originSequence, rest) ← readU64 rest
  if originSequence = 0 then none else
  let (timestampUs, rest) ← readU64 rest
  if timestampUs = 0 then none else
  let (eventClassId, rest) ← readU32 rest
  if eventClassId = 0 ∨ derivesEvent eventClassId = false then none else
  let (payloadSize, rest) ← readU32 rest
  if payloadSize.toNat = rest.length then
    some ⟨packetId, targetNodeId, destinationShareId, ⟨originUid, originSequence⟩,
      timestampUs, eventClassId, rest⟩
  else
    none

/-- A NodeState frame whose ids are non-zero and whose payload length fits. -/
def NodeStateFrame.isReadable (frame : NodeStateFrame) : Bool :=
  frame.packetId.isValid && frame.targetNodeId.isValid &&
    frame.destinationShareId.isValid && decide (frame.payload.length < 2 ^ 32)

/-- The three ids of an Ack are non-zero. -/
def AckFrame.isReadable (frame : AckFrame) : Bool :=
  frame.packetId.isValid && frame.targetNodeId.isValid &&
    frame.destinationShareId.isValid

/-- What `DecodeEventFrame` asks of an Event frame. -/
def EventFrame.isReadable (derivesEvent : ClassId → Bool) (frame : EventFrame) : Bool :=
  frame.packetId.isValid && frame.targetNodeId.isValid &&
    frame.destinationShareId.isValid &&
    !frame.identity.originUid.isEmpty &&
    decide (frame.identity.originUid.length ≤ kMaxOriginUidBytes.toNat) &&
    decide (frame.identity.originSequence ≠ 0) &&
    decide (frame.timestampUs ≠ 0) &&
    decide (frame.eventClassId ≠ 0) && derivesEvent frame.eventClassId &&
    decide (frame.payload.length < 2 ^ 32)

@[simp] theorem readHeader_header (type : SyncFrameType) (rest : Bytes) :
    readHeader (header type ++ rest) type = some rest := by
  simp [readHeader, header]

@[simp] theorem peekSyncFrameType_header (type : SyncFrameType) (rest : Bytes) :
    peekSyncFrameType (header type ++ rest) = some type := by
  cases type <;> simp [peekSyncFrameType, header, SyncFrameType.raw]

theorem peekSyncFrameType_encodeNodeStateFrame (frame : NodeStateFrame) :
    peekSyncFrameType (encodeNodeStateFrame frame) = some .nodeState := by
  simp [encodeNodeStateFrame, appendObjId, appendU32]

theorem peekSyncFrameType_encodeAckFrame (frame : AckFrame) :
    peekSyncFrameType (encodeAckFrame frame) = some .ack := by
  simp [encodeAckFrame, appendObjId, appendU32]

theorem peekSyncFrameType_encodeEventFrame (frame : EventFrame) :
    peekSyncFrameType (encodeEventFrame frame) = some .event := by
  simp [encodeEventFrame, appendObjId, appendU32, appendU64]

/-- An encoded NodeState frame decodes to itself or to nothing. -/
theorem decodeNodeStateFrame_encode (frame : NodeStateFrame) :
    decodeNodeStateFrame (encodeNodeStateFrame frame) =
      if frame.isReadable then some frame else none := by
  simp only [decodeNodeStateFrame, encodeNodeStateFrame, appendObjId, appendU32,
    List.append_assoc, readHeader_header, readObjId_u32Bytes, Option.bind_eq_bind,
    Option.bind_some, NodeStateFrame.isReadable]
  by_cases hpacket : frame.packetId.isValid = true
  case neg => simp [hpacket]
  by_cases htarget : frame.targetNodeId.isValid = true
  case neg => simp [hpacket, htarget, readObjId_u32Bytes]
  by_cases hshare : frame.destinationShareId.isValid = true
  case neg => simp [hpacket, htarget, hshare, readObjId_u32Bytes]
  simp [hpacket, htarget, hshare, readObjId_u32Bytes]

/-- An encoded Ack frame decodes to itself or to nothing. -/
theorem decodeAckFrame_encode (frame : AckFrame) :
    decodeAckFrame (encodeAckFrame frame) =
      if frame.isReadable then some frame else none := by
  have hlast : readObjId (u32Bytes frame.destinationShareId.id) =
      if frame.destinationShareId.isValid then some (frame.destinationShareId, [])
      else none := by
    have hread := readObjId_u32Bytes frame.destinationShareId []
    rwa [List.append_nil] at hread
  simp only [decodeAckFrame, encodeAckFrame, appendObjId, appendU32,
    List.append_assoc, readHeader_header, readObjId_u32Bytes, Option.bind_eq_bind,
    Option.bind_some, AckFrame.isReadable]
  by_cases hpacket : frame.packetId.isValid = true
  case neg => simp [hpacket]
  by_cases htarget : frame.targetNodeId.isValid = true
  case neg => simp [hpacket, htarget, readObjId_u32Bytes]
  by_cases hshare : frame.destinationShareId.isValid = true
  case neg => simp [hpacket, htarget, hshare, hlast, readObjId_u32Bytes]
  simp [hpacket, htarget, hshare, hlast, readObjId_u32Bytes]

/-- An encoded Event frame decodes to itself or to nothing, unless its origin
uid is too long for its length field. -/
theorem decodeEventFrame_encode (derivesEvent : ClassId → Bool) {frame : EventFrame}
    (huid : frame.identity.originUid.length < 2 ^ 32) :
    decodeEventFrame derivesEvent (encodeEventFrame frame) =
      if frame.isReadable derivesEvent then some frame else none := by
  simp only [decodeEventFrame, encodeEventFrame, appendObjId, appendU32, appendU64,
    List.append_assoc, readHeader_header, readObjId_u32Bytes, Option.bind_eq_bind,
    Option.bind_some, EventFrame.isReadable]
  by_cases hpacket : frame.packetId.isValid = true
  case neg => simp [hpacket]
  by_cases htarget : frame.targetNodeId.isValid = true
  case neg => simp [hpacket, htarget, readObjId_u32Bytes]
  by_cases hshare : frame.destinationShareId.isValid = true
  case neg => simp [hpacket, htarget, hshare, readObjId_u32Bytes]
  simp only [hpacket, htarget, hshare, if_true, Option.bind_some, readObjId_u32Bytes,
    readBoundedBytes_u32Bytes _ _ huid]
  by_cases hempty : frame.identity.originUid = []
  case pos => simp [hempty]
  by_cases hlong : kMaxOriginUidBytes.toNat < frame.identity.originUid.length
  case pos => simp [hlong, Nat.not_le.mpr hlong]
  simp only [hempty, hlong, or_self, if_false, Option.bind_some, readU64_u32Bytes]
  by_cases hsequence : frame.identity.originSequence = 0
  case pos => simp [hsequence]
  by_cases htimestamp : frame.timestampUs = 0
  case pos => simp [htimestamp]
  by_cases hclass : frame.eventClassId = 0
  case pos => simp [hclass]
  by_cases hderives : derivesEvent frame.eventClassId = true
  case neg => simp [hderives]
  have hshort : frame.identity.originUid.length ≤ kMaxOriginUidBytes.toNat :=
    Nat.not_lt.mp hlong
  simp [hsequence, htimestamp, hclass, hderives, hempty, hshort]

end Frames

end AppTraverse
