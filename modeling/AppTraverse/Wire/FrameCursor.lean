import AppTraverse.Foundations.ByteCursor
import AppTraverse.Wire.SyncFrame

/-!
# The decoders over positions

`sync_frame.cpp` reads a frame by indexing into the received vector.  Its readers
are written here as the source has them, over a position; each refines the reader
of the same name over the unread bytes, so no decoder reads past the end.

A position is a `size_t`.  It never exceeds the length of a vector, and adding a
32-bit length to it does not wrap.
-/

namespace AppTraverse

open Foundations

section Readers

/-- `ReadU32`. -/
def readU32At : Cursor UInt32 := fun bytes pos =>
  if bytes.length < pos + 4 then
    .ok none
  else do
    let a ← Cursor.byteAt bytes pos
    let b ← Cursor.byteAt bytes (pos + 1)
    let c ← Cursor.byteAt bytes (pos + 2)
    let d ← Cursor.byteAt bytes (pos + 3)
    pure (some ((a.toUInt32 <<< 24) ||| (b.toUInt32 <<< 16) ||| (c.toUInt32 <<< 8) |||
      d.toUInt32, pos + 4))

/-- `ReadObjId`. -/
def readObjIdAt : Cursor ObjId :=
  readU32At.andThen fun raw => Cursor.onlyIf (ObjId.isValid ⟨raw⟩) (Cursor.done ⟨raw⟩)

/-- `ReadU64`. -/
def readU64At : Cursor UInt64 :=
  readU32At.andThen fun high => readU32At.andThen fun low =>
    Cursor.done ((high.toUInt64 <<< 32) ||| low.toUInt64)

/-- The bytes that a length read before announces, if the vector has them. -/
def takeBytesAt (size : Nat) : Cursor Bytes := fun bytes pos =>
  if bytes.length < pos + size then
    .ok none
  else do
    let taken ← Cursor.bytesAt bytes pos size
    pure (some (taken, pos + size))

/-- `ReadBoundedBytes`. -/
def readBoundedBytesAt (maxSize : UInt32) : Cursor Bytes :=
  readU32At.andThen fun size =>
    Cursor.onlyIf (decide (size ≠ 0) && decide (size ≤ maxSize)) (takeBytesAt size.toNat)

/-- `ReadHeader`, which always starts at the first byte. -/
def readHeaderAt (expected : SyncFrameType) : Cursor Unit := fun bytes _ =>
  if bytes.length < 2 then
    .ok none
  else do
    let type ← Cursor.byteAt bytes 0
    if type ≠ expected.raw then
      pure none
    else
      let version ← Cursor.byteAt bytes 1
      if version ≠ kSyncProtocolVersion then pure none else pure (some ((), 2))

/-- The end of a decoder: the declared payload is the rest of the frame. -/
def readPayloadAt (size : UInt32) : Cursor Bytes := fun bytes pos =>
  if pos + size.toNat ≠ bytes.length then
    .ok none
  else do
    let payload ← Cursor.bytesAt bytes pos size.toNat
    pure (some (payload, pos + size.toNat))

/-- The end of `DecodeAckFrame`: nothing is left. -/
def endOfFrameAt : Cursor Unit := fun bytes pos =>
  if pos ≠ bytes.length then .ok none else .ok (some ((), pos))

end Readers

section Decoders

/-- `PeekSyncFrameType`. -/
def peekSyncFrameTypeAt (bytes : Bytes) : Except ReadPastEnd (Option SyncFrameType) :=
  if bytes.length < 2 then
    .ok none
  else do
    let version ← Cursor.byteAt bytes 1
    if version ≠ kSyncProtocolVersion then
      pure none
    else
      let type ← Cursor.byteAt bytes 0
      if type = SyncFrameType.nodeState.raw then pure (some .nodeState)
      else if type = SyncFrameType.ack.raw then pure (some .ack)
      else if type = SyncFrameType.event.raw then pure (some .event)
      else pure none

/-- What a decoder returns: the value, without the position. -/
def decodedBy {ρ : Type} (cursor : Cursor ρ) (bytes : Bytes) :
    Except ReadPastEnd (Option ρ) := do
  let read ← cursor bytes 0
  pure (read.map Prod.fst)

/-- The reads of `DecodeNodeStateFrame`. -/
def nodeStateFrameAt : Cursor NodeStateFrame :=
  (readHeaderAt .nodeState).andThen fun _ =>
  readObjIdAt.andThen fun packetId =>
  readObjIdAt.andThen fun targetNodeId =>
  readObjIdAt.andThen fun destinationShareId =>
  readU32At.andThen fun payloadSize =>
  (readPayloadAt payloadSize).andThen fun payload =>
  Cursor.done ⟨packetId, targetNodeId, destinationShareId, payload⟩

/-- `DecodeNodeStateFrame`. -/
def decodeNodeStateFrameAt : Bytes → Except ReadPastEnd (Option NodeStateFrame) :=
  decodedBy nodeStateFrameAt

/-- The reads of `DecodeAckFrame`. -/
def ackFrameAt : Cursor AckFrame :=
  (readHeaderAt .ack).andThen fun _ =>
  readObjIdAt.andThen fun packetId =>
  readObjIdAt.andThen fun targetNodeId =>
  readObjIdAt.andThen fun destinationShareId =>
  endOfFrameAt.andThen fun _ =>
  Cursor.done ⟨packetId, targetNodeId, destinationShareId⟩

/-- `DecodeAckFrame`. -/
def decodeAckFrameAt : Bytes → Except ReadPastEnd (Option AckFrame) :=
  decodedBy ackFrameAt

/-- The reads of `DecodeEventFrame`. -/
def eventFrameAt (derivesEvent : ClassId → Bool) : Cursor EventFrame :=
  (readHeaderAt .event).andThen fun _ =>
  readObjIdAt.andThen fun packetId =>
  readObjIdAt.andThen fun targetNodeId =>
  readObjIdAt.andThen fun destinationShareId =>
  (readBoundedBytesAt kMaxOriginUidBytes).andThen fun originUid =>
  readU64At.andThen fun originSequence =>
  Cursor.onlyIf (decide (originSequence ≠ 0)) <|
  readU64At.andThen fun timestampUs =>
  Cursor.onlyIf (decide (timestampUs ≠ 0)) <|
  readU32At.andThen fun eventClassId =>
  Cursor.onlyIf (decide (eventClassId ≠ 0) && derivesEvent eventClassId) <|
  readU32At.andThen fun payloadSize =>
  (readPayloadAt payloadSize).andThen fun payload =>
  Cursor.done ⟨packetId, targetNodeId, destinationShareId, ⟨originUid, originSequence⟩,
    timestampUs, eventClassId, payload⟩

/-- `DecodeEventFrame`. -/
def decodeEventFrameAt (derivesEvent : ClassId → Bool) :
    Bytes → Except ReadPastEnd (Option EventFrame) :=
  decodedBy (eventFrameAt derivesEvent)

end Decoders

section Refinement

/-- Four bytes that are there can be read one by one. -/
theorem refines_readU32At : Cursor.Refines readU32At readU32 := by
  intro bytes pos hpos
  by_cases hshort : bytes.length < pos + 4
  · left
    refine ⟨if_pos hshort, ?_⟩
    have hlength : (bytes.drop pos).length < 4 := by
      rw [List.length_drop]
      omega
    rcases hdrop : bytes.drop pos with _ | ⟨_, _ | ⟨_, _ | ⟨_, _ | ⟨_, _⟩⟩⟩⟩
    · rfl
    · rfl
    · rfl
    · rfl
    · rw [hdrop] at hlength
      simp only [List.length_cons] at hlength
      omega
  · right
    have hlength : 4 ≤ (bytes.drop pos).length := by
      rw [List.length_drop]
      omega
    rcases hdrop : bytes.drop pos with _ | ⟨a, _ | ⟨b, _ | ⟨c, _ | ⟨d, rest⟩⟩⟩⟩
    · simp [hdrop] at hlength
    · simp [hdrop] at hlength
    · simp [hdrop] at hlength
    · simp [hdrop] at hlength
    · have hone : bytes.drop (pos + 1) = b :: c :: d :: rest := by
        rw [← List.drop_drop, hdrop]
        rfl
      have htwo : bytes.drop (pos + 2) = c :: d :: rest := by
        rw [← List.drop_drop, hdrop]
        rfl
      have hthree : bytes.drop (pos + 3) = d :: rest := by
        rw [← List.drop_drop, hdrop]
        rfl
      have hfour : bytes.drop (pos + 4) = rest := by
        rw [← List.drop_drop, hdrop]
        rfl
      refine ⟨_, pos + 4, by omega, ?_, by rw [hfour]; rfl⟩
      rw [readU32At, if_neg hshort, Cursor.byteAt_eq_ok hdrop, Cursor.byteAt_eq_ok hone,
        Cursor.byteAt_eq_ok htwo, Cursor.byteAt_eq_ok hthree]
      rfl

theorem refines_readObjIdAt : Cursor.Refines readObjIdAt readObjId :=
  Cursor.Refines.andThen refines_readU32At fun raw =>
    (Cursor.refines_done (⟨raw⟩ : ObjId)).onlyIf (ObjId.isValid ⟨raw⟩)

theorem refines_readU64At : Cursor.Refines readU64At readU64 :=
  Cursor.Refines.andThen refines_readU32At fun high =>
  Cursor.Refines.andThen refines_readU32At fun low =>
    Cursor.refines_done ((high.toUInt64 <<< 32) ||| low.toUInt64)

theorem refines_takeBytesAt (size : Nat) :
    Cursor.Refines (takeBytesAt size) fun input =>
      if input.length < size then none else some (input.take size, input.drop size) := by
  intro bytes pos hpos
  have hlength : (bytes.drop pos).length = bytes.length - pos := List.length_drop
  by_cases hshort : bytes.length < pos + size
  · left
    refine ⟨if_pos hshort, if_pos ?_⟩
    omega
  · right
    refine ⟨(bytes.drop pos).take size, pos + size, by omega, ?_, ?_⟩
    · rw [takeBytesAt, if_neg hshort, Cursor.bytesAt, if_pos (by omega)]
      rfl
    · show (if (bytes.drop pos).length < size then none
        else some ((bytes.drop pos).take size, (bytes.drop pos).drop size)) = _
      rw [if_neg (by omega), List.drop_drop]

theorem refines_readBoundedBytesAt (maxSize : UInt32) :
    Cursor.Refines (readBoundedBytesAt maxSize) fun input =>
      readBoundedBytes input maxSize := by
  have hparts := Cursor.Refines.andThen refines_readU32At fun size =>
    (refines_takeBytesAt size.toNat).onlyIf (decide (size ≠ 0) && decide (size ≤ maxSize))
  have hsame : (fun input : Bytes => readBoundedBytes input maxSize) = fun input =>
      (readU32 input).bind fun read =>
        if (decide (read.1 ≠ 0) && decide (read.1 ≤ maxSize)) = true then
          if read.2.length < read.1.toNat then none
          else some (read.2.take read.1.toNat, read.2.drop read.1.toNat)
        else none := by
    funext input
    rw [readBoundedBytes]
    cases hread : readU32 input with
    | none => rfl
    | some read =>
        obtain ⟨size, rest⟩ := read
        show (if size = 0 ∨ maxSize < size ∨ rest.length < size.toNat then none
          else some (rest.take size.toNat, rest.drop size.toNat)) = _
        by_cases hzero : size = 0
        · simp [hzero]
        · by_cases hlong : maxSize < size
          · simp [hlong, UInt32.not_le.mpr hlong]
          · simp [hzero, hlong, UInt32.not_lt.mp hlong]
  rw [hsame]
  exact hparts

theorem refines_readPayloadAt (size : UInt32) :
    Cursor.Refines (readPayloadAt size) fun input =>
      if size.toNat = input.length then some (input, []) else none := by
  intro bytes pos hpos
  have hlength : (bytes.drop pos).length = bytes.length - pos := List.length_drop
  by_cases hexact : pos + size.toNat = bytes.length
  · right
    refine ⟨bytes.drop pos, pos + size.toNat, by omega, ?_, ?_⟩
    · rw [readPayloadAt, if_neg (by omega), Cursor.bytesAt, if_pos (by omega),
        List.take_of_length_le (by omega)]
      rfl
    · show (if size.toNat = (bytes.drop pos).length then some (bytes.drop pos, [])
        else none) = _
      rw [if_pos (by omega), hexact, List.drop_length]
  · left
    exact ⟨if_pos hexact, if_neg (by omega)⟩

theorem refines_endOfFrameAt :
    Cursor.Refines endOfFrameAt fun input =>
      if input.isEmpty then some ((), input) else none := by
  intro bytes pos hpos
  by_cases hend : pos = bytes.length
  · right
    refine ⟨(), pos, hpos, if_neg (by omega), ?_⟩
    rw [hend, List.drop_length]
    rfl
  · left
    refine ⟨if_pos hend, if_neg ?_⟩
    rw [List.isEmpty_iff, List.drop_eq_nil_iff]
    omega

/-- A decoder reads the header and then what is left. -/
theorem decodedBy_readHeaderAt {ρ : Type} {body : Cursor ρ} {reader : SuffixReader ρ}
    (hbody : body.Refines reader) (type : SyncFrameType) (bytes : Bytes) :
    decodedBy ((readHeaderAt type).andThen fun _ => body) bytes =
      .ok (((readHeader bytes type).bind reader).map Prod.fst) := by
  match bytes with
  | [] => rfl
  | [_] => rfl
  | first :: second :: rest =>
      have hlength : ¬ (first :: second :: rest).length < 2 := by simp
      by_cases htype : first = type.raw
      case neg =>
        simp [decodedBy, Cursor.andThen, readHeaderAt, Cursor.byteAt, readHeader, htype,
          bind, Except.bind, pure, Except.pure]
      by_cases hversion : second = kSyncProtocolVersion
      case neg =>
        simp [decodedBy, Cursor.andThen, readHeaderAt, Cursor.byteAt, readHeader, htype,
          hversion, bind, Except.bind, pure, Except.pure]
      have hheader : readHeaderAt type (first :: second :: rest) 0 = .ok (some ((), 2)) := by
        simp [readHeaderAt, Cursor.byteAt, htype, hversion, bind, Except.bind, pure,
          Except.pure]
      have hreader : readHeader (first :: second :: rest) type = some rest := by
        simp [readHeader, htype, hversion]
      rw [hreader]
      rcases hbody (first :: second :: rest) 2 (by simp) with ⟨hcursor, hrest⟩ |
        ⟨value, after, -, hcursor, hrest⟩
      · have hnone : reader rest = none := hrest
        simp [decodedBy, Cursor.andThen, hheader, hcursor, hnone, bind, Except.bind, pure,
          Except.pure]
      · have hsome : reader rest = some (value, (first :: second :: rest).drop after) := hrest
        simp [decodedBy, Cursor.andThen, hheader, hcursor, hsome, bind, Except.bind, pure,
          Except.pure]

/-- `DecodeNodeStateFrame` stays within the vector and reads what the decoder over
unread bytes reads. -/
theorem decodeNodeStateFrameAt_eq (bytes : Bytes) :
    decodeNodeStateFrameAt bytes = .ok (decodeNodeStateFrame bytes) := by
  have hbody := Cursor.Refines.andThen refines_readObjIdAt fun packetId =>
    Cursor.Refines.andThen refines_readObjIdAt fun targetNodeId =>
    Cursor.Refines.andThen refines_readObjIdAt fun destinationShareId =>
    Cursor.Refines.andThen refines_readU32At fun payloadSize =>
    Cursor.Refines.andThen (refines_readPayloadAt payloadSize) fun payload =>
    Cursor.refines_done
      (⟨packetId, targetNodeId, destinationShareId, payload⟩ : NodeStateFrame)
  refine (decodedBy_readHeaderAt hbody .nodeState bytes).trans (congrArg Except.ok ?_)
  simp only [decodeNodeStateFrame, Option.bind_eq_bind, Option.map_bind, Function.comp_def]
  refine Option.bind_congr fun input _ => ?_
  refine Option.bind_congr fun packet _ => ?_
  refine Option.bind_congr fun target _ => ?_
  refine Option.bind_congr fun share _ => ?_
  refine Option.bind_congr fun size _ => ?_
  by_cases hsize : size.1.toNat = size.2.length <;> simp [hsize]

theorem decodeAckFrameAt_eq (bytes : Bytes) :
    decodeAckFrameAt bytes = .ok (decodeAckFrame bytes) := by
  have hbody := Cursor.Refines.andThen refines_readObjIdAt fun packetId =>
    Cursor.Refines.andThen refines_readObjIdAt fun targetNodeId =>
    Cursor.Refines.andThen refines_readObjIdAt fun destinationShareId =>
    Cursor.Refines.andThen refines_endOfFrameAt fun _ =>
    Cursor.refines_done (⟨packetId, targetNodeId, destinationShareId⟩ : AckFrame)
  refine (decodedBy_readHeaderAt hbody .ack bytes).trans (congrArg Except.ok ?_)
  simp only [decodeAckFrame, Option.bind_eq_bind, Option.map_bind, Function.comp_def]
  refine Option.bind_congr fun input _ => ?_
  refine Option.bind_congr fun packet _ => ?_
  refine Option.bind_congr fun target _ => ?_
  refine Option.bind_congr fun share _ => ?_
  by_cases hend : share.2.isEmpty <;> simp [hend]

theorem decodeEventFrameAt_eq (derivesEvent : ClassId → Bool) (bytes : Bytes) :
    decodeEventFrameAt derivesEvent bytes = .ok (decodeEventFrame derivesEvent bytes) := by
  have hbody := Cursor.Refines.andThen refines_readObjIdAt fun packetId =>
    Cursor.Refines.andThen refines_readObjIdAt fun targetNodeId =>
    Cursor.Refines.andThen refines_readObjIdAt fun destinationShareId =>
    Cursor.Refines.andThen (refines_readBoundedBytesAt kMaxOriginUidBytes) fun originUid =>
    Cursor.Refines.andThen refines_readU64At fun originSequence =>
    Cursor.Refines.onlyIf (decide (originSequence ≠ 0)) <|
    Cursor.Refines.andThen refines_readU64At fun timestampUs =>
    Cursor.Refines.onlyIf (decide (timestampUs ≠ 0)) <|
    Cursor.Refines.andThen refines_readU32At fun eventClassId =>
    Cursor.Refines.onlyIf (decide (eventClassId ≠ 0) && derivesEvent eventClassId) <|
    Cursor.Refines.andThen refines_readU32At fun payloadSize =>
    Cursor.Refines.andThen (refines_readPayloadAt payloadSize) fun payload =>
    Cursor.refines_done (⟨packetId, targetNodeId, destinationShareId,
      ⟨originUid, originSequence⟩, timestampUs, eventClassId, payload⟩ : EventFrame)
  refine (decodedBy_readHeaderAt hbody .event bytes).trans (congrArg Except.ok ?_)
  simp only [decodeEventFrame, Option.bind_eq_bind, Option.map_bind, Function.comp_def]
  refine Option.bind_congr fun input _ => ?_
  refine Option.bind_congr fun packet _ => ?_
  refine Option.bind_congr fun target _ => ?_
  refine Option.bind_congr fun share _ => ?_
  refine Option.bind_congr fun origin _ => ?_
  refine Option.bind_congr fun sequence _ => ?_
  by_cases hsequence : sequence.1 = 0
  case pos => simp [hsequence]
  simp only [hsequence, ne_eq, not_false_eq_true, decide_true, if_true, if_false,
    Option.map_bind, Function.comp_def]
  refine Option.bind_congr fun timestamp _ => ?_
  by_cases htimestamp : timestamp.1 = 0
  case pos => simp [htimestamp]
  simp only [htimestamp, not_false_eq_true, decide_true, if_true, if_false,
    Option.map_bind, Function.comp_def]
  refine Option.bind_congr fun eventClass _ => ?_
  by_cases hzero : eventClass.1 = 0
  case pos => simp [hzero]
  cases hderives : derivesEvent eventClass.1 with
  | false => simp
  | true =>
      simp only [hzero, not_false_eq_true, decide_true, Bool.and_self,
        if_true, Bool.true_eq_false, or_self, if_false, Option.map_bind, Function.comp_def]
      refine Option.bind_congr fun size _ => ?_
      by_cases hsize : size.1.toNat = size.2.length <;> simp [hsize]

theorem peekSyncFrameTypeAt_eq (bytes : Bytes) :
    peekSyncFrameTypeAt bytes = .ok (peekSyncFrameType bytes) := by
  match bytes with
  | [] => rfl
  | [_] => rfl
  | type :: version :: rest =>
      have hversionAt : Cursor.byteAt (type :: version :: rest) 1 = .ok version := rfl
      have htypeAt : Cursor.byteAt (type :: version :: rest) 0 = .ok type := rfl
      have hlength : ¬ (type :: version :: rest).length < 2 := by simp
      rw [peekSyncFrameTypeAt, if_neg hlength, hversionAt, htypeAt, peekSyncFrameType]
      show (if version ≠ kSyncProtocolVersion then Except.ok none else _) = _
      by_cases hversion : version = kSyncProtocolVersion
      case neg => rw [if_pos hversion, if_pos hversion]
      rw [if_neg (not_not_intro hversion), if_neg (not_not_intro hversion)]
      -- The three kinds of the `switch`, in the order of the source.
      by_cases hnodeState : type = SyncFrameType.nodeState.raw
      case pos => simp [hnodeState, bind, Except.bind, pure, Except.pure]
      by_cases hack : type = SyncFrameType.ack.raw
      case pos => simp [hack, bind, Except.bind, pure, Except.pure, SyncFrameType.raw]
      by_cases hevent : type = SyncFrameType.event.raw
      case pos => simp [hevent, bind, Except.bind, pure, Except.pure, SyncFrameType.raw]
      simp [hnodeState, hack, hevent, bind, Except.bind, pure, Except.pure]

end Refinement

end AppTraverse
