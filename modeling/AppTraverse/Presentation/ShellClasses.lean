import Mathlib.Data.List.Induction
import AppTraverse.Presentation.PublicationRoundTrip
import AppTraverse.Presentation.UiShells

/-!
# The class of a shell, and the records of a publication

`PreferredClassIdFor` takes the last layer of an object that is not `Node`'s.  The layers
of an object are written in the numeric order of their classes, so it takes the greatest
class id, wherever that class stands in the hierarchy.

The records of a publication are read as a table of records, like the two tables of a
graph.
-/

namespace AppTraverse

open Foundations

section Classes

/-- `first` after the layers of an object. -/
def firstClass (classes : List ClassId) : ClassId :=
  classes.foldl (fun first classId => if first = 0 then classId else first) 0

/-- `derived` after the layers of an object. -/
def lastOtherClass (nodeClassId : ClassId) (classes : List ClassId) : ClassId :=
  classes.foldl (fun derived classId => if classId ≠ nodeClassId then classId else derived) 0

/-- What `PreferredClassIdFor` returns for an object with these layers. -/
def preferredClass (nodeClassId : ClassId) (classes : List ClassId) : ClassId :=
  if lastOtherClass nodeClassId classes ≠ 0 then lastOtherClass nodeClassId classes
  else firstClass classes

theorem lastOtherClass_concat (nodeClassId classId : ClassId) (classes : List ClassId) :
    lastOtherClass nodeClassId (classes ++ [classId]) =
      if classId ≠ nodeClassId then classId else lastOtherClass nodeClassId classes := by
  rw [lastOtherClass, List.foldl_append]
  rfl

theorem firstClass_concat (classId : ClassId) (classes : List ClassId) :
    firstClass (classes ++ [classId]) =
      if firstClass classes = 0 then classId else firstClass classes := by
  rw [firstClass, List.foldl_append]
  rfl

/-- In numeric order, the last class that is not `Node` is the greatest one. -/
theorem le_lastOtherClass (nodeClassId : ClassId) {classes : List ClassId}
    (hsorted : classes.Pairwise (· ≤ ·)) :
    ∀ classId ∈ classes, classId ≠ nodeClassId →
      classId ≤ lastOtherClass nodeClassId classes := by
  induction classes using List.reverseRecOn with
  | nil => simp
  | append_singleton classes last ih =>
      obtain ⟨hinit, -, hlast⟩ := List.pairwise_append.mp hsorted
      intro classId hmem hother
      rw [lastOtherClass_concat]
      by_cases hnode : last ≠ nodeClassId
      · rw [if_pos hnode]
        rcases List.mem_append.mp hmem with hmem | hmem
        · exact hlast classId hmem last (List.mem_singleton_self last)
        · rw [List.mem_singleton.mp hmem]
          exact UInt32.le_refl last
      · rw [if_neg hnode]
        rcases List.mem_append.mp hmem with hmem | hmem
        · exact ih hinit classId hmem hother
        · rw [List.mem_singleton.mp hmem] at hother
          exact absurd hother hnode

theorem lastOtherClass_mem (nodeClassId : ClassId) (classes : List ClassId) :
    lastOtherClass nodeClassId classes = 0 ∨
      (lastOtherClass nodeClassId classes ∈ classes ∧
        lastOtherClass nodeClassId classes ≠ nodeClassId) := by
  induction classes using List.reverseRecOn with
  | nil => exact Or.inl rfl
  | append_singleton classes last ih =>
      rw [lastOtherClass_concat]
      by_cases hnode : last ≠ nodeClassId
      · rw [if_pos hnode]
        exact Or.inr ⟨List.mem_append_right _ (List.mem_singleton_self last), hnode⟩
      · rw [if_neg hnode]
        rcases ih with hzero | ⟨hmem, hother⟩
        · exact Or.inl hzero
        · exact Or.inr ⟨List.mem_append_left _ hmem, hother⟩

/-- The first class is one of the classes, and is not zero if one of them is not. -/
theorem firstClass_spec (classes : List ClassId) :
    (firstClass classes = 0 ∨ firstClass classes ∈ classes) ∧
      ∀ classId ∈ classes, classId ≠ 0 → firstClass classes ≠ 0 := by
  induction classes using List.reverseRecOn with
  | nil => exact ⟨Or.inl rfl, by simp⟩
  | append_singleton classes last ih =>
      obtain ⟨hmem, hnonzero⟩ := ih
      rw [firstClass_concat]
      by_cases hzero : firstClass classes = 0
      · rw [if_pos hzero]
        refine ⟨Or.inr (List.mem_append_right _ (List.mem_singleton_self last)), ?_⟩
        intro classId hclass hne
        rcases List.mem_append.mp hclass with hclass | hclass
        · exact absurd hzero (hnonzero classId hclass hne)
        · rw [← List.mem_singleton.mp hclass]
          exact hne
      · rw [if_neg hzero]
        refine ⟨Or.inr (List.mem_append_left _ (hmem.resolve_left hzero)), fun _ _ _ => hzero⟩

/-- The class ids that may stand beside the real class without being taken for it: those
below it, or none if the real class is `Node` itself. -/
def othersBound (nodeClassId realClass : ClassId) : ClassId :=
  if realClass = nodeClassId then 0 else realClass

/-- The inferred class is the real one exactly if no other class but `Node` is greater. -/
theorem preferredClass_eq_iff {nodeClassId realClass : ClassId} {classes : List ClassId}
    (hsorted : classes.Pairwise (· ≤ ·)) (hreal : realClass ∈ classes) (hzero : realClass ≠ 0) :
    preferredClass nodeClassId classes = realClass ↔
      ∀ classId ∈ classes, classId ≠ nodeClassId →
        classId ≤ othersBound nodeClassId realClass := by
  have hgreatest := le_lastOtherClass nodeClassId hsorted
  obtain ⟨hfirst, hfirstNonzero⟩ := firstClass_spec classes
  have hfirstReal := hfirstNonzero realClass hreal hzero
  have hnonneg : ∀ classId : ClassId, 0 ≤ classId := fun classId => UInt32.zero_le
  have hbelow : ∀ classId : ClassId, classId ≤ 0 → classId = 0 := fun classId h =>
    UInt32.le_antisymm h (hnonneg classId)
  rw [preferredClass, othersBound]
  by_cases hnode : realClass = nodeClassId
  · rw [if_pos hnode]
    constructor
    · intro hpreferred classId hclass hother
      by_cases hlast : lastOtherClass nodeClassId classes ≠ 0
      · rw [if_pos hlast] at hpreferred
        rcases lastOtherClass_mem nodeClassId classes with hzero' | ⟨-, hne⟩
        · exact absurd hzero' hlast
        · exact absurd (hpreferred.trans hnode) hne
      · have hle := hgreatest classId hclass hother
        rw [Decidable.not_not.mp hlast] at hle
        exact hle
    · intro hothers
      have hlast : lastOtherClass nodeClassId classes = 0 := by
        rcases lastOtherClass_mem nodeClassId classes with hzero' | ⟨hmem, hne⟩
        · exact hzero'
        · exact hbelow _ (hothers _ hmem hne)
      rw [if_neg (by simp [hlast])]
      -- Every class that is not zero is `Node`.
      have hmem := hfirst.resolve_left hfirstReal
      by_contra hne
      rw [hnode] at hne
      exact hfirstReal (hbelow _ (hothers _ hmem hne))
  · rw [if_neg hnode]
    have hle := hgreatest realClass hreal hnode
    have hlast : lastOtherClass nodeClassId classes ≠ 0 := by
      intro hlast
      rw [hlast] at hle
      exact hzero (hbelow _ hle)
    rw [if_pos hlast]
    constructor
    · rintro rfl
      exact hgreatest
    · intro hothers
      rcases lastOtherClass_mem nodeClassId classes with hzero' | ⟨hmem, hne⟩
      · exact absurd hzero' hlast
      · exact UInt32.le_antisymm (hothers _ hmem hne) hle

end Classes

section Inference

/-- The classes of the layers of one object, in the order of the layers. -/
def classesOf (layers : List PublishedLayer) (id : ObjId) : List ClassId :=
  (layers.filter fun layer => decide (layer.query.id = id)).map fun layer => layer.query.classId

/-- The loop of `PreferredClassIdFor` over the layers that a table holds. -/
theorem preferLayers_eq (nodeClassId : ClassId) (wantId : ObjId) (count : Nat) {bytes : Bytes}
    {pos : Nat} (hpos : pos ≤ bytes.length) {layers : List PublishedLayer} {rest : Bytes}
    (hlayers : SuffixReader.many layerEntry count (bytes.drop pos) = some (layers, rest))
    (first derived : ClassId) :
    preferLayers nodeClassId wantId count ⟨bytes, pos, true⟩ first derived =
      .ok ((classesOf layers wantId).foldl
          (fun first classId => if first = 0 then classId else first) first,
        (classesOf layers wantId).foldl
          (fun derived classId => if classId ≠ nodeClassId then classId else derived)
          derived) := by
  induction count generalizing pos layers first derived with
  | zero =>
      obtain ⟨rfl, rfl⟩ := Prod.mk.inj (Option.some.inj hlayers)
      rfl
  | succ count ih =>
      cases hentry : layerEntry (bytes.drop pos) with
      | none =>
          rw [SuffixReader.many_succ_none hentry] at hlayers
          cases hlayers
      | some read =>
          obtain ⟨layer, left⟩ := read
          rw [SuffixReader.many_succ_some hentry] at hlayers
          obtain ⟨tail, htail, hcons⟩ := Option.map_eq_some_iff.mp hlayers
          obtain ⟨rfl, rfl⟩ := Prod.mk.inj hcons
          rcases follows_readLayerHeader.reads bytes pos hpos with
            ⟨hnone, -⟩ | ⟨header, middle, hmiddle, hheader, hread⟩
          · have hshort : layerEntry (bytes.drop pos) = none := by
              rw [layerEntry, SuffixReader.andThen, hnone]
              rfl
            rw [hshort] at hentry
            cases hentry
          have hlength : (bytes.drop middle).length = bytes.length - middle := List.length_drop
          rw [layerEntry_of_header hheader] at hentry
          split at hentry
          case isTrue => cases hentry
          case isFalse hlong =>
            obtain ⟨rfl, rfl⟩ := Prod.mk.inj (Option.some.inj hentry)
            rw [List.drop_drop] at htail
            have hnext := ih (by omega) htail
            rw [preferLayers]
            simp only [Bool.not_true, Bool.false_eq_true, if_false, hread, Bool.false_or,
              decide_eq_true_eq, if_neg (show ¬bytes.length < middle + header.size.toNat by omega)]
            by_cases hid : header.query.id = wantId
            · rw [if_neg (not_not.mpr hid), hnext, classesOf, classesOf, List.filter_cons,
                if_pos (decide_eq_true hid)]
              rfl
            · rw [if_pos hid, hnext, classesOf, classesOf, List.filter_cons,
                if_neg (by simp [hid])]

/-- What is inferred from the bytes of a graph. -/
theorem preferredClassIdFor_eq (nodeClassId : ClassId) (wantId : ObjId) {payload : Bytes}
    {layers : List PublishedLayer} {rest : Bytes}
    (hlayers : tableOf layerEntry payload = some (layers, rest)) :
    preferredClassIdFor nodeClassId payload wantId =
      .ok (preferredClass nodeClassId (classesOf layers wantId)) := by
  obtain ⟨read, hcount, hmany⟩ := Option.bind_eq_some_iff.mp hlayers
  rcases follows_readU32Of.reads payload 0 (Nat.zero_le _) with
    ⟨hnone, -⟩ | ⟨count, middle, hmiddle, hsome, hread⟩
  · rw [List.drop_zero, hcount] at hnone
    cases hnone
  · rw [List.drop_zero, hcount] at hsome
    obtain rfl := Option.some.inj hsome
    rw [preferredClassIdFor, hread]
    show (preferLayers nodeClassId wantId count.toNat _ 0 0).bind _ = _
    rw [preferLayers_eq nodeClassId wantId count.toNat hmiddle hmany]
    rfl

end Inference

section Records

/-- The reads before a payload, from the bytes that are left. -/
def recordHeader : SuffixReader (ObjId × UInt64 × UInt32) :=
  SuffixReader.andThen (machineNumber 4 UInt32.ofNat) fun objId =>
  SuffixReader.andThen (machineNumber 8 UInt64.ofNat) fun generation =>
  SuffixReader.andThen (machineNumber 4 UInt32.ofNat) fun payloadSize =>
  SuffixReader.done (⟨objId⟩, generation, payloadSize)

theorem follows_readRecordHeader : Follows readRecordHeader recordHeader :=
  follows_readU32Of.bind fun _ => follows_readU64Of.bind fun _ => follows_readU32Of.bind
    fun _ => Follows.pure _

/-- A record, from the bytes that are left. -/
def recordEntry : SuffixReader PublishedRecord :=
  SuffixReader.andThen recordHeader fun header =>
  SuffixReader.andThen (SuffixReader.take header.2.2.toNat) fun payload =>
  SuffixReader.done ⟨header.1, header.2.1, payload, false⟩

theorem recordEntry_of_header {input rest : Bytes} {header : ObjId × UInt64 × UInt32}
    (h : recordHeader input = some (header, rest)) :
    recordEntry input = if rest.length < header.2.2.toNat then none
      else some (⟨header.1, header.2.1, rest.take header.2.2.toNat, false⟩,
        rest.drop header.2.2.toNat) := by
  rw [recordEntry, SuffixReader.andThen, h, Option.bind_some, SuffixReader.andThen,
    SuffixReader.take]
  split
  case isTrue => rfl
  case isFalse => rfl

/-- A record with a payload of fewer than 2^32 bytes is read as it was written. -/
theorem recordEntry_written {record : PublishedRecord} (hnew : record.applied = false)
    (hsize : record.payload.length < 2 ^ 32) (rest : Bytes) :
    recordEntry (recordBytes record ++ rest) = some (record, rest) := by
  have hnat : (UInt32.ofNat record.payload.length).toNat = record.payload.length :=
    UInt32.toNat_ofNat_of_lt' hsize
  have hheader : recordHeader (recordBytes record ++ rest) =
      some ((record.objId, record.generation, UInt32.ofNat record.payload.length),
        record.payload ++ rest) := by
    simp only [recordBytes, List.append_assoc, recordHeader]
    rw [SuffixReader.andThen, machineNumber_nativeU32Bytes, Option.bind_some,
      SuffixReader.andThen, machineNumber_nativeU64Bytes, Option.bind_some,
      SuffixReader.andThen, machineNumber_nativeU32Bytes, Option.bind_some]
    rfl
  rw [recordEntry_of_header hheader, hnat,
    if_neg (by rw [List.length_append]; omega), List.take_left, List.drop_left, ← hnew]

theorem recordEntry_short {input rest : Bytes} {record : PublishedRecord}
    (h : recordEntry input = some (record, rest)) : record.payload.length < 2 ^ 32 := by
  obtain ⟨header, hheader, -⟩ := Option.bind_eq_some_iff.mp h
  have hsize := header.1.2.2.toNat_lt
  rw [recordEntry_of_header hheader] at h
  split at h
  case isTrue => cases h
  case isFalse hlong =>
    obtain ⟨rfl, -⟩ := Prod.mk.inj (Option.some.inj h)
    show (header.2.take header.1.2.2.toNat).length < 2 ^ 32
    rw [List.length_take]
    omega

theorem checked_cases {ρ : Type} {parser : SourceReader ρ} {reader : SuffixReader ρ}
    (hfollows : Follows parser reader) {bytes : Bytes} {pos : Nat} (hpos : pos ≤ bytes.length) :
    (reader (bytes.drop pos) = none ∧ checked parser ⟨bytes, pos, true⟩ =
        .error .assertFailed) ∨
      ∃ value after, after ≤ bytes.length ∧
        reader (bytes.drop pos) = some (value, bytes.drop after) ∧
        checked parser ⟨bytes, pos, true⟩ = .ok (value, ⟨bytes, after, true⟩) := by
  rcases hfollows.reads bytes pos hpos with ⟨hnone, value, after, hparser, hmark⟩ |
    ⟨value, after, hafter, hsome, hparser⟩
  · refine Or.inl ⟨hnone, ?_⟩
    rw [checked, hparser]
    simp [hmark]
  · refine Or.inr ⟨value, after, hafter, hsome, ?_⟩
    rw [checked, hparser]
    rfl

/-- The records that are read are the entries of the table; without a table an assertion
fails. -/
theorem readRecords_cases (count : Nat) {bytes : Bytes} {pos : Nat}
    (hpos : pos ≤ bytes.length) :
    (SuffixReader.many recordEntry count (bytes.drop pos) = none ∧
        readRecords count ⟨bytes, pos, true⟩ = .error .assertFailed) ∨
      ∃ records rest, SuffixReader.many recordEntry count (bytes.drop pos) =
          some (records, rest) ∧
        readRecords count ⟨bytes, pos, true⟩ = .ok records := by
  induction count generalizing pos with
  | zero => exact Or.inr ⟨[], bytes.drop pos, rfl, rfl⟩
  | succ count ih =>
      have hstep : readRecords (count + 1) ⟨bytes, pos, true⟩ =
          (checked readRecordHeader ⟨bytes, pos, true⟩).bind _ := rfl
      rw [hstep]
      rcases checked_cases follows_readRecordHeader hpos with
        ⟨hnone, hread⟩ | ⟨header, middle, hmiddle, hsome, hread⟩
      · have hentry : recordEntry (bytes.drop pos) = none := by
          rw [recordEntry, SuffixReader.andThen, hnone]
          rfl
        rw [hread]
        exact Or.inl ⟨SuffixReader.many_succ_none hentry count, rfl⟩
      have hentry := recordEntry_of_header hsome
      have hlength : (bytes.drop middle).length = bytes.length - middle := List.length_drop
      rw [hread, Except.bind]
      by_cases hshort : bytes.length < middle + header.2.2.toNat
      · rw [if_pos (by omega)] at hentry
        exact Or.inl ⟨SuffixReader.many_succ_none hentry count, if_pos hshort⟩
      · rw [if_neg (by omega), List.drop_drop] at hentry
        have hbytes : Cursor.bytesAt bytes middle header.2.2.toNat =
            .ok ((bytes.drop middle).take header.2.2.toNat) := if_pos (by omega)
        have hnext : middle + header.2.2.toNat ≤ bytes.length := by omega
        simp only [if_neg hshort, hbytes]
        rw [SuffixReader.many_succ_some hentry]
        rcases ih hnext with ⟨hnone, hloop⟩ | ⟨records, rest, hrest, hloop⟩
        · exact Or.inl ⟨by rw [hnone]; rfl, by rw [hloop]; rfl⟩
        · exact Or.inr ⟨_, rest, by rw [hrest]; rfl, by rw [hloop]; rfl⟩

end Records

end AppTraverse
