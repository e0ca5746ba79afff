import IceTouch.Encoder10
import IceTouch.Encoder11
import IceTouch.OptionalTransfer
import IceTouch.Slice.Types

/-!
# Static sizes and encodings

The stream writers append at least `minWireSize` bytes for a value of a type, and exactly that
many when the type is not of variable length. This holds for every content of the stream and
every state of the class encoder: all that matters of the encoder is that it never writes over
what was in the stream before, and for this only the places that it has reserved in the
innermost slice are relevant.
-/

namespace IceTouch.Slice

open Bytes WireTypes OutStream StreamHelpers
open Transfer ValueTransfer

variable {σ ρ ν : Type}

structure Frame (σ : Type) where
  keeps : σ → σ → Prop
  refl : ∀ encoder, keeps encoder encoder
  trans : ∀ first second third, keeps first second → keeps second third → keeps first third

/-- `count` bytes have been appended. -/
structure Appended (frame : Frame σ) (count : Nat) (before after : BasicStream σ) : Prop where
  bytes : ∃ bytes, bytes.length = count ∧ after.b = before.b ++ bytes
  kept : frame.keeps before.encoder after.encoder

section Appended

variable {frame : Frame σ} {first second third : BasicStream σ} {left right : Nat}

theorem appended_blob (stream : BasicStream σ) (bytes : List Byte) :
    Appended frame bytes.length stream (stream.writeBlob bytes) :=
  ⟨⟨bytes, rfl, rfl⟩, frame.refl stream.encoder⟩

theorem Appended.trans (one : Appended frame left first second)
    (two : Appended frame right second third) : Appended frame (left + right) first third := by
  obtain ⟨early, earlyLength, begun⟩ := one.bytes
  obtain ⟨late, lateLength, ended⟩ := two.bytes
  constructor
  · apply Exists.intro (early ++ late)
    rw [List.length_append, earlyLength, lateLength, ended, begun, List.append_assoc]
    exact ⟨rfl, rfl⟩
  · exact frame.trans _ _ _ one.kept two.kept

end Appended

/-- A writer appends at least `low` bytes, and exactly `low` when `exact`. -/
def Writes (frame : Frame σ) (low : Nat) (fixed : Bool)
    (writer : BasicStream σ → BasicStream σ) : Prop :=
  ∀ stream, ∃ count, Appended frame count stream (writer stream) ∧ low ≤ count ∧
    (fixed = true → count = low)

section Writes

variable {frame : Frame σ} {low low₁ low₂ : Nat} {fixed fixed₁ fixed₂ : Bool}
  {writer writer₁ writer₂ : BasicStream σ → BasicStream σ}

theorem writes_blob {bytes : List Byte} (appends : ∀ stream, writer stream = stream.writeBlob bytes)
    (long : low ≤ bytes.length) (exactly : fixed = true → bytes.length = low) :
    Writes frame low fixed writer := by
  intro stream
  rw [appends]
  exact ⟨bytes.length, appended_blob stream bytes, long, exactly⟩

theorem writes_word {width : Nat} (value : BitVec width) :
    Writes frame (width / 8) fixed fun stream => stream.writeWord value :=
  writes_blob (fun stream => write_word_eq_blob stream value) (word_bytes_long value)
    fun _ => word_bytes_length value

theorem Writes.andThen (one : Writes frame low₁ fixed₁ writer₁) (two : Writes frame low₂ fixed₂ writer₂) :
    Writes frame (low₁ + low₂) (fixed₁ && fixed₂) (fun stream => writer₂ (writer₁ stream)) := by
  intro stream
  obtain ⟨left, begun, leftLong, leftExact⟩ := one stream
  obtain ⟨right, ended, rightLong, rightExact⟩ := two (writer₁ stream)
  refine ⟨left + right, begun.trans ended, Nat.add_le_add leftLong rightLong, ?_⟩
  intro both
  rw [Bool.and_eq_true] at both
  rw [leftExact both.1, rightExact both.2]

theorem Writes.lower (writes : Writes frame low₁ fixed₁ writer) (less : low ≤ low₁) :
    Writes frame low false writer := by
  intro stream
  obtain ⟨count, appended, long, -⟩ := writes stream
  exact ⟨count, appended, less.trans long, Bool.false_ne_true.elim⟩

variable {α : Type} {writeRef : ρ → BasicStream σ → BasicStream σ}
  {writeItem : α → BasicStream σ → BasicStream σ}

theorem Writes.all (items : List α)
    (every : ∀ item, ∃ low fixed, Writes frame low fixed (writeItem item)) :
    Writes frame 0 false (BasicStream.writeAll writeItem items) := by
  induction items with
  | nil => exact fun stream => ⟨0, ⟨⟨[], rfl, (List.append_nil _).symm⟩, frame.refl _⟩, le_rfl, Bool.false_ne_true.elim⟩
  | cons item rest ih =>
      obtain ⟨low, fixed, writes⟩ := every item
      exact (writes.andThen ih).lower (Nat.zero_le _)

theorem write_writes {encoding : Encoding} {writeRef : ρ → BasicStream σ → BasicStream σ}
    (refs : ∀ ref, Writes frame 1 false (writeRef ref)) (type : WireType) (value : Value ρ type) :
    Writes frame type.minWireSize (!type.isVariableLength) (write encoding writeRef type value) := by
  induction type with
  | bool => exact writes_blob (fun stream => write_bool_eq_blob stream value) le_rfl fun _ => rfl
  | byte => exact writes_blob (fun stream => write_byte_eq_blob stream value) le_rfl fun _ => rfl
  | short => exact writes_word (value : BitVec 16)
  | int => exact writes_word (value : BitVec 32)
  | long => exact writes_word (value : BitVec 64)
  | float => exact writes_word (value : BitVec 32)
  | double => exact writes_word (value : BitVec 64)
  | string =>
      exact writes_blob (fun stream => write_string_eq_blob stream value)
        (string_bytes_pos value) Bool.false_ne_true.elim
  | enum range =>
      exact writes_blob (fun stream => write_enum_eq_blob stream encoding _ _)
        (enum_bytes_pos encoding _ _) Bool.false_ne_true.elim
  | sequence element ih =>
      have counted : Writes frame 1 false fun stream => stream.writeSize (List.length value) :=
        writes_blob (fun stream => write_size_eq_blob stream _) (size_bytes_pos _) Bool.false_ne_true.elim
      exact (counted.andThen (Writes.all value fun item => ⟨_, _, ih item⟩)).lower le_rfl
  | dictionary key val keyWrites valueWrites =>
      have counted : Writes frame 1 false fun stream => stream.writeSize (List.length value) :=
        writes_blob (fun stream => write_size_eq_blob stream _) (size_bytes_pos _) Bool.false_ne_true.elim
      exact (counted.andThen (Writes.all value fun entry =>
        ⟨_, _, (keyWrites entry.1).andThen (valueWrites entry.2)⟩)).lower le_rfl
  | struct last ih => exact ih value
  | structCons first rest firstWrites restWrites =>
      rw [WireType.isVariableLength, Bool.not_or]
      exact (firstWrites value.1).andThen (restWrites value.2)
  | proxy =>
      exact writes_blob (fun stream => write_proxy_eq_blob stream encoding value)
        (proxy_bytes_long encoding value) Bool.false_ne_true.elim
  | cls => exact refs value

theorem Writes.all_fixed (items : List α) (every : ∀ item, Writes frame low true (writeItem item)) :
    Writes frame (items.length * low) true (BasicStream.writeAll writeItem items) := by
  induction items with
  | nil =>
      rw [List.length_nil, Nat.zero_mul]
      exact fun stream => ⟨0, ⟨⟨[], rfl, (List.append_nil _).symm⟩, frame.refl _⟩, le_rfl, fun _ => rfl⟩
  | cons item rest ih =>
      rw [List.length_cons, Nat.succ_mul, Nat.add_comm]
      exact (every item).andThen ih

theorem Writes.container (items : List α) (every : ∀ item, Writes frame low true (writeItem item)) :
    Writes frame (low * items.length + (if items.length < 255 then 1 else 5)) true
      fun stream => BasicStream.writeAll writeItem items (stream.writeSize items.length) := by
  have counted : Writes frame (if items.length < 255 then 1 else 5) true
      fun stream : BasicStream σ => stream.writeSize items.length := by
    have length : (sizeBytes items.length).length = if items.length < 255 then 1 else 5 := by
      unfold sizeBytes
      split_ifs <;> simp <;> omega
    exact writes_blob (fun stream => write_size_eq_blob stream _) (Nat.le_of_eq length.symm)
      fun _ => length
  rw [Nat.mul_comm, Nat.add_comm]
  exact counted.andThen (Writes.all_fixed items every)

theorem fixed_optional_writes (refs : ∀ ref, Writes frame 1 false (writeRef ref)) (type : WireType)
    (value : Value ρ type) :
    match optionalHelper type with
    | .fixedStruct => Writes frame type.minWireSize true (write .v11 writeRef type value)
    | .fixedContainer elementSize =>
        Writes frame (elementSize * elementCount type value +
          (if elementCount type value < 255 then 1 else 5)) true (write .v11 writeRef type value)
    | .plain => True
    | .variable => True := by
  have written : ∀ (type : WireType) (value : Value ρ type), type.fixedLength = true →
      Writes frame type.minWireSize true (write .v11 writeRef type value) := by
    intro type value fixed
    have writes := @write_writes _ _ frame .v11 writeRef refs type value
    rwa [← WireType.fixedLength, fixed] at writes
  cases type with
  | struct last =>
      rw [optionalHelper]
      cases fixed : (WireType.struct last).fixedLength with
      | false => trivial
      | true => exact written _ value fixed
  | structCons first rest =>
      rw [optionalHelper]
      cases fixed : (WireType.structCons first rest).fixedLength with
      | false => trivial
      | true => exact written _ value fixed
  | sequence element =>
      rw [optionalHelper, containerHelper]
      cases fixed : element.fixedLength with
      | false => trivial
      | true =>
          by_cases one : element.minWireSize = 1
          · simp only [one, if_true]
          · simp only [if_true, if_neg one]
            exact Writes.container value fun item => written element item fixed
  | dictionary key val =>
      rw [optionalHelper, containerHelper]
      cases fixed : key.fixedLength && val.fixedLength with
      | false => trivial
      | true =>
          by_cases one : key.minWireSize + val.minWireSize = 1
          · simp only [one, if_true]
          · simp only [if_true, if_neg one]
            rw [Bool.and_eq_true] at fixed
            exact Writes.container value fun entry =>
              (written key entry.1 fixed.1).andThen (written val entry.2 fixed.2)
  | _ => trivial

theorem write_optional_writes (refs : ∀ ref, Writes frame 1 false (writeRef ref)) (type : WireType)
    (value : Value ρ type) : Writes frame 1 false (writeOptional writeRef type value) := by
  have plain : Writes frame 1 false (write .v11 writeRef type value) :=
    (write_writes refs type value).lower (min_wire_size_pos type)
  have sized : ∀ size, Writes frame 1 false
      (fun stream => write .v11 writeRef type value (stream.writeSize size)) := by
    intro size
    have counted : Writes frame 0 false fun stream : BasicStream σ => stream.writeSize size :=
      writes_blob (fun stream => write_size_eq_blob stream _) (Nat.zero_le _) Bool.false_ne_true.elim
    exact (counted.andThen plain).lower (Nat.le_add_left 1 0)
  unfold writeOptional
  cases optionalHelper type with
  | plain => exact plain
  | fixedStruct => exact sized _
  | fixedContainer elementSize => exact sized _
  | «variable» =>
      intro stream
      dsimp only
      obtain ⟨count, appended, long, -⟩ := plain (stream.writeInt 0)
      obtain ⟨bytes, length, written⟩ := appended.bytes
      refine ⟨4 + count, ⟨?_, appended.kept⟩, long.trans (Nat.le_add_left _ _), Bool.false_ne_true.elim⟩
      generalize write .v11 writeRef type value (stream.writeInt 0) = after at *
      have filled := rewrite_reserved stream (after.pos - (stream.writeInt 0).pos : Nat) (intBytes 0)
        bytes (int_bytes_length 0)
      have start : (stream.writeInt 0).pos - 4 = stream.pos := by
        simp [BasicStream.pos, BasicStream.writeInt, BasicStream.writeBlob]
      refine ⟨intBytes (after.pos - (stream.writeInt 0).pos : Nat) ++ bytes, ?_, ?_⟩
      · rw [List.length_append, int_bytes_length, length]
      · have content : after.b = (stream.writeBlob (intBytes 0 ++ bytes)).b := by
          rw [written]
          simp [BasicStream.writeInt, BasicStream.writeBlob]
        rw [start]
        simp only [BasicStream.rewrite, content]
        exact congrArg BasicStream.b filled

end Writes

def anyChange : Frame σ where
  keeps _ _ := True
  refl _ := trivial
  trans _ _ _ _ _ := trivial

theorem ref_writes_10 [DecidableEq ν] (ref : Option ν) :
    Writes anyChange 1 false (Encoder10.write ref) := by
  intro stream
  apply Exists.intro 4
  cases ref with
  | none => exact ⟨⟨⟨intBytes 0, int_bytes_length 0, rfl⟩, trivial⟩, by decide, Bool.false_ne_true.elim⟩
  | some v => exact ⟨⟨⟨_, int_bytes_length _, rfl⟩, trivial⟩, by decide, Bool.false_ne_true.elim⟩

section Encoder11

open Encoder11 IceTouch.Classes

/-- The places that a slice has reserved, and whether it has reserved one for its size. -/
structure SamePlaces (one two : InstanceData ν) : Prop where
  sliceFlagsPos : two.sliceFlagsPos = one.sliceFlagsPos
  writeSlice : two.writeSlice = one.writeSlice
  sized : two.sliceFlags &&& FLAG_HAS_SLICE_SIZE = one.sliceFlags &&& FLAG_HAS_SLICE_SIZE

/-- The reserved places of the innermost slice stay, and so does everything about the slices
around it. -/
def SameSlices : List (InstanceData ν) → List (InstanceData ν) → Prop
  | [], [] => True
  | one :: outer, two :: rest => SamePlaces one two ∧ rest = outer
  | _, _ => False

theorem SamePlaces.refl (data : InstanceData ν) : SamePlaces data data := ⟨rfl, rfl, rfl⟩

theorem SameSlices.refl (slices : List (InstanceData ν)) : SameSlices slices slices := by
  cases slices with
  | nil => trivial
  | cons data outer => exact ⟨SamePlaces.refl data, rfl⟩

theorem SameSlices.trans {first second third : List (InstanceData ν)} (one : SameSlices first second)
    (two : SameSlices second third) : SameSlices first third := by
  cases first with
  | nil =>
      cases second with
      | nil => exact two
      | cons => exact False.elim one
  | cons data₁ outer₁ =>
      cases second with
      | nil => exact False.elim one
      | cons data₂ outer₂ =>
          cases third with
          | nil => exact False.elim two
          | cons data₃ outer₃ =>
              constructor
              · constructor
                · exact two.1.sliceFlagsPos.trans one.1.sliceFlagsPos
                · exact two.1.writeSlice.trans one.1.writeSlice
                · exact two.1.sized.trans one.1.sized
              · exact two.2.trans one.2

structure Keeps (before after : EncapsEncoder11 ν) : Prop where
  format : after.format = before.format
  slices : SameSlices before.current after.current

def samePlaces : Frame (EncapsEncoder11 ν) where
  keeps := Keeps
  refl encoder := ⟨rfl, SameSlices.refl encoder.current⟩
  trans _ _ _ one two := ⟨two.format.trans one.format, one.slices.trans two.slices⟩

/-- Inside an instance: nothing before `base` has been touched. -/
structure Inside (base : List Byte) (format : FormatType) (outer : List (InstanceData ν))
    (stream : Stream ν) : Prop where
  bytes : ∃ bytes, stream.b = base ++ bytes
  format : stream.encoder.format = format
  current : ∃ data, stream.encoder.current = data :: outer

/-- Inside a slice: what it has reserved lies after `base`. -/
structure Opened (base : List Byte) (format : FormatType) (outer : List (InstanceData ν))
    (stream : Stream ν) : Prop where
  bytes : ∃ bytes, stream.b = base ++ bytes
  format : stream.encoder.format = format
  current : ∃ data, stream.encoder.current = data :: outer ∧ base.length ≤ data.sliceFlagsPos ∧
    (data.sliceFlags &&& FLAG_HAS_SLICE_SIZE ≠ 0 → base.length + 4 ≤ data.writeSlice)

section Slices

variable {base : List Byte} {format : FormatType} {outer : List (InstanceData ν)} {stream other : Stream ν} {count : Nat}

theorem Opened.inside (opened : Opened base format outer stream) : Inside base format outer stream := by
  obtain ⟨data, current, -⟩ := opened.current
  exact ⟨opened.bytes, opened.format, data, current⟩

variable {position : Nat}

theorem rewrite_at_beyond (bytes written : List Byte) (beyond : base.length ≤ position) :
    ∃ rest, rewriteAt (base ++ bytes) position written = base ++ rest := by
  apply Exists.intro (bytes.take (position - base.length) ++ written ++
    (base ++ bytes).drop (position + written.length))
  rw [rewriteAt, List.take_append, List.take_of_length_le beyond]
  simp only [List.append_assoc]

theorem Opened.appended (opened : Opened base format outer stream)
    (appended : Appended samePlaces count stream other) : Opened base format outer other := by
  obtain ⟨bytes, begun⟩ := opened.bytes
  obtain ⟨data, current, flags, size⟩ := opened.current
  obtain ⟨more, -, ended⟩ := appended.bytes
  have kept : SameSlices stream.encoder.current other.encoder.current := appended.kept.slices
  rw [current] at kept
  constructor
  · apply Exists.intro (bytes ++ more)
    rw [ended, begun, List.append_assoc]
  · exact appended.kept.format.trans opened.format
  · cases later : other.encoder.current with
    | nil => simp [later, SameSlices] at kept
    | cons data₂ outer₂ =>
        rw [later] at kept
        obtain ⟨places, rfl⟩ := kept
        refine ⟨data₂, rfl, ?_, ?_⟩
        · rw [places.sliceFlagsPos]
          exact flags
        · rw [places.sized, places.writeSlice]
          exact size

theorem sized_or (flags flag : Byte) (other : flag &&& FLAG_HAS_SLICE_SIZE = 0) :
    (flags ||| flag) &&& FLAG_HAS_SLICE_SIZE = flags &&& FLAG_HAS_SLICE_SIZE := by
  have distributed : (flags ||| flag) &&& FLAG_HAS_SLICE_SIZE =
      flags &&& FLAG_HAS_SLICE_SIZE ||| flag &&& FLAG_HAS_SLICE_SIZE := by
    apply UInt8.toBitVec_inj.mp
    simp only [UInt8.toBitVec_and, UInt8.toBitVec_or, BitVec.and_or_distrib_right]
  rw [distributed, other, UInt8.or_zero]

theorem appended_nothing {encoder : EncapsEncoder11 ν} (kept : Keeps stream.encoder encoder) :
    Appended samePlaces 0 stream { stream with encoder := encoder } :=
  ⟨⟨[], rfl, (List.append_nil _).symm⟩, kept⟩

theorem appended_modified {change : InstanceData ν → InstanceData ν}
    (same : ∀ data, SamePlaces data (change data)) (stream : Stream ν) :
    Appended samePlaces 0 stream (modifyCurrent change stream) := by
  unfold modifyCurrent
  cases current : stream.encoder.current with
  | nil => exact appended_nothing (samePlaces.refl _)
  | cons data rest =>
      apply appended_nothing
      constructor
      · rfl
      · rw [current]
        exact ⟨same data, rfl⟩

theorem appended_flag (flag : Byte) (other : flag &&& FLAG_HAS_SLICE_SIZE = 0) (stream : Stream ν) :
    Appended samePlaces 0 stream (addFlag flag stream) :=
  appended_modified (fun data => show SamePlaces data
    { data with sliceFlags := data.sliceFlags ||| flag } from
      ⟨rfl, rfl, sized_or data.sliceFlags flag other⟩) stream

theorem appended_type_id (typeId : Str) (compactId : Option Nat) (stream : Stream ν) :
    ∃ count, Appended samePlaces count stream (writeTypeId typeId compactId stream) := by
  cases compactId with
  | some id =>
      rw [writeTypeId, write_size_eq_blob]
      exact ⟨_, (appended_flag _ rfl stream).trans (appended_blob _ _)⟩
  | none =>
      unfold writeTypeId registerTypeId
      cases stream.encoder.typeIdMap.lookup typeId with
      | some index =>
          simp only [write_size_eq_blob]
          exact ⟨_, (appended_flag _ rfl stream).trans (appended_blob _ _)⟩
      | none =>
          simp only [write_string_eq_blob]
          have registered : Appended samePlaces 0 stream { stream with encoder :=
              { stream.encoder with
                typeIdIndex := stream.encoder.typeIdIndex + 1
                typeIdMap := stream.encoder.typeIdMap ++ [(typeId, stream.encoder.typeIdIndex + 1)] } } :=
            appended_nothing ⟨rfl, SameSlices.refl _⟩
          exact ⟨_, registered.trans ((appended_flag _ rfl _).trans (appended_blob _ _))⟩

theorem appended_slice_type_id (typeId : Str) (compactId : Option Nat) (stream : Stream ν) :
    ∃ count, Appended samePlaces count stream (writeSliceTypeId typeId compactId stream) := by
  unfold writeSliceTypeId
  cases stream.encoder.current with
  | nil => exact ⟨0, appended_nothing (samePlaces.refl _)⟩
  | cons data outer =>
      dsimp only
      split_ifs
      · exact appended_type_id typeId compactId stream
      · exact ⟨0, appended_nothing (samePlaces.refl _)⟩
      · rw [write_string_eq_blob]
        exact ⟨_, appended_blob stream _⟩

theorem Appended.innermost (appended : Appended samePlaces count stream other) {data : InstanceData ν}
    (current : stream.encoder.current = data :: outer) :
    ∃ after, other.encoder.current = after :: outer ∧ SamePlaces data after := by
  have kept := appended.kept.slices
  rw [current] at kept
  cases later : other.encoder.current with
  | nil =>
      rw [later] at kept
      exact False.elim kept
  | cons after rest =>
      rw [later] at kept
      obtain ⟨places, rfl⟩ := kept
      exact ⟨after, rfl, places⟩

theorem start_slice_opens (typeId : Str) (compactId : Option Nat) (last : Bool)
    (inside : Inside base format outer stream) : Opened base format outer (startSlice typeId compactId last stream) := by
  obtain ⟨bytes, begun⟩ := inside.bytes
  obtain ⟨data, current⟩ := inside.current
  obtain ⟨count, named⟩ := appended_slice_type_id typeId compactId (reserveSliceFlags last stream)
  have reserved : ∃ reserved, (reserveSliceFlags last stream).encoder.current = reserved :: outer ∧
      reserved.sliceFlagsPos = stream.b.length ∧
      (reserved.sliceFlags &&& FLAG_HAS_SLICE_SIZE ≠ 0 → stream.encoder.format = .sliced) := by
    simp only [reserveSliceFlags, modifyCurrent, current]
    refine ⟨_, rfl, rfl, ?_⟩
    intro sized
    by_contra compact
    simp only [if_neg compact] at sized
    cases last <;> exact sized rfl
  have flagged : (reserveSliceFlags last stream).b = stream.b ++ [0] := by
    simp only [reserveSliceFlags, modifyCurrent, current]
    rfl
  have sameFormat : (reserveSliceFlags last stream).encoder.format = stream.encoder.format := by
    simp only [reserveSliceFlags, modifyCurrent, current]
    rfl
  obtain ⟨reserved, current₁, flagsPos, sized⟩ := reserved
  obtain ⟨after, current₂, places⟩ := named.innermost current₁
  obtain ⟨id, -, written⟩ := named.bytes
  have kept := named.kept.format.trans (sameFormat.trans inside.format)
  rw [startSlice]
  generalize writeSliceTypeId typeId compactId (reserveSliceFlags last stream) = described at *
  have whole : described.b = base ++ (bytes ++ [0] ++ id) := by
    rw [written, flagged, begun]
    simp only [List.append_assoc]
  have beyond : base.length ≤ after.sliceFlagsPos := by
    rw [places.sliceFlagsPos, flagsPos, begun, List.length_append]
    exact Nat.le_add_right _ _
  by_cases sliced : described.encoder.format = .sliced
  · rw [reserveSliceSize, if_pos sliced]
    constructor
    · refine ⟨bytes ++ [0] ++ id ++ intBytes 0, ?_⟩
      simp [modifyCurrent, BasicStream.writeInt, BasicStream.writeBlob, current₂, whole]
    · simp only [modifyCurrent, BasicStream.writeInt, BasicStream.writeBlob, current₂]
      exact kept
    · simp only [modifyCurrent, BasicStream.writeInt, BasicStream.writeBlob, current₂, BasicStream.pos]
      refine ⟨_, rfl, beyond, fun _ => ?_⟩
      simp only [whole, List.length_append, int_bytes_length]
      omega
  · rw [reserveSliceSize, if_neg sliced]
    constructor
    · refine ⟨bytes ++ [0] ++ id, ?_⟩
      simp [modifyCurrent, current₂, whole]
    · simp only [modifyCurrent, current₂]
      exact kept
    · simp only [modifyCurrent, current₂]
      refine ⟨_, rfl, beyond, fun flag => ?_⟩
      rw [places.sized] at flag
      exact absurd (named.kept.format.trans (sameFormat.trans (sized flag))) sliced

theorem Inside.rewritten (inside : Inside base format outer stream) (bytes : List Byte)
    (beyond : base.length ≤ position) :
    Inside base format outer { stream with b := rewriteAt stream.b position bytes } := by
  obtain ⟨written, begun⟩ := inside.bytes
  constructor
  · rw [begun]
    exact rewrite_at_beyond written bytes beyond
  · exact inside.format
  · exact inside.current

theorem Opened.rewritten (opened : Opened base format outer stream) (bytes : List Byte)
    (beyond : base.length ≤ position) :
    Opened base format outer { stream with b := rewriteAt stream.b position bytes } := by
  obtain ⟨written, begun⟩ := opened.bytes
  constructor
  · rw [begun]
    exact rewrite_at_beyond written bytes beyond
  · exact opened.format
  · exact opened.current

theorem appended_all {α : Type} {writeItem : α → Stream ν → Stream ν}
    (every : ∀ item, Writes samePlaces 1 false (writeItem item)) (items : List α) (stream : Stream ν) :
    ∃ count, Appended samePlaces count stream (BasicStream.writeAll writeItem items stream) := by
  obtain ⟨count, appended, -⟩ := Writes.all items (fun item => ⟨1, false, every item⟩) stream
  exact ⟨count, appended⟩

theorem write_end_marker_opened (opened : Opened base format outer stream) :
    Opened base format outer (writeEndMarker stream) := by
  unfold writeEndMarker
  cases stream.encoder.current with
  | nil => exact opened
  | cons data rest =>
      dsimp only
      split_ifs
      · exact opened.appended (appended_blob stream [OPTIONAL_END_MARKER])
      · exact opened

theorem rewrite_slice_size_opened (opened : Opened base format outer stream) :
    Opened base format outer (rewriteSliceSize stream) := by
  obtain ⟨data, current, -, size⟩ := opened.current
  simp only [rewriteSliceSize, current]
  split_ifs with sized
  · apply opened.rewritten
    have beyond := size sized
    omega
  · exact opened

variable {writeInst : ν → Stream ν → Stream ν}
  (instances : ∀ v, Writes samePlaces 1 false (writeInst v))

section

variable (opened : Opened base format outer stream)

include opened

include instances in
theorem write_indirection_table_opened :
    Opened base format outer (writeIndirectionTable writeInst stream) := by
  unfold writeIndirectionTable
  cases stream.encoder.current with
  | nil => exact opened
  | cons data rest =>
      dsimp only
      split_ifs
      · exact opened
      · rw [write_size_eq_blob]
        have flagged := opened.appended (appended_flag FLAG_HAS_INDIRECTION_TABLE rfl stream)
        have counted := flagged.appended (appended_blob _ (sizeBytes data.indirectionTable.length))
        obtain ⟨count, entries⟩ := appended_all instances data.indirectionTable _
        exact (counted.appended entries).appended
          (appended_modified (fun data => show SamePlaces data
            { data with indirectionTable := [], indirectionMap := [] } from ⟨rfl, rfl, rfl⟩) _)

theorem rewrite_slice_flags_inside : Inside base format outer (rewriteSliceFlags stream) := by
  obtain ⟨data, current, flags, -⟩ := opened.current
  simp only [rewriteSliceFlags, current]
  exact opened.inside.rewritten [data.sliceFlags] flags

include instances in
theorem end_slice_inside : Inside base format outer (endSlice writeInst stream) :=
  rewrite_slice_flags_inside (write_indirection_table_opened instances
    (rewrite_slice_size_opened (write_end_marker_opened opened)))

end

variable [DecidableEq ν]

include instances in
theorem ref_writes_11 (ref : Option ν) : Writes samePlaces 1 false (Encoder11.write writeInst ref) := by
  intro stream
  cases ref with
  | none =>
      rw [Encoder11.write, write_size_eq_blob]
      exact ⟨_, appended_blob stream _, size_bytes_pos 0, Bool.false_ne_true.elim⟩
  | some v =>
      unfold Encoder11.write
      cases stream.encoder.current with
      | nil => exact instances v stream
      | cons data rest =>
          dsimp only
          split_ifs
          · cases data.indirectionMap.lookup v with
            | some index =>
                simp only [write_size_eq_blob]
                exact ⟨_, appended_blob stream _, size_bytes_pos index, False.elim⟩
            | none =>
                simp only [write_size_eq_blob]
                have listed := appended_modified (fun other => show SamePlaces other
                  { other with
                    indirectionTable := other.indirectionTable ++ [v]
                    indirectionMap := other.indirectionMap ++ [(v, data.indirectionTable.length + 1)] }
                  from ⟨rfl, rfl, rfl⟩) stream
                refine ⟨_, listed.trans (appended_blob _ _), ?_, False.elim⟩
                rw [Nat.zero_add]
                exact size_bytes_pos _
          · obtain ⟨count, appended, long, -⟩ := instances v stream
            exact ⟨count, appended, long, False.elim⟩

include instances in
theorem optional_member_writes (item : Tagged (Option ν)) :
    Writes samePlaces 1 false (writeOptionalMember writeInst item) := by
  intro stream
  have opened : ∃ count, Appended samePlaces count stream
      (writeOpt item.tag (optionalFormat item.type) stream) := by
    rw [writeOpt, write_opt_impl_eq_blob]
    have tagged : Appended samePlaces _ stream _ :=
      appended_blob stream (tagBytes item.tag (optionalFormat item.type))
    cases (stream.writeBlob (tagBytes item.tag (optionalFormat item.type))).encoder.current with
    | nil => exact ⟨_, tagged⟩
    | cons data rest => exact ⟨_, tagged.trans (appended_flag FLAG_HAS_OPTIONAL_MEMBERS rfl _)⟩
  obtain ⟨left, begun⟩ := opened
  obtain ⟨right, ended, long, -⟩ := write_optional_writes (ref_writes_11 instances) item.type item.value
    (writeOpt item.tag (optionalFormat item.type) stream)
  exact ⟨left + right, begun.trans ended, long.trans (Nat.le_add_left _ _), Bool.false_ne_true.elim⟩

include instances in
theorem appended_members (types : List WireType) (members : Members (Option ν) types) (stream : Stream ν) :
    ∃ count, Appended samePlaces count stream
      (writeMembers .v11 (Encoder11.write writeInst) types members stream) := by
  induction types generalizing stream with
  | nil => exact ⟨0, appended_nothing (samePlaces.refl _)⟩
  | cons type types ih =>
      obtain ⟨left, begun, -⟩ := write_writes (ref_writes_11 instances) type members.1 stream
      obtain ⟨right, ended⟩ := ih members.2 (write .v11 (Encoder11.write writeInst) type members.1 stream)
      exact ⟨left + right, begun.trans ended⟩

include instances in
theorem write_content_opened (types : List WireType) (members : Members (Option ν) types)
    (items : List (Tagged (Option ν))) (opened : Opened base format outer stream) :
    Opened base format outer (writeContent writeInst types members items stream) := by
  obtain ⟨left, required⟩ := appended_members instances types members stream
  obtain ⟨right, optional⟩ := appended_all (optional_member_writes instances) items
    (writeMembers .v11 (Encoder11.write writeInst) types members stream)
  exact opened.appended (required.trans optional)

include instances in
theorem write_slice_inside (inst : SliceInst (Option ν)) (last : Bool)
    (inside : Inside base format outer stream) :
    Inside base format outer (writeSlice writeInst inst last stream) := by
  apply end_slice_inside instances
  apply write_content_opened instances
  exact start_slice_opens inst.slice.typeId inst.slice.compactId last inside

include instances in
theorem write_slices_inside (insts : List (SliceInst (Option ν)))
    (inside : Inside base format outer stream) :
    Inside base format outer (writeSlices writeInst insts stream) := by
  induction insts generalizing stream with
  | nil => exact inside
  | cons inst rest ih => exact ih (write_slice_inside instances inst rest.isEmpty inside)

omit [DecidableEq ν] in
include instances in
theorem write_slice_info_inside (info : SliceInfo ν) (inside : Inside base format outer stream) :
    Inside base format outer (writeSliceInfo writeInst info stream) := by
  have opened := start_slice_opens info.typeId info.compactId info.isLastSlice inside
  have filled := opened.appended (appended_blob _ info.bytes)
  apply end_slice_inside instances
  have listed := fun other : Stream ν => appended_modified (fun data => show SamePlaces data
    { data with indirectionTable := info.objects } from ⟨rfl, rfl, rfl⟩) other
  split
  · exact (filled.appended (appended_flag FLAG_HAS_OPTIONAL_MEMBERS rfl _)).appended (listed _)
  · exact filled.appended (listed _)

omit [DecidableEq ν] in
include instances in
theorem write_sliced_data_inside (preserved : List (SliceInfo ν))
    (inside : Inside base format outer stream) :
    Inside base format outer (writeSlicedData writeInst preserved stream) := by
  unfold writeSlicedData
  split
  · clear * - instances inside
    induction preserved generalizing stream with
    | nil => exact inside
    | cons info rest ih => exact ih (write_slice_info_inside instances info inside)
  · exact inside

include instances in
theorem appended_object (obj : Obj ν (Option ν)) (stream : Stream ν) :
    ∃ count, Appended samePlaces count stream (writeObject writeInst obj stream) := by
  have started : Inside stream.b stream.encoder.format stream.encoder.current
      (startInstance writeInst .objectSlice obj.preserved stream) := by
    apply write_sliced_data_inside instances
    exact ⟨⟨[], (List.append_nil _).symm⟩, rfl, _, rfl⟩
  have written := write_slices_inside instances obj.slices started
  obtain ⟨bytes, content⟩ := written.bytes
  obtain ⟨data, current⟩ := written.current
  refine ⟨bytes.length, ⟨bytes, rfl, content⟩, written.format, ?_⟩
  rw [writeObject, endInstance, current]
  exact SameSlices.refl _

end Slices

theorem instance_writes [DecidableEq ν] (graph : Graph ν) (fuel : Nat) (v : ν) :
    Writes samePlaces 1 false (writeInstance graph fuel v) := by
  induction fuel generalizing v with
  | zero =>
      exact writes_blob (fun stream => write_size_eq_blob stream 0) (size_bytes_pos 0) Bool.false_ne_true.elim
  | succ fuel ih =>
      intro stream
      rw [writeInstance]
      cases stream.encoder.marshaledMap.lookup v with
      | some index =>
          simp only [write_size_eq_blob]
          exact ⟨_, appended_blob stream _, size_bytes_pos index, Bool.false_ne_true.elim⟩
      | none =>
          simp only [write_size_eq_blob]
          have numbered : Appended samePlaces 0 stream { stream with encoder :=
              { stream.encoder with
                objectIdIndex := stream.encoder.objectIdIndex + 1
                marshaledMap := stream.encoder.marshaledMap ++ [(v, stream.encoder.objectIdIndex + 1)] } } :=
            appended_nothing ⟨rfl, SameSlices.refl _⟩
          obtain ⟨count, appended⟩ := appended_object ih (graph v) _
          refine ⟨_, (numbered.trans (appended_blob _ (sizeBytes 1))).trans appended, ?_, Bool.false_ne_true.elim⟩
          have marked := size_bytes_pos 1
          omega

end Encoder11

/-- `after` is `before` with the encoding of a value of `type`: at least `minWireSize` bytes, and
exactly as many if the type is not of variable length. -/
def EncodedIn (type : SliceType) (before after : List Byte) : Prop :=
  ∃ bytes, after = before ++ bytes ∧ type.minWireSize ≤ bytes.length ∧
    (type.isVariableLength = false → bytes.length = type.minWireSize)

/-- The size that an optional of fixed length is written with is the number of bytes that
follow it. -/
def CountedIn (writeRef : ρ → BasicStream σ → BasicStream σ) (type : WireType) (value : Value ρ type)
    (stream : BasicStream σ) : Prop :=
  match optionalHelper type with
  | .fixedStruct | .fixedContainer _ =>
      ∃ bytes, (writeOptional writeRef type value stream).b =
        stream.b ++ sizeBytes bytes.length ++ bytes ∧
        (write .v11 writeRef type value (stream.writeSize bytes.length)).b =
          (stream.writeSize bytes.length).b ++ bytes
  | .plain | .variable => True

variable {writeRef : ρ → BasicStream σ → BasicStream σ}

theorem writes_encoded {frame : Frame σ} {encoding : Encoding}
    (refs : ∀ ref, Writes frame 1 false (writeRef ref)) (type : SliceType)
    (value : Value ρ type.wire) (stream : BasicStream σ) :
    EncodedIn type stream.b (write encoding writeRef type.wire value stream).b := by
  obtain ⟨count, appended, long, exactly⟩ :=
    @write_writes _ _ frame encoding writeRef refs type.wire value stream
  obtain ⟨bytes, length, written⟩ := appended.bytes
  rw [wire_min_wire_size] at long exactly
  rw [wire_is_variable_length] at exactly
  refine ⟨bytes, written, ?_, fun fixed => ?_⟩
  · rwa [length]
  · rw [length, exactly (by rw [fixed]; rfl)]

theorem writes_counted {frame : Frame σ} (refs : ∀ ref, Writes frame 1 false (writeRef ref))
    (type : WireType) (value : Value ρ type) (stream : BasicStream σ) :
    CountedIn writeRef type value stream := by
  have counted : ∀ size, Writes frame size true (write .v11 writeRef type value) →
      ∃ bytes, bytes.length = size ∧ (write .v11 writeRef type value (stream.writeSize size)).b =
        (stream.writeSize size).b ++ bytes := by
    intro size writes
    obtain ⟨count, appended, -, exactly⟩ := writes (stream.writeSize size)
    obtain ⟨bytes, length, written⟩ := appended.bytes
    exact ⟨bytes, length.trans (exactly rfl), written⟩
  have fixed := fixed_optional_writes refs type value
  unfold CountedIn writeOptional
  cases helper : optionalHelper type with
  | plain => trivial
  | «variable» => trivial
  | fixedStruct =>
      rw [helper] at fixed
      obtain ⟨bytes, length, written⟩ := counted _ fixed
      apply Exists.intro bytes
      rw [length]
      refine ⟨?_, written⟩
      rw [written, write_size_eq_blob]
      rfl
  | fixedContainer elementSize =>
      rw [helper] at fixed
      obtain ⟨bytes, length, written⟩ := counted _ fixed
      apply Exists.intro bytes
      rw [length]
      refine ⟨?_, written⟩
      dsimp only
      rw [written, write_size_eq_blob]
      rfl

/-- The sizes that the compilers compute are those of the encodings, in both encodings, for every
stream and whatever the class encoder has done before; the run time uses the same sizes. -/
theorem static_sizes_match [DecidableEq ν] (type : SliceType) (value : Value (Option ν) type.wire) :
    (∀ stream : Encoder10.Stream ν,
      EncodedIn type stream.b (write .v10 Encoder10.write type.wire value stream).b) ∧
    (∀ (graph : Classes.Graph ν) (fuel : Nat) (stream : Encoder11.Stream ν),
      EncodedIn type stream.b
        (write .v11 (Encoder11.write (Encoder11.writeInstance graph fuel)) type.wire value stream).b ∧
      CountedIn (Encoder11.write (Encoder11.writeInstance graph fuel)) type.wire value stream) ∧
    -- What the stream helpers are instantiated with, and what they are modelled with.
    type.traits = ⟨type.minWireSize, !type.isVariableLength⟩ ∧
    type.traits = ⟨type.wire.minWireSize, type.wire.fixedLength⟩ := by
  have traits := traits_agree type
  refine ⟨fun stream => writes_encoded ref_writes_10 type value stream, fun graph fuel stream => ?_,
    traits, ?_⟩
  · have refs := ref_writes_11 (instance_writes graph fuel)
    exact ⟨writes_encoded refs type value stream, writes_counted refs type.wire value stream⟩
  · rw [traits, WireType.fixedLength, wire_min_wire_size, wire_is_variable_length]

end IceTouch.Slice
