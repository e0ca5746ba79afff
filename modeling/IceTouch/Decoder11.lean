import IceTouch.Decoder
import IceTouch.Encoder11

/-!
# `EncapsDecoder11`

The class decoder of encoding 1.1. It numbers instances and type ids as the encoder does, in
the order in which they arrive. A slice of an unknown type is skipped by its size, except for
its indirection table, whose instances take part in the numbering.

`readInstance` is given to the functions it is mutually recursive with. Its fuel also bounds
the loops: every iteration and every nested call has read at least one byte.
-/

namespace IceTouch.Decoder11

open Bytes WireTypes StreamHelpers InStream Classes
open Decoder Run
open Encoder11 (SliceType FLAG_HAS_TYPE_ID_STRING FLAG_HAS_TYPE_ID_INDEX
  FLAG_HAS_TYPE_ID_COMPACT FLAG_HAS_OPTIONAL_MEMBERS FLAG_HAS_INDIRECTION_TABLE FLAG_HAS_SLICE_SIZE
  FLAG_IS_LAST_SLICE)

structure InstanceData where
  sliceType : SliceType
  skipFirstSlice : Bool
  slices : List (SliceInfo Handle)
  indirectionTables : List (List Nat)
  sliceFlags : Byte
  sliceSize : Int
  typeId : Str
  compactId : Option Nat
  indirectPatchList : List (Nat × Handle)

/-- `current` is the chain of `_current` and its predecessors. -/
structure Nesting where
  objectIdIndex : Nat
  current : List InstanceData

abbrev EncapsDecoder11 := EncapsDecoder Nesting

abbrev Decoder11M (α : Type) := DecoderM Nesting α

/-- Reads an instance, or a reference to one, of the given index into the given cell. -/
abbrev InstanceReader := Nat → Option Handle → Decoder11M Nat

def EncapsDecoder11.fresh : EncapsDecoder11 := EncapsDecoder.fresh ⟨1, []⟩

/-- `*_current`. -/
def current : Decoder11M InstanceData := fun stream =>
  match stream.decoder.own.current with
  | [] => .error (.fault .nullPointer) stream
  | data :: _ => .ok data stream

def modifyNesting (change : Nesting → Nesting) : Decoder11M Unit :=
  modifyDecoder fun decoder => { decoder with own := change decoder.own }

def modifyCurrent (change : InstanceData → InstanceData) : Decoder11M Unit :=
  modifyNesting fun own =>
    { own with current := match own.current with
      | [] => []
      | data :: outer => change data :: outer }

def hasFlag (flags flag : Byte) : Bool := flags &&& flag != 0

def push (sliceType : SliceType) : Decoder11M Unit :=
  modifyNesting fun own =>
    { own with current :=
      { sliceType := sliceType
        skipFirstSlice := false
        slices := []
        indirectionTables := []
        sliceFlags := 0
        sliceSize := 0
        typeId := []
        compactId := none
        indirectPatchList := [] } :: own.current }

def patchCellNil (cell : Option Handle) : Decoder11M Unit :=
  match cell with
  | none => pure ()
  | some handle => patchNil handle

/-- `read(patchFunc, patchAddr)`. -/
def readRef (readInstance : InstanceReader) (cell : Option Handle) : Decoder11M Unit := do
  let index ← readSize
  if index = 0 then patchCellNil cell
  else do
    let stream ← get
    if stream.decoder.own.current.head?.any fun data =>
        hasFlag data.sliceFlags FLAG_HAS_INDIRECTION_TABLE then
      modifyCurrent fun data =>
        { data with indirectPatchList :=
          data.indirectPatchList ++ (cell.map fun handle => (index - 1, handle)).toList }
    else do
      let _ ← readInstance index cell
      pure ()

def read (readInstance : InstanceReader) : Decoder11M Handle := do
  let handle ← newCell
  readRef readInstance (some handle)
  pure handle

def refs (readInstance : InstanceReader) : RefReader EncapsDecoder11 Handle where
  read := read readInstance
  skip := readRef readInstance none
  fresh := EncapsDecoder11.fresh

/-- `readOpt` and, when it finds the member, the member. -/
def readOpt (readInstance : InstanceReader) (fuel tag : Nat) (type : WireType) :
    Decoder11M (Option (Value Handle type)) := do
  let stream ← get
  match stream.decoder.own.current with
  | [] => readTagged (refs readInstance) fuel tag type
  | data :: _ =>
      if hasFlag data.sliceFlags FLAG_HAS_OPTIONAL_MEMBERS then
        readTagged (refs readInstance) fuel tag type
      else
        pure none

def readSliceTypeId (data : InstanceData) (flags : Byte) : Decoder11M (Str × Option Nat) :=
  if data.sliceType = .objectSlice then
    if flags &&& FLAG_HAS_TYPE_ID_COMPACT = FLAG_HAS_TYPE_ID_COMPACT then do
      let compactId ← readSize
      pure ([], some compactId)
    else if hasFlag flags (FLAG_HAS_TYPE_ID_STRING ||| FLAG_HAS_TYPE_ID_INDEX) then do
      let typeId ← readTypeId (hasFlag flags FLAG_HAS_TYPE_ID_INDEX)
      pure (typeId, none)
    else
      pure ([], none)
  else do
    let typeId ← readString
    pure (typeId, data.compactId)

def readSliceSize (flags : Byte) : Decoder11M Int :=
  if hasFlag flags FLAG_HAS_SLICE_SIZE then do
    let size ← readInt
    if size < 4 then throwIce .unmarshalOutOfBounds else pure size
  else
    pure 0

def startSlice : Decoder11M Unit := do
  let data ← current
  if data.skipFirstSlice then
    modifyCurrent fun data => { data with skipFirstSlice := false }
  else do
    let flags ← readByte
    let ids ← readSliceTypeId data flags
    let size ← readSliceSize flags
    modifyCurrent fun data =>
      { data with
        sliceFlags := flags
        typeId := ids.1
        compactId := ids.2
        sliceSize := size }

/-- An entry of an indirection table: `readInstance(readSize(), 0, 0)`. -/
def readTableEntry (readInstance : InstanceReader) : Decoder11M Nat := do
  let index ← readSize
  record (.tableEntry index)
  readInstance index none

def readIndirectionTable (readInstance : InstanceReader) : Decoder11M (List Nat) := do
  let count ← readAndCheckSeqSize 1
  repeatRun count (readTableEntry readInstance)

def resolveIndirect (table : List Nat) : List (Nat × Handle) → Decoder11M Unit
  | [] => pure ()
  | (index, handle) :: rest =>
      match table[index]? with
      | none => throwIce (.marshal "indirection out of range")
      | some target => do
          addPatchEntry target handle
          resolveIndirect table rest

def endIndirection (readInstance : InstanceReader) : Decoder11M Unit := do
  let table ← readIndirectionTable readInstance
  let data ← current
  if table = [] then throwIce (.marshal "empty indirection table")
  else if data.indirectPatchList = [] ∧ hasFlag data.sliceFlags FLAG_HAS_OPTIONAL_MEMBERS = false then
    throwIce (.marshal "no references to indirection table")
  else do
    resolveIndirect table data.indirectPatchList
    modifyCurrent fun data => { data with indirectPatchList := [] }

def endOptionals (readInstance : InstanceReader) (fuel : Nat) : Decoder11M Unit := do
  let data ← current
  if hasFlag data.sliceFlags FLAG_HAS_OPTIONAL_MEMBERS then
    skipOpts (readRef readInstance none) fuel
  else
    pure ()

def endSlice (readInstance : InstanceReader) (fuel : Nat) : Decoder11M Unit := do
  endOptionals readInstance fuel
  let data ← current
  if hasFlag data.sliceFlags FLAG_HAS_INDIRECTION_TABLE then
    endIndirection readInstance
  else
    pure ()

/-- The name of an exception, without the leading `::`. -/
def exceptionName (typeId : Str) : Str :=
  if 2 < typeId.length ∧ typeId.take 2 = [58, 58] then typeId.drop 2 else typeId

/-- `vector<Byte>(start, _stream->i - 1)`, or up to `_stream->i` without optional members. -/
def preservedBytes (start : Nat) (hasOptionalMembers : Bool) : Decoder11M (List Byte) := do
  let stream ← get
  let finish := if hasOptionalMembers then stream.pos - 1 else stream.pos
  if hasOptionalMembers = true ∧ stream.pos = start then throwFault .invertedRange
  else pure ((stream.buf.drop start).take (finish - start))

def skipContent (data : InstanceData) : Decoder11M Unit :=
  if hasFlag data.sliceFlags FLAG_HAS_SLICE_SIZE then
    if data.sliceSize < 4 then throwFault .assertion
    else do
      record (.skippedSlice (hasFlag data.sliceFlags FLAG_HAS_OPTIONAL_MEMBERS) data.sliceSize)
      skip (data.sliceSize - 4)
  else if data.sliceType = .objectSlice then
    throwIce (.noObjectFactory ("compact format prevents slicing (the sender should use the " ++
      "sliced format instead)") data.typeId)
  else
    throwIce (.unknownUserException (exceptionName data.typeId))

def skippedTable (readInstance : InstanceReader) (data : InstanceData) : Decoder11M (List Nat) :=
  if hasFlag data.sliceFlags FLAG_HAS_INDIRECTION_TABLE then
    readIndirectionTable readInstance
  else
    pure []

def skipSlice (readInstance : InstanceReader) : Decoder11M Unit := do
  let data ← current
  let start ← get
  skipContent data
  let bytes ← preservedBytes start.pos (hasFlag data.sliceFlags FLAG_HAS_OPTIONAL_MEMBERS)
  let table ← skippedTable readInstance data
  let info : SliceInfo Handle :=
    { typeId := data.typeId
      compactId := data.compactId
      bytes := bytes
      hasOptionalMembers := hasFlag data.sliceFlags FLAG_HAS_OPTIONAL_MEMBERS
      isLastSlice := hasFlag data.sliceFlags FLAG_IS_LAST_SLICE
      objects := [] }
  modifyCurrent fun data =>
    { data with
      indirectionTables := data.indirectionTables ++ [table]
      slices := data.slices ++ [info] }

def startInstance (sliceType : SliceType) : Decoder11M Unit := do
  let data ← current
  if data.sliceType = sliceType then
    modifyCurrent fun data => { data with skipFirstSlice := true }
  else
    throwFault .assertion

def readSliceObjects : List Nat → Decoder11M (List Handle)
  | [] => pure []
  | index :: rest => do
      let handle ← newCell
      addPatchEntry index handle
      let handles ← readSliceObjects rest
      pure (handle :: handles)

def readSliceInfos : List (SliceInfo Handle × List Nat) → Decoder11M (List (SliceInfo Handle))
  | [] => pure []
  | (info, table) :: rest => do
      let objects ← readSliceObjects table
      let infos ← readSliceInfos rest
      pure ({ info with objects := objects } :: infos)

def readSlicedData : Decoder11M (List (SliceInfo Handle)) := do
  let data ← current
  if data.slices.length ≠ data.indirectionTables.length then throwFault .assertion
  else readSliceInfos (data.slices.zip data.indirectionTables)

def preservedSlices (preserve : Bool) : Decoder11M (List (SliceInfo Handle)) :=
  if preserve then readSlicedData else pure []

def endInstance (preserve : Bool) : Decoder11M (List (SliceInfo Handle)) := do
  let slicedData ← preservedSlices preserve
  modifyNesting fun own => { own with current := own.current.tail }
  pure slicedData

/-- One slice of the generated `__readImpl`. -/
def readSlice (receiver : Receiver) (readInstance : InstanceReader) (fuel : Nat) (slice : SliceDef) :
    Decoder11M (SliceInst Handle) := do
  startSlice
  let body ← readBody (refs readInstance) (readOpt readInstance fuel)
    (receiver.knows (some slice.typeId)) slice.members slice.optionals
  endSlice readInstance fuel
  pure ⟨slice, body.1, body.2⟩

def readSlices (receiver : Receiver) (readInstance : InstanceReader) (fuel : Nat) :
    List SliceDef → Decoder11M (List (SliceInst Handle))
  | [] => pure []
  | slice :: rest => do
      let inst ← readSlice receiver readInstance fuel slice
      let insts ← readSlices receiver readInstance fuel rest
      pure (inst :: insts)

/-- `__read`. -/
def readObject (receiver : Receiver) (readInstance : InstanceReader) (fuel : Nat)
    (sliceType : SliceType) (classDef : ClassDef) : Decoder11M (Obj Handle Handle) := do
  startInstance sliceType
  let slices ← readSlices receiver readInstance fuel classDef.slices
  let preserved ← endInstance classDef.preserve
  pure ⟨preserved, slices⟩

/-- The type id for a compact id: the resolver is asked first, then the generated table. -/
def resolveCompactId (receiver : Receiver) (compactId : Nat) : Except IceException Str := do
  let typeId ← receiver.compactIdResolver compactId
  if typeId = [] then pure (receiver.factoryTypeId compactId) else pure typeId

def resolveTypeId (receiver : Receiver) : Decoder11M Unit := do
  let data ← current
  match data.compactId with
  | none => pure ()
  | some compactId =>
      match resolveCompactId receiver compactId with
      | .error exception => throwIce exception
      | .ok typeId => modifyCurrent fun data => { data with typeId := typeId }

/-- `newInstance` is only asked for a type id that is not empty. -/
def Receiver.find (receiver : Receiver) (typeId : Str) : Option ClassDef :=
  if typeId = [] then none else receiver.newInstance typeId

def findInstance (receiver : Receiver) (readInstance : InstanceReader) : Nat → Decoder11M ClassDef
  | 0 => throw .fuel
  | fuel + 1 => do
      resolveTypeId receiver
      let data ← current
      match Receiver.find receiver data.typeId with
      | some classDef => pure classDef
      | none =>
          if receiver.sliceObjects = false then
            throwIce (.noObjectFactory "object slicing is disabled" data.typeId)
          else do
            skipSlice readInstance
            if hasFlag data.sliceFlags FLAG_IS_LAST_SLICE then
              pure ((receiver.newInstance iceObjectId).getD unknownSlicedObject)
            else do
              startSlice
              findInstance receiver readInstance fuel

/-- `++_objectIdIndex`. -/
def nextObjectId : Decoder11M Nat := fun stream =>
  let index := stream.decoder.own.objectIdIndex + 1
  .ok index { stream with decoder :=
    { stream.decoder with own := { stream.decoder.own with objectIdIndex := index } } }

/-- A reference by number. It is enclosed when the instance that is read at top level, at the
end of which the patch map is checked, has not been left. -/
def noteReference (index : Nat) : Decoder11M Unit := do
  let stream ← get
  record (.instanceId index stream.decoder.own.objectIdIndex
    (stream.decoder.own.current.getLast?.any fun data => data.sliceType = .objectSlice))

def patchCell (cell : Option Handle) (index : Nat) (id : ObjectId) : Decoder11M Unit :=
  match cell with
  | none => pure ()
  | some handle => modifyDecoder fun decoder => (decoder.ask handle index).patch handle id

def addCellEntry (index : Nat) (cell : Option Handle) : Decoder11M Unit :=
  match cell with
  | none => pure ()
  | some handle => addPatchEntry index handle

def checkOutermost : Decoder11M Unit := do
  let stream ← get
  if stream.decoder.own.current.isEmpty then checkPatchMap else pure ()

def readInstance (receiver : Receiver) : Nat → InstanceReader
  | 0, _, _ => throw .fuel
  | fuel + 1, index, cell =>
      if index = 0 then throwFault .assertion
      else if 1 < index then do
        noteReference index
        addCellEntry index cell
        pure index
      else do
        push .objectSlice
        let number ← nextObjectId
        startSlice
        let classDef ← findInstance receiver (readInstance receiver fuel) fuel
        let id ← unmarshal number
          (readObject receiver (readInstance receiver fuel) fuel .objectSlice classDef)
        checkOutermost
        patchCell cell number id
        pure number

/-- The loop of `throwException`; `mostDerivedId` is for the error. -/
def findException (receiver : Receiver) (readInstance : InstanceReader) (mostDerivedId : Str) :
    Nat → Decoder11M ClassDef
  | 0 => throw .fuel
  | fuel + 1 => do
      let data ← current
      match receiver.exceptionFactory data.typeId with
      | some classDef => pure classDef
      | none => do
          skipSlice readInstance
          if hasFlag data.sliceFlags FLAG_IS_LAST_SLICE then
            throwIce (.unknownUserException (exceptionName mostDerivedId))
          else do
            startSlice
            findException receiver readInstance mostDerivedId fuel

/-- `throwException`; the exception that is thrown is returned. -/
def throwException (receiver : Receiver) (fuel : Nat) : Decoder11M (Obj Handle Handle) := do
  let stream ← get
  if stream.decoder.own.current.isEmpty = false then throwFault .assertion
  else do
    push .exceptionSlice
    startSlice
    let data ← current
    let classDef ← findException receiver (readInstance receiver fuel) data.typeId fuel
    readObject receiver (readInstance receiver fuel) fuel .exceptionSlice classDef

end IceTouch.Decoder11
