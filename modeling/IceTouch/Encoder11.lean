import IceTouch.Classes

/-!
# `EncapsEncoder11`

The class encoder of encoding 1.1. Instances are numbered from 2 in the order in which
they are first written, type ids from 1. In the compact format an instance is written in
place where it is first referred to. In the sliced format the members of a slice refer to
an indirection table that follows the slice, and the instances are written there.

The slice flags and the slice size are written after the slice they describe, over the bytes
that were reserved for them.
-/

namespace IceTouch.Encoder11

open Bytes WireTypes OutStream StreamHelpers Classes

/-- `Ice::FormatType`, once `DefaultFormat` has been replaced. -/
inductive FormatType where
  | compact
  | sliced
deriving DecidableEq, Repr

inductive SliceType where
  | noSlice
  | objectSlice
  | exceptionSlice
deriving DecidableEq, Repr

def OPTIONAL_END_MARKER : Byte := 0xFF

def FLAG_HAS_TYPE_ID_STRING : Byte := 1

def FLAG_HAS_TYPE_ID_INDEX : Byte := 2

def FLAG_HAS_TYPE_ID_COMPACT : Byte := 3

def FLAG_HAS_OPTIONAL_MEMBERS : Byte := 4

def FLAG_HAS_INDIRECTION_TABLE : Byte := 8

def FLAG_HAS_SLICE_SIZE : Byte := 16

def FLAG_IS_LAST_SLICE : Byte := 32

variable {ν : Type} [DecidableEq ν]

structure InstanceData (ν : Type) where
  sliceType : SliceType
  firstSlice : Bool
  sliceFlags : Byte
  writeSlice : Nat
  sliceFlagsPos : Nat
  indirectionMap : List (ν × Nat)
  indirectionTable : List ν

/-- `current` is the chain of `_current` and its predecessors. -/
structure EncapsEncoder11 (ν : Type) where
  format : FormatType
  objectIdIndex : Nat
  marshaledMap : List (ν × Nat)
  typeIdIndex : Nat
  typeIdMap : List (Str × Nat)
  current : List (InstanceData ν)

abbrev Stream (ν : Type) := BasicStream (EncapsEncoder11 ν)

/-- Change `*_current`; a slice is only ever written inside an instance. -/
def modifyCurrent (change : InstanceData ν → InstanceData ν) (stream : Stream ν) : Stream ν :=
  match stream.encoder.current with
  | [] => stream
  | data :: outer =>
      { stream with encoder := { stream.encoder with current := change data :: outer } }

/-- `registerTypeId`; -1 is `none`. -/
def registerTypeId (typeId : Str) (stream : Stream ν) : Option Nat × Stream ν :=
  match stream.encoder.typeIdMap.lookup typeId with
  | some index => (some index, stream)
  | none =>
      let index := stream.encoder.typeIdIndex + 1
      (none, { stream with encoder :=
        { stream.encoder with
          typeIdIndex := index
          typeIdMap := stream.encoder.typeIdMap ++ [(typeId, index)] } })

def addFlag (flag : Byte) (stream : Stream ν) : Stream ν :=
  modifyCurrent (fun data => { data with sliceFlags := data.sliceFlags ||| flag }) stream

def writeTypeId (typeId : Str) (compactId : Option Nat) (stream : Stream ν) : Stream ν :=
  match compactId with
  | some id => (addFlag FLAG_HAS_TYPE_ID_COMPACT stream).writeSize id
  | none =>
      match registerTypeId typeId stream with
      | (none, stream) => (addFlag FLAG_HAS_TYPE_ID_STRING stream).writeString typeId
      | (some index, stream) => (addFlag FLAG_HAS_TYPE_ID_INDEX stream).writeSize index

def reserveSliceFlags (last : Bool) (stream : Stream ν) : Stream ν :=
  let flags := (if stream.encoder.format = .sliced then FLAG_HAS_SLICE_SIZE else 0) |||
    (if last then FLAG_IS_LAST_SLICE else 0)
  (modifyCurrent (fun data => { data with sliceFlagsPos := stream.pos, sliceFlags := flags })
    stream).writeByte 0

/-- The type id of a slice: in the compact format only the first slice of an object has it;
the slices of an exception always have it, as a string. -/
def writeSliceTypeId (typeId : Str) (compactId : Option Nat) (stream : Stream ν) : Stream ν :=
  match stream.encoder.current with
  | [] => stream
  | data :: _ =>
      if data.sliceType = .objectSlice then
        if stream.encoder.format = .sliced ∨ data.firstSlice = true then
          writeTypeId typeId compactId stream
        else
          stream
      else
        stream.writeString typeId

def reserveSliceSize (stream : Stream ν) : Stream ν :=
  let stream := if stream.encoder.format = .sliced then stream.writeInt 0 else stream
  modifyCurrent (fun data => { data with writeSlice := stream.pos, firstSlice := false }) stream

def startSlice (typeId : Str) (compactId : Option Nat) (last : Bool) (stream : Stream ν) :
    Stream ν :=
  reserveSliceSize (writeSliceTypeId typeId compactId (reserveSliceFlags last stream))

def writeEndMarker (stream : Stream ν) : Stream ν :=
  match stream.encoder.current with
  | [] => stream
  | data :: _ =>
      if data.sliceFlags &&& FLAG_HAS_OPTIONAL_MEMBERS ≠ 0 then
        stream.writeByte OPTIONAL_END_MARKER
      else
        stream

def rewriteSliceSize (stream : Stream ν) : Stream ν :=
  match stream.encoder.current with
  | [] => stream
  | data :: _ =>
      if data.sliceFlags &&& FLAG_HAS_SLICE_SIZE ≠ 0 then
        stream.rewrite (stream.pos - data.writeSlice + 4 : Nat) (data.writeSlice - 4)
      else
        stream

def writeIndirectionTable (writeInstance : ν → Stream ν → Stream ν) (stream : Stream ν) : Stream ν :=
  match stream.encoder.current with
  | [] => stream
  | data :: _ =>
      if data.indirectionTable = [] then
        stream
      else
        let stream := addFlag FLAG_HAS_INDIRECTION_TABLE stream
        let stream := BasicStream.writeAll writeInstance data.indirectionTable
          (stream.writeSize data.indirectionTable.length)
        modifyCurrent (fun data => { data with indirectionTable := [], indirectionMap := [] }) stream

/-- `*dest = _current->sliceFlags`. -/
def rewriteSliceFlags (stream : Stream ν) : Stream ν :=
  match stream.encoder.current with
  | [] => stream
  | data :: _ => { stream with b := rewriteAt stream.b data.sliceFlagsPos [data.sliceFlags] }

def endSlice (writeInstance : ν → Stream ν → Stream ν) (stream : Stream ν) : Stream ν :=
  rewriteSliceFlags (writeIndirectionTable writeInstance (rewriteSliceSize (writeEndMarker stream)))

/-- `write(const ObjectPtr&)`. -/
def write (writeInstance : ν → Stream ν → Stream ν) (ref : Option ν) (stream : Stream ν) :
    Stream ν :=
  match ref, stream.encoder.current with
  | none, _ => stream.writeSize 0
  | some v, [] => writeInstance v stream
  | some v, data :: _ =>
      if stream.encoder.format = .sliced then
        match data.indirectionMap.lookup v with
        | some index => stream.writeSize index
        | none =>
            let index := data.indirectionTable.length + 1
            (modifyCurrent (fun data =>
              { data with
                indirectionTable := data.indirectionTable ++ [v]
                indirectionMap := data.indirectionMap ++ [(v, index)] }) stream).writeSize index
      else
        writeInstance v stream

/-- `writeOpt`, encoding 1.1. -/
def writeOpt (tag : Nat) (format : OptionalFormat) (stream : Stream ν) : Stream ν :=
  let stream := writeOptImpl tag format stream
  match stream.encoder.current with
  | [] => stream
  | _ :: _ => addFlag FLAG_HAS_OPTIONAL_MEMBERS stream

/-- `write(tag, optional)` for an optional that is set. -/
def writeOptionalMember (writeInstance : ν → Stream ν → Stream ν) (item : Tagged (Option ν))
    (stream : Stream ν) : Stream ν :=
  writeOptional (write writeInstance) item.type item.value
    (writeOpt item.tag (optionalFormat item.type) stream)

def writeContent (writeInstance : ν → Stream ν → Stream ν) (types : List WireType)
    (members : Members (Option ν) types) (items : List (Tagged (Option ν))) (stream : Stream ν) :
    Stream ν :=
  BasicStream.writeAll (writeOptionalMember writeInstance) items
    (writeMembers .v11 (write writeInstance) types members stream)

/-- The slices of `writeSlicedData`, which the compact format leaves out. -/
def writeSliceInfo (writeInstance : ν → Stream ν → Stream ν) (info : SliceInfo ν)
    (stream : Stream ν) : Stream ν :=
  let stream := (startSlice info.typeId info.compactId info.isLastSlice stream).writeBlob info.bytes
  let stream := if info.hasOptionalMembers then addFlag FLAG_HAS_OPTIONAL_MEMBERS stream else stream
  endSlice writeInstance
    (modifyCurrent (fun data => { data with indirectionTable := info.objects }) stream)

def writeSlicedData (writeInstance : ν → Stream ν → Stream ν) (preserved : List (SliceInfo ν))
    (stream : Stream ν) : Stream ν :=
  if stream.encoder.format = .sliced then
    BasicStream.writeAll (writeSliceInfo writeInstance) preserved stream
  else
    stream

def startInstance (writeInstance : ν → Stream ν → Stream ν) (sliceType : SliceType)
    (preserved : List (SliceInfo ν)) (stream : Stream ν) : Stream ν :=
  let data : InstanceData ν :=
    { sliceType := sliceType
      firstSlice := true
      sliceFlags := 0
      writeSlice := 0
      sliceFlagsPos := 0
      indirectionMap := []
      indirectionTable := [] }
  writeSlicedData writeInstance preserved
    { stream with encoder :=
      { stream.encoder with current := data :: stream.encoder.current } }

def endInstance (stream : Stream ν) : Stream ν :=
  { stream with encoder := { stream.encoder with current := stream.encoder.current.tail } }

/-- One slice of the generated `__writeImpl`. -/
def writeSlice (writeInstance : ν → Stream ν → Stream ν) (inst : SliceInst (Option ν)) (last : Bool)
    (stream : Stream ν) : Stream ν :=
  endSlice writeInstance (writeContent writeInstance inst.slice.members inst.members inst.items
    (startSlice inst.slice.typeId inst.slice.compactId last stream))

/-- `__writeImpl`: the slices from the most derived to the last. -/
def writeSlices (writeInstance : ν → Stream ν → Stream ν) :
    List (SliceInst (Option ν)) → Stream ν → Stream ν
  | [], stream => stream
  | inst :: rest, stream =>
      writeSlices writeInstance rest (writeSlice writeInstance inst rest.isEmpty stream)

/-- `__write`. An `UnknownSlicedObject` has no slices of its own. -/
def writeObject (writeInstance : ν → Stream ν → Stream ν) (obj : Obj ν (Option ν))
    (stream : Stream ν) : Stream ν :=
  endInstance (writeSlices writeInstance obj.slices
    (startInstance writeInstance .objectSlice obj.preserved stream))

/-- `writeInstance`. Each nested call has marked one more instance, so that the depth is at
most the number of instances; `fuel` is never exhausted when it is larger than that. -/
def writeInstance (graph : Graph ν) : Nat → ν → Stream ν → Stream ν
  | 0, _, stream => stream.writeSize 0
  | fuel + 1, v, stream =>
      match stream.encoder.marshaledMap.lookup v with
      | some index => stream.writeSize index
      | none =>
          let index := stream.encoder.objectIdIndex + 1
          let stream : Stream ν := { stream with encoder :=
            { stream.encoder with
              objectIdIndex := index
              marshaledMap := stream.encoder.marshaledMap ++ [(v, index)] } }
          writeObject (writeInstance graph fuel) (graph v) (stream.writeSize 1)

end IceTouch.Encoder11
