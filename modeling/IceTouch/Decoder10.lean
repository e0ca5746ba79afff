import IceTouch.Decoder11

/-!
# `EncapsDecoder10`

The class decoder of encoding 1.0. A class member is always the number of an instance; the
instances follow in `readPendingObjects`, each behind its number. A slice of an unknown type is
skipped by its size, and a slice for `::Ice::Object` ends an instance.

The fuel bounds the loops: every iteration has read at least one byte.
-/

namespace IceTouch.Decoder10

open Bytes WireTypes StreamHelpers InStream Classes
open Decoder Run
open Encoder11 (SliceType)
open Decoder11 (EncapsDecoder11 Decoder11M)

/-- What the decoder knows of the slice that is read. `nested` is the decoder of an encapsulation
of encoding 1.1 inside this one, while its optionals are skipped. -/
structure SliceData where
  sliceType : SliceType
  skipFirstSlice : Bool
  sliceSize : Int
  typeId : Str
  nested : EncapsDecoder11

abbrev EncapsDecoder10 := EncapsDecoder SliceData

abbrev Decoder10M (α : Type) := DecoderM SliceData α

def EncapsDecoder10.fresh : EncapsDecoder10 :=
  EncapsDecoder.fresh
    { sliceType := .noSlice
      skipFirstSlice := false
      sliceSize := 0
      typeId := []
      nested := EncapsDecoder11.fresh }

def sliceData : Decoder10M SliceData := do
  let stream ← get
  pure stream.decoder.own

def modifySliceData (change : SliceData → SliceData) : Decoder10M Unit :=
  modifyDecoder fun decoder => { decoder with own := change decoder.own }

/-- `read(patchFunc, patchAddr)`: references are encoded as a negative integer. -/
def read : Decoder10M Handle := do
  let handle ← newCell
  let index ← readInt
  record (.objectId index)
  if 0 < index then throwIce (.marshal "invalid object id")
  else if index = -2 ^ 31 then throwFault .negationOverflow
  else if index = 0 then do
    patchNil handle
    pure handle
  else do
    addPatchEntry (-index).toNat handle
    pure handle

/-- A step of the nested decoder. -/
def withNested (step : Decoder11M Unit) : Decoder10M Unit := fun stream =>
  match step { stream with decoder := stream.decoder.own.nested } with
  | .ok _ after =>
      .ok () { after with decoder :=
        { stream.decoder with own := { stream.decoder.own with nested := after.decoder } } }
  | .error ex after => .error ex { after with decoder := stream.decoder }

/-- Only an encapsulation of encoding 1.1 has optionals to skip. -/
def refs (receiver : Receiver) (fuel : Nat) : RefReader EncapsDecoder10 Handle where
  read := read
  skip := withNested (Decoder11.readRef (Decoder11.readInstance receiver fuel) none)
  fresh := EncapsDecoder10.fresh

def readSliceTypeId (data : SliceData) : Decoder10M Str :=
  if data.sliceType = .objectSlice then do
    let isIndex ← readBool
    readTypeId isIndex
  else
    readString

def startSlice : Decoder10M Unit := do
  let data ← sliceData
  if data.skipFirstSlice then
    modifySliceData fun data => { data with skipFirstSlice := false }
  else do
    let typeId ← readSliceTypeId data
    let size ← readInt
    if size < 4 then throwIce .unmarshalOutOfBounds
    else modifySliceData fun data => { data with typeId := typeId, sliceSize := size }

def skipSlice : Decoder10M Unit := do
  let data ← sliceData
  if data.sliceSize < 4 then throwFault .assertion
  else skip (data.sliceSize - 4)

def startInstance (sliceType : SliceType) : Decoder10M Unit := do
  let data ← sliceData
  if data.sliceType = sliceType then
    modifySliceData fun data => { data with skipFirstSlice := true }
  else
    throwFault .assertion

def readObjectSlice : Decoder10M Unit := do
  startSlice
  let size ← readSize
  if size ≠ 0 then throwIce (.marshal "invalid Object slice") else pure ()

def endInstance : Decoder10M Unit := do
  let data ← sliceData
  if data.sliceType = .objectSlice then readObjectSlice else pure ()
  modifySliceData fun data => { data with sliceType := .noSlice }

/-- One slice of the generated `__readImpl`. There are no optional members. -/
def readSlice (receiver : Receiver) (fuel : Nat) (slice : SliceDef) :
    Decoder10M (SliceInst Handle) := do
  startSlice
  let members ← readMembers .v10 (refs receiver fuel) slice.members
  let optionals ← readOptionals (receiver.knows (some slice.typeId)) (fun _ _ => pure none)
    slice.optionals
  pure ⟨slice, members, optionals⟩

def readSlices (receiver : Receiver) (fuel : Nat) :
    List SliceDef → Decoder10M (List (SliceInst Handle))
  | [] => pure []
  | slice :: rest => do
      let inst ← readSlice receiver fuel slice
      let insts ← readSlices receiver fuel rest
      pure (inst :: insts)

/-- `__read`. Nothing is preserved. -/
def readObject (receiver : Receiver) (fuel : Nat) (sliceType : SliceType) (classDef : ClassDef) :
    Decoder10M (Obj Handle Handle) := do
  startInstance sliceType
  let slices ← readSlices receiver fuel classDef.slices
  endInstance
  pure ⟨[], slices⟩

def findInstance (receiver : Receiver) (mostDerivedId : Str) : Nat → Decoder10M ClassDef
  | 0 => throw .fuel
  | fuel + 1 => do
      let data ← sliceData
      if data.typeId = iceObjectId then throwIce (.noObjectFactory "" mostDerivedId)
      else
        match receiver.newInstance data.typeId with
        | some classDef => pure classDef
        | none =>
            if receiver.sliceObjects = false then
              throwIce (.noObjectFactory "object slicing is disabled" data.typeId)
            else do
              skipSlice
              startSlice
              findInstance receiver mostDerivedId fuel

def readInstance (receiver : Receiver) (fuel : Nat) : Decoder10M Unit := do
  let index ← readInt
  if index ≤ 0 then throwIce (.marshal "invalid object id")
  else do
    modifySliceData fun data => { data with sliceType := .objectSlice, skipFirstSlice := false }
    startSlice
    let data ← sliceData
    let classDef ← findInstance receiver data.typeId fuel
    let _ ← unmarshal index.toNat (readObject receiver fuel .objectSlice classDef)
    pure ()

def readSequences (receiver : Receiver) : Nat → Decoder10M Unit
  | 0 => throw .fuel
  | fuel + 1 => do
      let num ← readSize
      let _ ← repeatRun num (readInstance receiver fuel)
      if num = 0 then pure () else readSequences receiver fuel

def readPendingObjects (receiver : Receiver) (fuel : Nat) : Decoder10M Unit := do
  readSequences receiver fuel
  checkPatchMap
  record .pendingObjects

/-- The loop of `throwException`. -/
def findException (receiver : Receiver) : Nat → Decoder10M ClassDef
  | 0 => throw .fuel
  | fuel + 1 => do
      let data ← sliceData
      match receiver.exceptionFactory data.typeId with
      | some classDef => pure classDef
      | none => do
          skipSlice
          startSlice
          findException receiver fuel

/-- `throwException`; the exception that is thrown is returned. -/
def throwException (receiver : Receiver) (fuel : Nat) : Decoder10M (Obj Handle Handle) := do
  let data ← sliceData
  if data.sliceType ≠ .noSlice then throwFault .assertion
  else do
    let usesClasses ← readBool
    modifySliceData fun data => { data with sliceType := .exceptionSlice, skipFirstSlice := false }
    startSlice
    let classDef ← findException receiver fuel
    let obj ← readObject receiver fuel .exceptionSlice classDef
    if usesClasses then readPendingObjects receiver fuel else pure ()
    pure obj

end IceTouch.Decoder10
