import IceTouch.InStream
import IceTouch.Classes

/-!
# `EncapsDecoder`

What the decoders of both encodings share: the type ids read so far, the instances read so
far, and the patch map with the memory cells that wait for an instance.

The receiver's memory is part of the state. A reference is read into a cell, which is nil
until it is patched; an instance is allocated before its members are read and filled in
afterwards. Cells and instances are named by their position in the order of allocation. The
declared class of a reference is `Object`, so that patching never fails.
-/

namespace IceTouch.Decoder

open Bytes WireTypes StreamHelpers InStream Classes

abbrev Handle := Nat

abbrev ObjectId := Nat

/-- A class or an exception as the generated code of the receiver knows it: its slices, the
most derived one first, and whether it is declared with `preserve-slice`. -/
structure ClassDef where
  slices : List SliceDef
  preserve : Bool
deriving DecidableEq

/-- `Ice::UnknownSlicedObject`. -/
def unknownSlicedObject : ClassDef := ⟨[], true⟩

/-- What the decoder takes from the application that receives: object factories, exception
factories, the compact id resolver, the generated table of compact ids, and the optional
members that its version of a definition has. An owner of optionals is the type id of a
slice, or nothing for the parameters of an operation. -/
structure Receiver where
  newInstance : Str → Option ClassDef
  exceptionFactory : Str → Option ClassDef
  compactIdResolver : Nat → Except IceException Str
  factoryTypeId : Nat → Str
  sliceObjects : Bool
  knows : Option Str → Nat → Bool

/-- A call of `ice_postUnmarshal`: the instance, and what the decoder and the receiver's memory
held at that moment. -/
structure Posted where
  id : ObjectId
  patchMap : List (Nat × Handle)
  unmarshaledMap : List (Nat × ObjectId)
  handles : List (Option ObjectId)
  objects : List (Option (Obj Handle Handle))
  asked : List (Handle × Nat)

/-- `κ` is what the decoder of one encoding adds. `posted` and `asked` are history variables: the
calls of `ice_postUnmarshal`, and the number of the instance that was read into each cell, 0 for
nil. No function reads them. -/
structure EncapsDecoder (κ : Type) where
  patchMap : List (Nat × Handle)
  unmarshaledMap : List (Nat × ObjectId)
  objectList : List ObjectId
  typeIdMap : List Str
  handles : List (Option ObjectId)
  objects : List (Option (Obj Handle Handle))
  posted : List Posted
  asked : List (Handle × Nat)
  own : κ

variable {κ : Type}

def EncapsDecoder.fresh (own : κ) : EncapsDecoder κ where
  patchMap := []
  unmarshaledMap := []
  objectList := []
  typeIdMap := []
  handles := []
  objects := []
  posted := []
  asked := []
  own := own

abbrev DecoderM (κ α : Type) := Reader (EncapsDecoder κ) α

def modifyDecoder (change : EncapsDecoder κ → EncapsDecoder κ) : DecoderM κ Unit :=
  modify fun stream => { stream with decoder := change stream.decoder }

/-- `readTypeId`. -/
def readTypeId (isIndex : Bool) : DecoderM κ Str :=
  if isIndex then do
    let index ← readSize
    let stream ← get
    if index = 0 then throwIce .unmarshalOutOfBounds
    else
      match stream.decoder.typeIdMap[index - 1]? with
      | some typeId => pure typeId
      | none => throwIce .unmarshalOutOfBounds
  else do
    let typeId ← readString
    modifyDecoder fun decoder => { decoder with typeIdMap := decoder.typeIdMap ++ [typeId] }
    pure typeId

def newCell : DecoderM κ Handle := fun stream =>
  .ok stream.decoder.handles.length
    { stream with decoder :=
      { stream.decoder with handles := stream.decoder.handles ++ [none] } }

/-- `(*patchFunc)(patchAddr, v)`. -/
def EncapsDecoder.patch (handle : Handle) (id : ObjectId) (decoder : EncapsDecoder κ) :
    EncapsDecoder κ :=
  { decoder with handles := decoder.handles.set handle (some id) }

def EncapsDecoder.patchAll (id : ObjectId) : List Handle → EncapsDecoder κ → EncapsDecoder κ
  | [], decoder => decoder
  | handle :: rest, decoder => patchAll id rest (decoder.patch handle id)

def EncapsDecoder.ask (handle : Handle) (index : Nat) (decoder : EncapsDecoder κ) :
    EncapsDecoder κ :=
  { decoder with asked := decoder.asked ++ [(handle, index)] }

def EncapsDecoder.addEntry (index : Nat) (handle : Handle) (decoder : EncapsDecoder κ) :
    EncapsDecoder κ :=
  match decoder.unmarshaledMap.lookup index with
  | some id => (decoder.ask handle index).patch handle id
  | none =>
      { decoder.ask handle index with patchMap := decoder.patchMap ++ [(index, handle)] }

def addPatchEntry (index : Nat) (handle : Handle) : DecoderM κ Unit :=
  if index = 0 then throwFault .assertion
  else modifyDecoder (EncapsDecoder.addEntry index handle)

/-- `patchFunc(patchAddr, nil)`. A new cell is nil already. -/
def patchNil (handle : Handle) : DecoderM κ Unit :=
  modifyDecoder (EncapsDecoder.ask handle 0)

def EncapsDecoder.allocate (index : Nat) (decoder : EncapsDecoder κ) : EncapsDecoder κ :=
  { decoder with
    unmarshaledMap := decoder.unmarshaledMap ++ [(index, decoder.objects.length)]
    objects := decoder.objects ++ [none] }

def EncapsDecoder.complete (index : Nat) (id : ObjectId) (obj : Obj Handle Handle)
    (decoder : EncapsDecoder κ) : EncapsDecoder κ :=
  let entries := decoder.patchMap.filter fun entry => entry.1 = index
  let decoder := decoder.patchAll id (entries.map Prod.snd)
  { decoder with
    objects := decoder.objects.set id (some obj)
    patchMap := decoder.patchMap.filter fun entry => entry.1 ≠ index }

/-- `(*p)->ice_postUnmarshal()` for the instances in turn. -/
def EncapsDecoder.post (ids : List ObjectId) (decoder : EncapsDecoder κ) : EncapsDecoder κ :=
  { decoder with posted := decoder.posted ++ ids.map fun id =>
      { id := id
        patchMap := decoder.patchMap
        unmarshaledMap := decoder.unmarshaledMap
        handles := decoder.handles
        objects := decoder.objects
        asked := decoder.asked } }

/-- The end of `unmarshal`: the call is made now, or when the patch map is empty. -/
def EncapsDecoder.postUnmarshal (id : ObjectId) (decoder : EncapsDecoder κ) : EncapsDecoder κ :=
  if decoder.objectList = [] ∧ decoder.patchMap = [] then
    decoder.post [id]
  else
    let decoder := { decoder with objectList := decoder.objectList ++ [id] }
    if decoder.patchMap = [] then
      { decoder.post decoder.objectList with objectList := [] }
    else
      decoder

/-- `unmarshal`, where `readObject` is the instance's `__read`. -/
def unmarshal (index : Nat) (readObject : DecoderM κ (Obj Handle Handle)) : DecoderM κ ObjectId := do
  let stream ← get
  modifyDecoder (EncapsDecoder.allocate index)
  let obj ← readObject
  modifyDecoder (EncapsDecoder.complete index stream.decoder.objects.length obj)
  modifyDecoder (EncapsDecoder.postUnmarshal stream.decoder.objects.length)
  pure stream.decoder.objects.length

def checkPatchMap : DecoderM κ Unit := do
  let stream ← get
  if stream.decoder.patchMap = [] then pure ()
  else throwIce (.marshal "index for class received, but no instance")

end IceTouch.Decoder
