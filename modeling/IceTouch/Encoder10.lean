import IceTouch.StreamHelpers

/-!
# References in `EncapsEncoder10`

In encoding 1.0 a class member is always the number of an instance; the instances themselves
are written by `writePendingObjects`, after the parameters or members that refer to them.
-/

namespace IceTouch.Encoder10

open Bytes WireTypes OutStream StreamHelpers

variable {ν : Type} [DecidableEq ν]

structure EncapsEncoder10 (ν : Type) where
  objectIdIndex : Nat
  toBeMarshaledMap : List (ν × Nat)
  marshaledMap : List (ν × Nat)

abbrev Stream (ν : Type) := BasicStream (EncapsEncoder10 ν)

/-- `registerObject`. -/
def registerObject (v : ν) (encoder : EncapsEncoder10 ν) : Nat × EncapsEncoder10 ν :=
  match encoder.toBeMarshaledMap.lookup v with
  | some index => (index, encoder)
  | none =>
      match encoder.marshaledMap.lookup v with
      | some index => (index, encoder)
      | none =>
          let index := encoder.objectIdIndex + 1
          (index, { encoder with
            objectIdIndex := index
            toBeMarshaledMap := encoder.toBeMarshaledMap ++ [(v, index)] })

/-- `write(const ObjectPtr&)`: a reference is a negative integer. -/
def write (ref : Option ν) (stream : Stream ν) : Stream ν :=
  match ref with
  | some v =>
      let (index, encoder) := registerObject v stream.encoder
      BasicStream.writeInt (-(index : Int)) { stream with encoder := encoder }
  | none => stream.writeInt 0

end IceTouch.Encoder10
