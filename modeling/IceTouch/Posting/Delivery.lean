import IceTouch.Posting.Pending10
import IceTouch.Posting.Nested11

/-!
# `ice_postUnmarshal` is delivered once and never early

What generated code asks of a stream while a decoder reads an encapsulation, and what has become
of the instances when all of it has been read.
-/

namespace IceTouch.Posting

open Bytes WireTypes InStream Classes Decoder
open Decoder10 (EncapsDecoder10 Decoder10M)
open Decoder11 (EncapsDecoder11 Decoder11M)

/-- A parameter or a member of a user exception, an exception, the pending objects, and the
optionals that are skipped at the end of an encapsulation. -/
inductive Request where
  | value (type : WireType)
  | optional (tag : Nat) (type : WireType)
  | exception
  | pendingObjects
  | remainder
deriving DecidableEq

variable {κ α : Type}

def discard (reader : DecoderM κ α) : DecoderM κ Unit := do
  let _ ← reader
  pure ()

/-- `readOpt` finds nothing in encoding 1.0, and an encapsulation ends without optionals. -/
def answer10 (receiver : Receiver) (fuel : Nat) : Request → Decoder10M Unit
  | .value type => discard (read .v10 (Decoder10.refs receiver fuel) type)
  | .exception => discard (Decoder10.throwException receiver fuel)
  | .pendingObjects => Decoder10.readPendingObjects receiver fuel
  | .optional _ _ | .remainder => pure ()

def answer11 (receiver : Receiver) (fuel : Nat) : Request → Decoder11M Unit
  | .value type =>
      discard (read .v11 (Decoder11.refs (Decoder11.readInstance receiver fuel)) type)
  | .optional tag type =>
      discard (Decoder11.readOpt (Decoder11.readInstance receiver fuel) fuel tag type)
  | .exception => discard (Decoder11.throwException receiver fuel)
  | .pendingObjects => pure ()
  | .remainder => skipOpts (Decoder11.readRef (Decoder11.readInstance receiver fuel) none) fuel

def answerAll (answer : Request → DecoderM κ Unit) : List Request → DecoderM κ Unit
  | [] => pure ()
  | request :: rest => do
      answer request
      answerAll answer rest

section Requests

variable {growth : Growth (EncapsDecoder κ)} {receiver : Receiver} {fuel : Nat}

theorem moves_discard {reader : DecoderM κ α} {names : α → List Nat}
    (issues : ∀ known, Issues growth known reader names) : Moves growth (discard reader) :=
  fun known => .bind (issues known) fun _ => .nothing

theorem moves_all {answer : Request → DecoderM κ Unit}
    (each : ∀ request, Moves growth (answer request)) (requests : List Request) :
    Moves growth (answerAll answer requests) := by
  induction requests with
  | nil => exact fun _ => .nothing
  | cons request rest ih => exact fun _ => .bind (each request _) fun _ => ih _

theorem moves_answer10 (request : Request) : Moves Pending10.between (answer10 receiver fuel request) := by
  cases request with
  | value type =>
      exact Pending10.Issues.between (moves_discard (issues_read Pending10.issues_read type) [])
  | exception => exact moves_discard Pending10.moves_exception
  | pendingObjects => exact Pending10.moves_pending_objects
  | optional | remainder => exact fun _ => .nothing

theorem moves_answer11 (request : Request) : Moves Nested11.content (answer11 receiver fuel request) := by
  have reading := Nested11.reading_instance receiver fuel
  cases request with
  | value type => exact moves_discard (issues_read (Nested11.issues_ref reading) type)
  | optional tag type => exact moves_discard (Nested11.issues_opt reading tag type)
  | exception => exact moves_discard (Nested11.moves_exception receiver fuel)
  | pendingObjects => exact fun _ => .nothing
  | remainder => exact moves_skip_opts (Nested11.moves_skip_ref reading) fuel

end Requests

/-- Whatever is read from whatever buffer: once all references are resolved, `ice_postUnmarshal`
has been called exactly once on every instance, and never before its members were set. -/
theorem posted_once_and_never_early (receiver : Receiver) (fuel : Nat) (requests : List Request) :
    (∀ before after : ReadStream EncapsDecoder10, before.decoder = Decoder10.EncapsDecoder10.fresh →
      answerAll (answer10 receiver fuel) requests before = .ok () after →
      after.decoder.patchMap = [] → Delivered after.decoder) ∧
    (∀ before after : ReadStream EncapsDecoder11, before.decoder = Decoder11.EncapsDecoder11.fresh →
      answerAll (answer11 receiver fuel) requests before = .ok () after →
      after.decoder.patchMap = [] → Delivered after.decoder) := by
  constructor
  · intro before after fresh ran resolved
    have moved := (moves_all moves_answer10 requests [] _ _ _ ran).1
    rw [fresh] at moved
    exact (moved [] (Tracked.initial _)).delivered resolved
  · intro before after fresh ran resolved
    have moved := (moves_all moves_answer11 requests [] _ _ _ ran).1.1
    rw [fresh] at moved
    have fine : Nested11.ledger.Fine Decoder11.EncapsDecoder11.fresh := fun _ _ => rfl
    exact (moved.tracked fine [] [] (Tracked.initial _)).delivered resolved

def posts {κ : Type} (ids : List ObjectId) :
    EStateM.Result Failure (ReadStream (EncapsDecoder κ)) Unit → Bool
  | .ok _ after => after.decoder.patchMap.isEmpty && after.decoder.posted.map Posted.id == ids
  | .error _ _ => false

theorem resolved_of_posts {ids : List ObjectId}
    {result : EStateM.Result Failure (ReadStream (EncapsDecoder κ)) Unit}
    (check : posts ids result = true) : ∃ after, result = .ok () after ∧ after.decoder.patchMap = [] := by
  cases result with
  | ok value after =>
      rw [posts, Bool.and_eq_true] at check
      exact ⟨after, rfl, List.isEmpty_iff.mp check.1⟩
  | error => cases check

/-- A class `::A` with a member of its own type. -/
def linkSlice : SliceDef where
  typeId := [58, 58, 65]
  compactId := none
  members := [.cls]
  optionals := []
  named := by decide
  derived := by decide
  compactBounded := by simp
  tagBounded := by simp
  ascending := List.Pairwise.nil

def linkReceiver : Receiver where
  newInstance := fun typeId => if typeId = linkSlice.typeId then some ⟨[linkSlice], false⟩ else none
  exceptionFactory := fun _ => none
  compactIdResolver := fun _ => .ok []
  factoryTypeId := fun _ => []
  sliceObjects := true
  knows := fun _ _ => false

def cycle10 : List Byte :=
  [0xFF, 0xFF, 0xFF, 0xFF, 2] ++
  [1, 0, 0, 0, 0, 3, 58, 58, 65, 8, 0, 0, 0, 0xFE, 0xFF, 0xFF, 0xFF] ++
  [0, 13] ++ iceObjectId ++ [5, 0, 0, 0, 0] ++
  [2, 0, 0, 0, 1, 1, 8, 0, 0, 0, 0xFF, 0xFF, 0xFF, 0xFF, 1, 2, 5, 0, 0, 0, 0] ++ [0]

def cycle11 : List Byte := [1, 0x21, 3, 58, 58, 65, 1, 0x22, 1, 2]

def cycleRun10 : EStateM.Result Failure (ReadStream EncapsDecoder10) Unit :=
  answerAll (answer10 linkReceiver 9) [.value .cls, .pendingObjects]
    (ReadStream.fresh cycle10 Decoder10.EncapsDecoder10.fresh)

def cycleRun11 : EStateM.Result Failure (ReadStream EncapsDecoder11) Unit :=
  answerAll (answer11 linkReceiver 9) [.value .cls]
    (ReadStream.fresh cycle11 Decoder11.EncapsDecoder11.fresh)

/-- In encoding 1.0 the first instance waits for the second one; in encoding 1.1 the inner one is
complete first. -/
theorem cycles_posted :
    (∃ after, cycleRun10 = .ok () after ∧ Delivered after.decoder) ∧
      ∃ after, cycleRun11 = .ok () after ∧ Delivered after.decoder := by
  have first : posts [0, 1] cycleRun10 = true := by decide +kernel
  have second : posts [1, 0] cycleRun11 = true := by decide +kernel
  obtain ⟨after, ran, resolved⟩ := resolved_of_posts first
  obtain ⟨after', ran', resolved'⟩ := resolved_of_posts second
  have both10 := (posted_once_and_never_early linkReceiver 9 [.value .cls, .pendingObjects]).1
  have both11 := (posted_once_and_never_early linkReceiver 9 [.value .cls]).2
  exact ⟨⟨after, ran, both10 _ after rfl ran resolved⟩, after', ran', both11 _ after' rfl ran' resolved'⟩

end IceTouch.Posting
