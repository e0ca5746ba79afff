import IceTouch.Dispatching.Incoming
import IceTouch.ValueTransfer

/-!
# The requests of a batch

`ConnectionI::invokeAll` over a stream with any number of requests. Each dispatch starts where
the one before left the stream, so the question is which of them leave it after their own
parameters.
-/

namespace IceTouch.Dispatching

open Bytes WireTypes StreamHelpers InStream Run
open Transfer ValueTransfer OutStream

variable {δ : Type}

namespace Facing

variable {stream : ReadStream δ} {bytes left right rest : List Byte}

theorem total (facing : Facing stream bytes rest) :
    stream.pos + bytes.length + rest.length = stream.buf.length := by
  have lengths := congrArg List.length facing.next
  have inside := facing.inside
  simp only [List.length_drop, List.length_append] at lengths
  omega

section

variable (facing : Facing stream (left ++ right) rest)

include facing

theorem first :
    Facing stream left (right ++ rest) where
  next := by rw [facing.next, List.append_assoc]
  inside := facing.inside
  bounded := facing.bounded

theorem later {after : ReadStream δ} (buf : after.buf = stream.buf)
    (pos : after.pos = stream.pos + left.length) :
    Facing after right rest where
  next := by
    have next := facing.next
    rw [List.append_assoc] at next
    rw [buf, pos, ← List.drop_drop, next, List.drop_left]
  inside := by
    have total := facing.total
    rw [List.length_append] at total
    rw [buf, pos]
    omega
  bounded := by
    rw [buf]
    exact facing.bounded

theorem second : Facing (stream.advance left.length) right rest :=
  facing.later rfl rfl

end

theorem runs {α : Type} {reader : Reader δ α} {value : α} (facing : Facing stream bytes rest)
    (taken : Takes bytes reader value) (unaware : Unaware reader) :
    reader stream = .ok value (stream.advance bytes.length) := by
  have total := facing.total
  have ahead : Ahead { stream with encapsEnd := stream.buf.length } bytes rest :=
    ⟨facing.next, by simp only; omega, by simp, facing.bounded⟩
  have ran := taken _ rest ahead
  have narrowed := unaware { stream with encapsEnd := stream.buf.length } stream.encapsEnd
  rw [ran] at narrowed
  exact narrowed

end Facing

/-- The facet path of the request passes the check against the sequences that were read
before. -/
def FacetFits (request : Request) (stream : ReadStream δ) : Prop :=
  match readAndCheckSeqSize 1 (stream.advance (identityBytes request).length) with
  | .ok _ _ => True
  | .error _ _ => False

theorem facet_size_lt (request : Request) : request.facet.toList.length < 2 ^ 31 := by
  cases request.facet <;> simp

variable {request : Request}

theorem identity_read {stream : ReadStream δ} {rest : List Byte}
    (facing : Facing stream (requestBytes request) rest) :
    readCurrent stream =
      (readAndCheckSeqSize 1 >>= fun size => readRest request.name request.category size)
        (stream.advance (identityBytes request).length) := by
  simp only [requestBytes, headerBytes, identityBytes, List.append_assoc] at facing
  have name := facing.first.runs (takes_string request.name) unaware_string
  have category := facing.second.first.runs (takes_string request.category) unaware_string
  unfold readCurrent
  rw [bind_of_ok name, bind_of_ok category, advance_advance, identityBytes, List.length_append]

def Keeps {α : Type} (reader : Reader δ α) : Prop :=
  ∀ stream, (finalState (reader stream)).buf = stream.buf

theorem Keeps.bind {α β : Type} {first : Reader δ α} {next : α → Reader δ β}
    (kept : Keeps first) (continued : ∀ value, Keeps (next value)) : Keeps (first >>= next) := by
  intro stream
  have before := kept stream
  cases ran : first stream with
  | error ex after =>
      rw [ran] at before
      rw [bind_of_error ran]
      exact before
  | ok value after =>
      rw [ran] at before
      rw [bind_of_ok ran, continued value after]
      exact before

variable {α : Type}

theorem Keeps.ite {condition : Prop} [Decidable condition] {first second : Reader δ α}
    (one : Keeps first) (two : Keeps second) : Keeps (if condition then first else second) := by
  split
  · exact one
  · exact two

theorem Keeps.pure (value : α) : Keeps (δ := δ) (pure value) := fun _ => rfl

theorem Keeps.throw (ex : IceException) : Keeps (δ := δ) (throwIce ex : Reader δ α) :=
  fun _ => rfl

theorem keeps_byte : Keeps (δ := δ) readByte := by
  intro stream
  unfold readByte
  cases stream.buf[stream.pos]? <;> rfl

theorem keeps_blob (count : Nat) : Keeps (δ := δ) (readBlob count) := by
  intro stream
  unfold readBlob
  split <;> rfl

theorem keeps_int : Keeps (δ := δ) readInt :=
  .bind (.bind (keeps_blob _) fun _ => .pure _) fun _ => .pure _

theorem keeps_version : Keeps (δ := δ) readVersion :=
  .bind keeps_byte fun _ => .bind keeps_byte fun _ => .pure _

theorem keeps_get {next : ReadStream δ → Reader δ α} (continued : ∀ stream, Keeps (next stream)) :
    Keeps (get >>= next) := by
  intro stream
  exact continued stream stream

theorem keeps_pass_encaps (tooSmall : IceException) : Keeps (δ := δ) (passEncaps tooSmall) :=
  keeps_get fun _ => .bind keeps_int fun _ => .ite (.throw _) (.ite (.throw _)
    (.bind keeps_version fun _ => fun _ => rfl))

theorem keeps_skip_empty_encaps : Keeps (δ := δ) skipEmptyEncaps :=
  .bind keeps_int fun _ => .ite (.throw _) (keeps_get fun _ => .ite (.throw _)
    (.bind keeps_version fun _ => .pure _))

theorem Operation.keeps (operation : Operation δ) : Keeps operation.run := by
  cases operation with
  | refused => exact .throw _
  | noParams => exact keeps_skip_empty_encaps
  | blob => exact keeps_pass_encaps _
  | params unmarshal => exact unmarshal.keeps

def Operation.Consumes (request : Request) (stream : ReadStream δ) : Operation δ → Prop
  | .refused => False
  | .noParams => request.params = []
  | .blob => True
  | .params unmarshal =>
      (finalState (withEncaps unmarshal.decoder unmarshal.skipRef unmarshal.run stream)).pos =
        stream.pos + (paramsBytes request).length

/-- The request has no servant, or the last of the operations it is dispatched to reads the
parameters to their end. -/
def Dispatch.Consumes (request : Request) (stream : ReadStream δ) : Dispatch δ → Prop
  | .locateThrows | .noServant => True
  | .servant attempts =>
      match attempts.getLast? with
      | none => False
      | some operation =>
          operation.Consumes request
            { attempts.dropLast.foldl (attempt stream.pos) stream with pos := stream.pos }

/-- The dispatches that the encoded requests call for. -/
def expected : List Request → Nat → List Seen
  | [], _ => []
  | request :: rest, start =>
      ⟨start, request.current, start + (headerBytes request).length⟩ ::
        expected rest (start + (requestBytes request).length)

/-- What the stream looks like when request number `next`, which starts here, is
dispatched. -/
def atParams (observed : Bool) (stream : ReadStream δ) : ReadStream δ :=
  finalState ((readCurrent >>= fun _ => readAhead observed) stream)

/-- Every dispatch but the last reads its parameters to their end, and the sequences it has
read in them leave room for the facet of the next request. -/
def Orderly (observed : Bool) (dispatches : Nat → Current → Dispatch δ) :
    List Request → Nat → ReadStream δ → Prop
  | [], _, _ => True
  | [_], _, _ => True
  | request :: following :: rest, next, stream =>
      let middle := atParams observed stream
      let dispatch := dispatches next request.current
      let after := finalState (dispatch.run middle)
      dispatch.Consumes request middle ∧ FacetFits following after ∧
        Orderly observed dispatches (following :: rest) (next + 1) after

/-- The stream of a batch message at its first request, behind the message header and the
number of requests. -/
structure Batch where
  before : List Byte
  requests : List Request
  bounded : (before ++ requests.flatMap requestBytes).length < 2 ^ 31

def Batch.stream (batch : Batch) (decoder : δ) : ReadStream δ :=
  (ReadStream.fresh (batch.before ++ batch.requests.flatMap requestBytes) decoder).advance
    batch.before.length

theorem Batch.facing (batch : Batch) (decoder : δ) :
    Facing (batch.stream decoder) (batch.requests.flatMap requestBytes) [] where
  next := by simp [Batch.stream, ReadStream.fresh, ReadStream.advance]
  inside := by simp [Batch.stream, ReadStream.fresh, ReadStream.advance]
  bounded := batch.bounded

theorem Batch.fits (batch : Batch) (decoder : δ) (isFirst : request ∈ batch.requests.head?) :
    FacetFits request (batch.stream decoder) := by
  obtain ⟨requests, isCons⟩ := List.head?_eq_some_iff.mp isFirst
  have parts := batch.facing decoder
  rw [isCons] at parts
  simp only [List.flatMap_cons, requestBytes, headerBytes, List.append_assoc] at parts
  have facing := parts.second
  have sized := facing.first.runs (takes_size _ (facet_size_lt request)) unaware_size
  have total := facing.total
  have path : request.facet.toList.length ≤ (facetBytes request).length :=
    flat_map_length (fun facet => by
      have positive := size_bytes_pos facet.length
      rw [stringBytes, List.length_append]
      omega) request.facet.toList
  simp only [List.length_append] at total
  have bounded := facing.bounded
  obtain ⟨middle, checked, _⟩ := @check_seq_size_ok δ _ 1 _ 0 _ sized (size_bytes_pos _)
    (.inl rfl) (by omega) bounded
  unfold FacetFits
  rw [checked]
  trivial

end IceTouch.Dispatching
