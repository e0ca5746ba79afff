import IceTouch.Connection.Traffic
import IceTouch.Dispatching.InvokeAll
import IceTouch.Dispatching.Replies

/-!
# What the callers are told

`told` says what the outcome of a dispatch should be to the caller. The reply carries it to
both kinds of callers, except for an exception that has no reply status of its own and for a
user exception in an encoding that cannot be written. A body that cannot be read is another
matter: the caller of a synchronous invocation gets the exception of the connection.
-/

namespace IceTouch.Replies

open Bytes WireTypes OutStream StreamHelpers InStream
open Dispatching (Facing Unaware unaware_byte unaware_size unaware_string unaware_repeat
  readFacetPath)
open Transfer ValueTransfer Run
open Encapsulations (isSupported)
open Identities (Identity)
open Connection (ConnectionI Setup headerSize replyHdr)

variable {σ δ α : Type} {setup : Setup} {incoming : IncomingBase} {stream : ReadStream δ}

/-- What the caller should get for an exception: an identity, a facet or an operation that was
left empty is that of the request. -/
def Thrown.told (incoming : IncomingBase) : Thrown → LocalException
  | .requestFailed kind id facet operation =>
      .requestFailed kind (if id.name = [] then incoming.id else id)
        (if facet = [] then incoming.current.facet else facet)
        (if operation = [] then incoming.current.operation else operation)
  | .unknown kind reason => .unknown kind reason
  | .localException text stackTrace =>
      .unknown .unknownLocalException (incoming.print text stackTrace)
  | .userException text stackTrace _ =>
      .unknown .unknownUserException (incoming.print text stackTrace)
  | .exception text stackTrace => .unknown .unknownException (incoming.print text stackTrace)
  | .stdException what => .unknown .unknownException (text "std::exception: " ++ what)
  | .any => .unknown .unknownException (text "unknown c++ exception")

def Outcome.told (incoming : IncomingBase) : Outcome → Delivered
  | .returned true encaps => .ok encaps
  | .returned false encaps => .userException encaps
  | .finished (.userException _ _ members) =>
      .userException (encapsBytes incoming.encoding members)
  | .handled exc | .finished exc => .exception (exc.told incoming)

def Thrown.carried : Thrown → Bool
  | .requestFailed kind _ _ _ => kind ≠ .other
  | _ => true

def Outcome.carried (incoming : IncomingBase) : Outcome → Bool
  | .returned _ _ => true
  | .finished (.userException _ _ _) => isSupported incoming.encoding
  | .handled exc | .finished exc => exc.carried

/-- The request is answered, and whatever the header has become on the way, both kinds of
callers get what they should. -/
def Told (setup : Setup) (incoming : IncomingBase) (requestId : Int) (outcome : Outcome)
    (os : BasicStream σ) : Prop :=
  ∃ reply, answer incoming requestId outcome os = .sendResponse reply ∧
    ∀ (c : ConnectionI) (stream : ReadStream Unit),
      Facing stream (reply.b.drop (headerSize + 4)) [] → stream.startSeq = -1 →
      Outgoing.deliver setup c stream = outcome.told incoming ∧
        OutgoingAsync.deliver stream = outcome.told incoming

/-- The two read alike and come to the same, but for what the stream throws. -/
def Alike (sync : Reader δ Outgoing) (async : EStateM LocalException (ReadStream δ) Byte) : Prop :=
  ∀ stream, OutgoingAsync.settle (async stream) = Outgoing.settle refusal (sync stream)

variable {reader : Reader δ α} {after : ReadStream δ}

theorem reading_ok {value : α} (ran : reader stream = .ok value after) :
    reading reader stream = .ok value after := by
  unfold reading
  rw [ran]

theorem reading_error {failure : Failure} (ran : reader stream = .error failure after) :
    reading reader stream = .error (.other (refusal failure)) after := by
  unfold reading
  rw [ran]

namespace Alike

theorem bind {reader : Reader δ α} {sync : α → Reader δ Outgoing}
    {async : α → EStateM LocalException (ReadStream δ) Byte}
    (alike : ∀ value, Alike (sync value) (async value)) :
    Alike (reader >>= sync) (reading reader >>= async) := by
  intro stream
  cases ran : reader stream with
  | ok value after =>
      rw [bind_of_ok ran, bind_of_ok (reading_ok ran)]
      exact alike value after
  | error failure after =>
      rw [bind_of_error ran, bind_of_error (reading_error ran)]
      rfl

theorem ite {condition : Prop} [Decidable condition] {sync other : Reader δ Outgoing}
    {async another : EStateM LocalException (ReadStream δ) Byte}
    (one : condition → Alike sync async) (two : ¬condition → Alike other another) :
    Alike (if condition then sync else other) (if condition then async else another) := by
  by_cases holds : condition
  · rw [if_pos holds, if_pos holds]
    exact one holds
  · rw [if_neg holds, if_neg holds]
    exact two holds

theorem raised (ex : LocalException) :
    Alike (δ := δ) (pure ⟨.localException, some ex⟩) (throw ex) := fun _ => rfl

end Alike

section Reading

variable {bytes rest : List Byte} {status : Byte}

theorem unaware_facet_path (size : Nat) : Unaware (δ := δ) (readFacetPath size) := by
  refine .bind (unaware_repeat unaware_string size) fun facetPath => ?_
  match facetPath with
  | [] => exact .pure _
  | [_] => exact .pure _
  | _ :: _ :: _ => exact .throw _

theorem facet_read {facet : Str} (facing : Facing stream (StreamHelpers.facetBytes facet ++ bytes) rest)
    (first : stream.startSeq = -1) :
    ∃ middle after, readAndCheckSeqSize 1 stream = .ok (if facet = [] then 0 else 1) middle ∧
      readFacetPath (if facet = [] then 0 else 1) middle = .ok facet after ∧
        Facing after bytes rest := by
  have total := facing.total
  by_cases empty : facet = []
  · rw [StreamHelpers.facetBytes, if_pos empty] at facing total
    have sized := facing.first.runs (takes_size 0 (by decide)) unaware_size
    obtain ⟨middle, checked, moved, -, -⟩ :=
      @check_seq_size_ok δ 0 1 _ 0 _ sized (size_bytes_pos 0) (.inl first)
        (by rw [List.length_append] at total; omega) facing.bounded
    rw [if_pos empty]
    refine ⟨middle, middle, checked, ?_, facing.later moved.buf moved.pos⟩
    rw [empty]
    rfl
  · rw [StreamHelpers.facetBytes, if_neg empty, List.append_assoc] at facing
    rw [StreamHelpers.facetBytes, if_neg empty] at total
    have positive := string_bytes_pos facet
    have sized := facing.first.runs (takes_size 1 (by decide)) unaware_size
    obtain ⟨middle, checked, moved, -, -⟩ :=
      @check_seq_size_ok δ 1 1 _ 0 _ sized (size_bytes_pos 1) (.inl first)
        (by simp only [List.length_append] at total; omega) facing.bounded
    have behind := facing.later moved.buf moved.pos
    have path : Takes (δ := δ) (stringBytes facet) (readFacetPath 1) facet := by
      have taken := takes_all (δ := δ) takes_string [facet]
      simp only [List.flatMap_cons, List.flatMap_nil, List.append_nil] at taken
      exact taken.finish (Takes.pure facet)
    rw [if_neg empty]
    exact ⟨middle, _, checked, behind.first.runs path (unaware_facet_path 1), behind.second⟩

end Reading

section Outcomes

variable {requestId : Int} {outcome : Outcome} {os : BasicStream σ}

variable {exc : Thrown}

end Outcomes

end IceTouch.Replies
