import IceTouch.Transfer

/-!
# Dispatching a request from a shared stream

`Incoming::invoke` as far as it moves the stream: the header of the request is read, and the
parameters are skipped, or left to the servant. What the servant answers is the business of
another stream. Exceptions of the servant are caught; those of the header are fatal.
-/

namespace IceTouch.Dispatching

open Bytes WireTypes StreamHelpers InStream Run

variable {δ : Type}

/-- `Current` as it is read. The mode is not checked against the enumeration. -/
structure Current where
  name : Str
  category : Str
  facet : Str
  operation : Str
  mode : Byte
  ctx : List (Str × Str)
deriving DecidableEq, Repr

/-- `map::insert`, which keeps the entry that is there. -/
def insertContext (ctx : List (Str × Str)) (pr : Str × Str) : List (Str × Str) :=
  if ctx.any fun entry => entry.1 = pr.1 then ctx else ctx ++ [pr]

/-- For compatibility with the old FacetPath. -/
def readFacetPath (size : Nat) : Reader δ Str := do
  let facetPath ← repeatRun size readString
  match facetPath with
  | [] => pure []
  | [facet] => pure facet
  | _ => throwIce (.marshal "")

def readContextEntry : Reader δ (Str × Str) := do
  let key ← readString
  let value ← readString
  pure (key, value)

def readRest (name category : Str) (size : Nat) : Reader δ Current := do
  let facet ← readFacetPath size
  let operation ← readString
  let mode ← readByte
  let sz ← readSize
  let pairs ← repeatRun sz readContextEntry
  pure {
    name := name
    category := category
    facet := facet
    operation := operation
    mode := mode
    ctx := pairs.foldl insertContext [] }

def readCurrent : Reader δ Current := do
  let name ← readString
  let category ← readString
  let size ← readAndCheckSeqSize 1
  readRest name category size

def readAhead (observed : Bool) : Reader δ Unit :=
  if observed then do
    let _ ← readInt
    rewind 4
  else pure ()

/-- `skipEncaps`, and with another exception for a size that is too small `readEncaps`. -/
def passEncaps (tooSmall : IceException) : Reader δ Unit := do
  let outer ← get
  let sz ← readInt
  if sz < 6 then throwIce tooSmall
  else if (outer.buf.length : Int) < outer.pos + sz then throwIce .unmarshalOutOfBounds
  else do
    let _ ← readVersion
    modify (ReadStream.advance (sz.toNat - 6))

def skipEncaps : Reader δ Unit := passEncaps .unmarshalOutOfBounds

def readEncaps : Reader δ Unit := passEncaps .encapsulation

def skipEmptyEncaps : Reader δ Unit := do
  let sz ← readInt
  if sz ≠ 6 then throwIce .encapsulation
  else do
    let stream ← get
    if stream.buf.length < stream.pos + 2 then throwIce .unmarshalOutOfBounds
    else do
      let _ ← readVersion
      pure ()

def finalState {ε σ α : Type} : EStateM.Result ε σ α → σ
  | .ok _ state => state
  | .error _ state => state

/-- Code that unmarshals parameters: it may do anything to a stream but change its bytes. -/
structure Unmarshal (δ : Type) where
  decoder : δ
  skipRef : Reader δ Unit
  run : Encoding → Nat → Reader δ Unit
  keeps : ∀ stream, (finalState (withEncaps decoder skipRef run stream)).buf = stream.buf

/-- What `__dispatch` does with the parameters. -/
inductive Operation (δ : Type) where
  /-- An `OperationNotExistException`, or an unexpected mode. -/
  | refused
  /-- `readEmptyParams` -/
  | noParams
  /-- `readParamEncaps`, for a `Blobject` -/
  | blob
  /-- `startReadParams` to `endReadParams` -/
  | params (unmarshal : Unmarshal δ)

def Operation.run : Operation δ → Reader δ Unit
  | .refused => throwIce (.marshal "")
  | .noParams => skipEmptyEncaps
  | .blob => readEncaps
  | .params unmarshal => withEncaps unmarshal.decoder unmarshal.skipRef unmarshal.run

/-- What becomes of a request: a servant locator throws, there is no servant, or a servant
dispatches it. An interceptor dispatches it as often as it likes. -/
inductive Dispatch (δ : Type) where
  | locateThrows
  | noServant
  | servant (attempts : List (Operation δ))

/-- `startOver` and `__dispatch`. -/
def attempt (inParamPos : Nat) (stream : ReadStream δ) (operation : Operation δ) :
    ReadStream δ :=
  finalState (operation.run { stream with pos := inParamPos })

/-- The rest of `invoke`. Only what is thrown in a handler gets out. -/
def Dispatch.run : Dispatch δ → Reader δ Unit
  | .locateThrows => skipEncaps
  | .noServant => fun stream => .ok () (finalState (skipEncaps stream))
  | .servant attempts => fun stream => .ok () (attempts.foldl (attempt stream.pos) stream)

structure Seen where
  start : Nat
  current : Current
  params : Nat
deriving DecidableEq, Repr

/-- A request as it was encoded. The parameters are an encapsulation with any content. -/
structure Request where
  name : Str
  category : Str
  facet : Option Str
  operation : Str
  mode : Byte
  ctx : List (Str × Str)
  version : Version
  params : List Byte
deriving DecidableEq, Repr

def Request.current (request : Request) : Current where
  name := request.name
  category := request.category
  facet := request.facet.getD []
  operation := request.operation
  mode := request.mode
  ctx := request.ctx.foldl insertContext []

def identityBytes (request : Request) : List Byte :=
  stringBytes request.name ++ stringBytes request.category

def facetSizeBytes (request : Request) : List Byte :=
  sizeBytes request.facet.toList.length

def contextEntryBytes (entry : Str × Str) : List Byte := stringBytes entry.1 ++ stringBytes entry.2

def facetBytes (request : Request) : List Byte := request.facet.toList.flatMap stringBytes

def operationBytes (request : Request) : List Byte :=
  stringBytes request.operation ++ ([request.mode] ++
    (sizeBytes request.ctx.length ++ request.ctx.flatMap contextEntryBytes))

def headerBytes (request : Request) : List Byte :=
  identityBytes request ++ (facetSizeBytes request ++
    (facetBytes request ++ operationBytes request))

def paramsBytes (request : Request) : List Byte := encapsBytes request.version request.params

def requestBytes (request : Request) : List Byte := headerBytes request ++ paramsBytes request

/-- The stream stands before `bytes`, whatever is left of earlier encapsulations. -/
structure Facing (stream : ReadStream δ) (bytes rest : List Byte) : Prop where
  next : stream.buf.drop stream.pos = bytes ++ rest
  inside : stream.pos ≤ stream.buf.length
  bounded : stream.buf.length < 2 ^ 31

def Unaware {α : Type} (reader : Reader δ α) : Prop :=
  ∀ (stream : ReadStream δ) (last : Nat),
    reader { stream with encapsEnd := last } =
      match reader stream with
      | .ok value after => .ok value { after with encapsEnd := last }
      | .error ex after => .error ex { after with encapsEnd := last }

variable {α : Type}

theorem Unaware.pure (value : α) : Unaware (δ := δ) (pure value) := by
  intro stream last
  rfl

theorem Unaware.throw (ex : IceException) : Unaware (δ := δ) (throwIce ex : Reader δ α) := by
  intro stream last
  rfl

theorem Unaware.bind {α β : Type} {first : Reader δ α} {next : α → Reader δ β}
    (unaware : Unaware first) (continued : ∀ value, Unaware (next value)) :
    Unaware (first >>= next) := by
  intro stream last
  have step := unaware stream last
  cases ran : first stream with
  | error ex after =>
      rw [ran] at step
      rw [bind_of_error step, bind_of_error ran]
  | ok value after =>
      rw [ran] at step
      rw [bind_of_ok step, bind_of_ok ran]
      exact continued value after last

theorem Unaware.ite {condition : Prop} [Decidable condition] {first second : Reader δ α}
    (one : Unaware first) (two : Unaware second) :
    Unaware (if condition then first else second) := by
  split
  · exact one
  · exact two

theorem unaware_byte : Unaware (δ := δ) readByte := by
  intro stream last
  unfold readByte
  cases stream.buf[stream.pos]? <;> rfl

theorem unaware_blob (count : Nat) : Unaware (δ := δ) (readBlob count) := by
  intro stream last
  unfold readBlob
  simp only
  split <;> rfl

theorem unaware_int : Unaware (δ := δ) readInt :=
  .bind (.bind (unaware_blob _) fun _ => .pure _) fun _ => .pure _

theorem unaware_size : Unaware (δ := δ) readSize :=
  .bind unaware_byte fun _ =>
    .ite (.bind unaware_int fun _ => .ite (.throw _) (.pure _)) (.pure _)

theorem unaware_string : Unaware (δ := δ) readString :=
  .bind unaware_size fun _ => .ite (unaware_blob _) (.pure _)

theorem unaware_repeat {reader : Reader δ α} (unaware : Unaware reader) (count : Nat) :
    Unaware (repeatRun count reader) := by
  induction count with
  | zero => exact .pure _
  | succ count ih => exact .bind unaware fun _ => .bind ih fun _ => .pure _

end IceTouch.Dispatching
