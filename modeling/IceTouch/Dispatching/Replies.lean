import IceTouch.Connection.Operations
import IceTouch.Dispatching.Incoming
import IceTouch.Encapsulations
import IceTouch.Strings.Identities

/-!
# Replies

What `IncomingBase` writes behind the request id when a dispatch has ended, and what
`Outgoing::finished` and `OutgoingAsync::__finished` make of it. The two readers were written
apart and differ in how they pass an exception on: a synchronous call gets it from the
connection, which may have another one by then. No string converter is installed.
-/

namespace IceTouch.Replies

open Bytes WireTypes OutStream InStream
open Dispatching (Current readFacetPath)
open Encapsulations (isSupported)
open Identities (Identity)
open Connection (ConnectionI Setup headerSize replyHdr)

def replyOK : Byte := 0
def replyUserException : Byte := 1
def replyObjectNotExist : Byte := 2
def replyFacetNotExist : Byte := 3
def replyOperationNotExist : Byte := 4
def replyUnknownLocalException : Byte := 5
def replyUnknownUserException : Byte := 6
def replyUnknownException : Byte := 7

/-- `RequestFailedException`. -/
inductive RequestFailed where
  | objectNotExist
  | facetNotExist
  | operationNotExist
  /-- The class itself, or another one that is derived from it. -/
  | other
deriving DecidableEq, Repr

inductive Unknown where
  | unknownException
  | unknownLocalException
  | unknownUserException
deriving DecidableEq, Repr

/-- What ends a dispatch or is thrown by `finished` of a servant locator. The text is what
`str << ex` prints, and the members of a user exception are what its class marshals. -/
inductive Thrown where
  | requestFailed (kind : RequestFailed) (id : Identity) (facet operation : Str)
  | unknown (kind : Unknown) (unknown : Str)
  | localException (text stackTrace : Str)
  | userException (text stackTrace : Str) (members : List Byte)
  /-- Any other `Ice::Exception`. -/
  | exception (text stackTrace : Str)
  | stdException (what : Str)
  /-- `catch(...)`. -/
  | any
deriving DecidableEq, Repr

/-- What `IncomingBase` consults. The encoding holds anything until the parameters have been
read, and `NDEBUG` removes the assertions. -/
structure IncomingBase where
  current : Current
  encoding : Version
  response : Bool
  printStackTraces : Bool
  asserts : Bool
deriving DecidableEq, Repr

def IncomingBase.id (incoming : IncomingBase) : Identity :=
  ⟨incoming.current.name, incoming.current.category⟩

/-- What becomes of a request: the reply goes to `sendResponse`, an assertion fails, or an
exception leaves the dispatch. -/
inductive Answer (σ : Type) where
  | sendResponse (os : BasicStream σ)
  | sendNoResponse
  | assertion
  | throws

variable {σ δ : Type}

/-- `_os.b.resize(headerSize + 4)`. -/
def resize (os : BasicStream σ) : BasicStream σ :=
  { os with b := os.b.take (headerSize + 4) }

def text (s : String) : Str := s.toList.map fun char => UInt8.ofNat char.toNat

/-- `str << ex`, with the stack trace in a line of its own. -/
def IncomingBase.print (incoming : IncomingBase) (text stackTrace : Str) : Str :=
  if incoming.printStackTraces then text ++ 10 :: stackTrace else text

def RequestFailed.replyStatus : RequestFailed → Option Byte
  | .objectNotExist => some replyObjectNotExist
  | .facetNotExist => some replyFacetNotExist
  | .operationNotExist => some replyOperationNotExist
  | .other => none

def Unknown.replyStatus : Unknown → Byte
  | .unknownException => replyUnknownException
  | .unknownLocalException => replyUnknownLocalException
  | .unknownUserException => replyUnknownUserException

/-- For compatibility with the old FacetPath. -/
def writeFacet (facet : Str) (os : BasicStream σ) : BasicStream σ :=
  if facet = [] then os.writeSize 0 else (os.writeSize 1).writeString facet

def writeFailed (id : Identity) (facet operation : Str) (os : BasicStream σ) : BasicStream σ :=
  (writeFacet facet ((os.writeString id.name).writeString id.category)).writeString operation

def respondUnknown (incoming : IncomingBase) (kind : Unknown) (unknown : Str) (os : BasicStream σ) :
    Answer σ :=
  if incoming.response then
    .sendResponse (((resize os).writeByte kind.replyStatus).writeString unknown)
  else
    .sendNoResponse

/-- `__handleException`, with and without an argument. -/
def handleException (incoming : IncomingBase) (exc : Thrown) (os : BasicStream σ) : Answer σ :=
  match exc with
  | .requestFailed kind id facet operation =>
      let id := if id.name = [] then incoming.id else id
      let facet :=
        if facet = [] && incoming.current.facet ≠ [] then incoming.current.facet else facet
      let operation :=
        if operation = [] && incoming.current.operation ≠ [] then incoming.current.operation
        else operation
      if incoming.response then
        let os := resize os
        match kind.replyStatus with
        | some status => .sendResponse (writeFailed id facet operation (os.writeByte status))
        | none =>
            -- `assert(false)`; without it no status is written
            if incoming.asserts then .assertion
            else .sendResponse (writeFailed id facet operation os)
      else
        .sendNoResponse
  | .unknown kind unknown => respondUnknown incoming kind unknown os
  | .localException text stackTrace =>
      respondUnknown incoming .unknownLocalException (incoming.print text stackTrace) os
  | .userException text stackTrace _ =>
      respondUnknown incoming .unknownUserException (incoming.print text stackTrace) os
  | .exception text stackTrace =>
      respondUnknown incoming .unknownException (incoming.print text stackTrace) os
  | .stdException what =>
      respondUnknown incoming .unknownException (text "std::exception: " ++ what) os
  | .any => respondUnknown incoming .unknownException (text "unknown c++ exception") os

/-- `__servantLocatorFinished` when `finished` throws. The encoding is checked by
`startWriteEncaps`, in a handler. -/
def servantLocatorFinished (incoming : IncomingBase) (exc : Thrown) (os : BasicStream σ) : Answer σ :=
  match exc with
  | .userException _ _ members =>
      if incoming.response then
        if isSupported incoming.encoding then
          .sendResponse (((resize os).writeByte replyUserException).writeEncaps incoming.encoding
            (BasicStream.writeBlob members))
        else
          .throws
      else
        .sendNoResponse
  | other => handleException incoming other os

inductive Outcome where
  /-- `__endWriteParams`, `__writeEmptyParams` or `__writeParamEncaps` has marshalled an
  encapsulation behind the status. -/
  | returned (ok : Bool) (encaps : List Byte)
  | handled (exc : Thrown)
  | finished (exc : Thrown)
deriving DecidableEq, Repr

def begun (requestId : Int) : List Byte := replyHdr ++ intBytes requestId

/-- The answer to a request, where `os` is what has been marshalled when an exception is thrown. -/
def answer (incoming : IncomingBase) (requestId : Int) (outcome : Outcome) (os : BasicStream σ) :
    Answer σ :=
  let os := { os with b := begun requestId ++ os.b }
  match outcome with
  | .returned ok encaps =>
      if incoming.response then
        .sendResponse (((resize os).writeByte (if ok then replyOK else replyUserException)).writeBlob
          encaps)
      else
        .sendNoResponse
  | .handled exc => handleException incoming exc os
  | .finished exc => servantLocatorFinished incoming exc os

/-- A `LocalException` of an invocation. -/
inductive LocalException where
  | requestFailed (kind : RequestFailed) (id : Identity) (facet operation : Str)
  | unknown (kind : Unknown) (unknown : Str)
  | unknownReplyStatus
  | other (ex : Connection.LocalException)
deriving DecidableEq, Repr

/-- `MarshalException` among the exceptions that the connection does not tell apart. -/
def marshalException : Connection.LocalException := .other 1

/-- What `BasicStream` throws. -/
def refusal : Failure → Connection.LocalException
  | .ice .unmarshalOutOfBounds => .unmarshalOutOfBounds
  | _ => marshalException

def readIdentity : Reader δ Identity := do
  let name ← readString
  let category ← readString
  pure ⟨name, category⟩

inductive OutgoingState where
  | ok
  | userException
  | localException
deriving DecidableEq, Repr

/-- What `finished` sets. -/
structure Outgoing where
  state : OutgoingState
  exception : Option LocalException
deriving DecidableEq, Repr

/-- `Outgoing::finished(BasicStream&)`. The state is set last, in case there is an exception. -/
def Outgoing.finished : Reader δ Outgoing := do
  let replyStatus ← readByte
  if replyStatus = replyOK then
    pure ⟨.ok, none⟩
  else if replyStatus = replyUserException then
    pure ⟨.userException, none⟩
  else if replyStatus = replyObjectNotExist ∨ replyStatus = replyFacetNotExist ∨
      replyStatus = replyOperationNotExist then do
    let ident ← readIdentity
    let size ← readAndCheckSeqSize 1
    let facet ← readFacetPath size
    let operation ← readString
    let kind : RequestFailed :=
      if replyStatus = replyObjectNotExist then .objectNotExist
      else if replyStatus = replyFacetNotExist then .facetNotExist
      else .operationNotExist
    pure ⟨.localException, some (.requestFailed kind ident facet operation)⟩
  else if replyStatus = replyUnknownException ∨ replyStatus = replyUnknownLocalException ∨
      replyStatus = replyUnknownUserException then do
    let unknown ← readString
    let kind : Unknown :=
      if replyStatus = replyUnknownException then .unknownException
      else if replyStatus = replyUnknownLocalException then .unknownLocalException
      else .unknownUserException
    pure ⟨.localException, some (.unknown kind unknown)⟩
  else
    pure ⟨.localException, some .unknownReplyStatus⟩

/-- What the caller of an invocation gets. The parameters and the user exception are still in
the stream. -/
inductive Delivered where
  | ok (params : List Byte)
  | userException (params : List Byte)
  | exception (ex : LocalException)
deriving DecidableEq, Repr

/-- `Outgoing::invoke` once `finished` has returned. -/
def Outgoing.delivered (out : Outgoing) (stream : ReadStream δ) : Delivered :=
  match out.exception with
  | some ex => .exception ex
  | none =>
      if out.state = .userException then .userException (stream.buf.drop stream.pos)
      else .ok (stream.buf.drop stream.pos)

/-- What `finished` throws reaches the caller by another way. -/
def Outgoing.settle (pass : Failure → Connection.LocalException) :
    EStateM.Result Failure (ReadStream δ) Outgoing → Delivered
  | .ok out after => out.delivered after
  | .error failure _ => .exception (.other (pass failure))

/-- The caller of a synchronous invocation. What `finished` throws closes the connection, and
the connection then passes on the exception that it has. -/
def Outgoing.deliver (setup : Setup) (c : ConnectionI) (stream : ReadStream δ) : Delivered :=
  settle (fun failure => (Connection.fail setup (refusal failure) c).exception.getD (.other 0))
    (finished stream)

def reading {α : Type} (reader : Reader δ α) : EStateM LocalException (ReadStream δ) α := fun stream =>
  match reader stream with
  | .ok value after => .ok value after
  | .error failure after => .error (.other (refusal failure)) after

/-- The `try` block of `OutgoingAsync::__finished`. -/
def OutgoingAsync.finished : EStateM LocalException (ReadStream δ) Byte := do
  let replyStatus ← reading readByte
  if replyStatus = replyOK then
    pure replyStatus
  else if replyStatus = replyUserException then
    pure replyStatus
  else if replyStatus = replyObjectNotExist ∨ replyStatus = replyFacetNotExist ∨
      replyStatus = replyOperationNotExist then do
    let ident ← reading readIdentity
    let size ← reading (readAndCheckSeqSize 1)
    let facet ← reading (readFacetPath size)
    let operation ← reading readString
    let kind : RequestFailed :=
      if replyStatus = replyObjectNotExist then .objectNotExist
      else if replyStatus = replyFacetNotExist then .facetNotExist
      else .operationNotExist
    throw (.requestFailed kind ident facet operation)
  else if replyStatus = replyUnknownException ∨ replyStatus = replyUnknownLocalException ∨
      replyStatus = replyUnknownUserException then do
    let unknown ← reading readString
    let kind : Unknown :=
      if replyStatus = replyUnknownException then .unknownException
      else if replyStatus = replyUnknownLocalException then .unknownLocalException
      else .unknownUserException
    throw (.unknown kind unknown)
  else
    throw .unknownReplyStatus

/-- `__response`, or `__finished(ex, true)`. -/
def OutgoingAsync.settle : EStateM.Result LocalException (ReadStream δ) Byte → Delivered
  | .ok replyStatus after =>
      if replyStatus = replyOK then .ok (after.buf.drop after.pos)
      else .userException (after.buf.drop after.pos)
  | .error ex _ => .exception ex

def OutgoingAsync.deliver (stream : ReadStream δ) : Delivered :=
  settle (finished stream)

end IceTouch.Replies
