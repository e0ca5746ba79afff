import IceTouch.Library.Bytes

/-!
# Messages on the wire

The header of an Ice protocol message and what `ConnectionI` does to it: the compression
status is byte 9, the size of the whole message stands at bytes 10 to 13, and the request id
(or the number of requests of a batch) follows the header. The BZ2 library is a parameter.
-/

namespace IceTouch.Connection

open Bytes

/-- The exceptions that the connection raises or passes on. `CloseConnectionException` is
raised in two places, in `parseMessage` when the peer's close message arrives and in
`close(false)`; the flag tells which of the two recorded its file and line. -/
inductive LocalException where
  | closeConnection (received : Bool)
  | forcedCloseConnection
  | connectionTimeout
  | communicatorDestroyed
  | objectAdapterDeactivated
  | connectTimeout
  | timeout
  | closeTimeout
  | connectionLost
  | socket (error : Nat)
  | datagramLimit
  | memoryLimit
  | illegalMessageSize
  | badMagic
  | unsupportedProtocol
  | unsupportedEncoding
  | unmarshalOutOfBounds
  | unknownMessage
  | unknownRequestId
  | compression
  | objectNotExist
  | other (code : Nat)
deriving DecidableEq, Repr

/-- `catch(const SocketException&)`. -/
def LocalException.isSocketException : LocalException → Bool
  | .connectionLost => true
  | .socket _ => true
  | _ => false

def headerSize : Nat := 14

def magic : List Byte := [0x49, 0x63, 0x65, 0x50]

def versions : List Byte := [1, 0, 1, 0]

def requestMsg : Byte := 0
def requestBatchMsg : Byte := 1
def replyMsg : Byte := 2
def validateConnectionMsg : Byte := 3
def closeConnectionMsg : Byte := 4

/-- A header with the given message type, compression status and size. -/
def header (messageType compress : Byte) (size : Nat) : List Byte :=
  magic ++ versions ++ [messageType, compress] ++ encodeLE 4 size

def requestBatchHdr : List Byte := header requestBatchMsg 0 0 ++ [0, 0, 0, 0]

def replyHdr : List Byte := header replyMsg 0 0

def closeConnectionHdr : List Byte := header closeConnectionMsg 1 headerSize

/-- `copy(p, p + sizeof(Int), b.begin() + position)`. -/
def putInt (bytes : List Byte) (position : Nat) (value : Int) : List Byte :=
  rewriteAt bytes position (encodeLE 4 (value % 2 ^ 32).toNat)

theorem put_int_length {bytes : List Byte} {position : Nat} (value : Int)
    (inside : position + 4 ≤ bytes.length) : (putInt bytes position value).length = bytes.length := by
  apply rewrite_at_length
  rw [encode_le_length]
  exact inside

/-- `read(Int&)` at a position: `none` when it does not fit into the buffer. -/
def intAt (bytes : List Byte) (position : Nat) : Option Int :=
  if position + 4 ≤ bytes.length then
    some (BitVec.ofNat 32 (decodeLE ((bytes.drop position).take 4))).toInt
  else
    none

/-- `BZ2_bzBuffToBuffCompress` and `BZ2_bzBuffToBuffDecompress`. The first argument is the
room in the destination, which the output never exceeds; `none` is an error code. -/
structure Bz2 where
  compress : Nat → List Byte → Option (List Byte)
  decompress : Nat → List Byte → Option (List Byte)
  compress_fits : ∀ room source output, compress room source = some output → output.length ≤ room

/-- `static_cast<unsigned int>(uncompressedLen * 1.01 + 600)`. -/
def compressedRoom (uncompressedLen : Nat) : Nat :=
  uncompressedLen + uncompressedLen / 100 + 600

/-- `doCompress`: the uncompressed stream, whose header gets the size of the compressed one,
and the compressed stream. -/
def doCompress (bz2 : Bz2) (uncompressed : List Byte) :
    Except LocalException (List Byte × List Byte) :=
  let body := uncompressed.drop headerSize
  match bz2.compress (compressedRoom body.length) body with
  | none => .error .compression
  | some output =>
      let marked := putInt uncompressed 10 (headerSize + 4 + output.length : Nat)
      .ok (marked, marked.take headerSize ++ encodeLE 4 uncompressed.length ++ output)

/-- `doUncompress`, as `parseMessage` calls it for a stream with compression status 2. The
output is padded to the announced size, to which the stream has been resized. -/
def doUncompress (bz2 : Bz2) (messageSizeMax : Nat) (compressed : List Byte) :
    Except LocalException (List Byte) :=
  match intAt compressed headerSize with
  | none => .error .unmarshalOutOfBounds
  | some uncompressedSize =>
      if uncompressedSize ≤ headerSize then
        .error .illegalMessageSize
      else if (messageSizeMax : Int) < uncompressedSize then
        .error .memoryLimit
      else
        let room := uncompressedSize.toNat - headerSize
        match bz2.decompress room (compressed.drop (headerSize + 4)) with
        | none => .error .compression
        | some body =>
            .ok (compressed.take headerSize ++ body ++ List.replicate (room - body.length) 0)

/-- The stream that `parseMessage` goes on to parse. -/
def openFrame (bz2 : Bz2) (messageSizeMax : Nat) (frame : List Byte) :
    Except LocalException (List Byte) :=
  if frame.getD 9 0 = 2 then doUncompress bz2 messageSizeMax frame else .ok frame

/-- What `sendMessage` and `sendNextMessage` make of the stream of a message before they
write it: the stream as it is left to its owner, and the frame that is written. -/
structure Prepared where
  stream : List Byte
  frame : Except LocalException (List Byte)
  /-- The frame is a second stream, the output of `doCompress`. -/
  compressed : Bool

/-- The branches that the two functions share. Only messages of 100 bytes or more are
compressed; a message that asks for compression and is smaller gets status 1, and one that
does not ask for it keeps the status it has. -/
def prepare (bz2 : Bz2) (compress : Bool) (stream : List Byte) : Prepared :=
  if compress ∧ 100 ≤ stream.length then
    match doCompress bz2 (stream.set 9 2) with
    | .error ex => ⟨stream.set 9 2, .error ex, true⟩
    | .ok (marked, output) => ⟨marked, .ok output, true⟩
  else
    let stream := if compress then stream.set 9 1 else stream
    let sized := putInt stream 10 (stream.length : Int)
    ⟨sized, .ok sized, false⟩

/-- The stream of a two-way or one-way request. A stream that is sent for the first time has
the status, size and request id of `requestHdr`, all zero; an asynchronous call that is sent
again keeps those of its last attempt. -/
structure RequestStream where
  status : Byte
  size : Nat
  requestId : Int
  body : List Byte
deriving DecidableEq, Repr

def RequestStream.bytes (os : RequestStream) : List Byte :=
  header requestMsg os.status os.size ++ encodeLE 4 (os.requestId % 2 ^ 32).toNat ++ os.body

def replyStream (requestId : Int) (body : List Byte) : List Byte :=
  replyHdr ++ encodeLE 4 (requestId % 2 ^ 32).toNat ++ body

end IceTouch.Connection
