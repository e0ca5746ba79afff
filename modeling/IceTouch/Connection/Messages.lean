import IceTouch.Connection.Operations

/-!
# Events of the thread pool

`message` reads and writes what the selector says is ready, parses a complete message and
leaves an upcall for `dispatch`; `finish` ends the connection after it was closed.
-/

namespace IceTouch.Connection

open Bytes

/-- `_readStream` ready for the next header. -/
def ReadState.fresh : ReadState := ⟨[], headerSize, true⟩

/-- The checks that `message` makes on a header, and the size it announces. -/
def checkHeader (setup : Setup) (bytes : List Byte) : Except LocalException Nat :=
  if bytes.length < headerSize then .error .illegalMessageSize
  else if bytes.take 4 ≠ magic then .error .badMagic
  else if (bytes.drop 4).take 2 ≠ versions.take 2 then .error .unsupportedProtocol
  else if (bytes.drop 6).take 2 ≠ versions.drop 2 then .error .unsupportedEncoding
  else
    match intAt bytes 10 with
    | none => .error .unmarshalOutOfBounds
    | some size =>
        if size < headerSize then .error .illegalMessageSize
        else if (setup.messageSizeMax : Int) < size then .error .memoryLimit
        else .ok size.toNat

/-- `_transceiver->read(_readStream)` on a stream connection: the bytes are taken until the
container is full. -/
def fill (supply : Supply) (c : ConnectionI) : Except LocalException Bool × Supply × ConnectionI :=
  let taken := supply.bytes.take (c.readStream.size - c.readStream.bytes.length)
  let bytes := c.readStream.bytes ++ taken
  let c := { c with
    consumed := c.consumed ++ taken
    readStream := { c.readStream with bytes := bytes } }
  let supply := { supply with bytes := supply.bytes.drop taken.length }
  if bytes.length = c.readStream.size then (.ok true, supply, c)
  else
    match supply.failure with
    | some ex => (.error ex, supply, c)
    | none => (.ok false, supply, c)

/-- The body of the message, when it is not yet complete. -/
def readBody (setup : Setup) (supply : Supply) (c : ConnectionI) :
    Except LocalException Bool × ConnectionI :=
  if c.readStream.bytes.length = c.readStream.size then
    (.ok true, c)
  else if setup.datagram then
    (.error .datagramLimit, c)
  else
    let (status, _, c) := fill supply c
    (status, c)

/-- A datagram is read as a whole. -/
def readHeader (setup : Setup) (supply : Supply) (c : ConnectionI) :
    Except LocalException Bool × Supply × ConnectionI :=
  if setup.datagram then
    match supply.failure with
    | some ex => (.error ex, supply, c)
    | none =>
        (.ok true, { supply with bytes := [] }, { c with
          readStream := { c.readStream with bytes := supply.bytes, size := supply.bytes.length } })
  else
    fill supply c

/-- The reading part of `message`: whether a complete message is in the read stream. -/
def readMessage (setup : Setup) (supply : Supply) (c : ConnectionI) :
    Except LocalException Bool × ConnectionI :=
  if c.readStream.size = 0 then
    (.ok true, c)
  else if c.readStream.header then
    match readHeader setup supply c with
    | (.error ex, _, c) => (.error ex, c)
    | (.ok false, _, c) => (.ok false, c)
    | (.ok true, supply, c) =>
        let c := { c with readStream := { c.readStream with header := false } }
        match checkHeader setup c.readStream.bytes with
        | .error ex => (.error ex, c)
        | .ok size =>
            readBody setup supply { c with
              readStream := { c.readStream with size := max size c.readStream.size } }
  else
    readBody setup supply c

/-- What `parseMessage` passes on to `dispatch`. -/
structure Parsed where
  invokeNum : Int
  requestId : Int
  compress : Byte
  outAsync : Option (Call × List Byte)
deriving DecidableEq, Repr

def Parsed.nothing : Parsed := ⟨0, 0, 0, none⟩

def RequestMap.hinted (requestId : Int) (map : RequestMap) : Option Call :=
  if map.hint = some requestId then OrderedMap.find requestId map.entries else none

def RequestMap.find (requestId : Int) (map : RequestMap) : Option Call :=
  OrderedMap.find requestId map.entries

/-- `erase`, which moves the hint on when it stands at the erased entry. -/
def RequestMap.erase (requestId : Int) (map : RequestMap) : RequestMap :=
  ⟨OrderedMap.erase requestId map.entries,
    if map.hint = some requestId then OrderedMap.next requestId map.entries else map.hint⟩

def lookupReply (requestId : Int) (c : ConnectionI) : Option Call :=
  match c.requests.hinted requestId with
  | some call => some call
  | none =>
      match c.asyncRequests.hinted requestId with
      | some call => some call
      | none =>
          match c.requests.find requestId with
          | some call => some call
          | none => c.asyncRequests.find requestId

/-- A reply: a synchronous call is finished at once, an asynchronous one by `dispatch`. When
`Outgoing::finished` throws, the call stays in the map. -/
def parseReply (refusal : Option LocalException) (stream : List Byte) (compress : Byte)
    (requestId : Int) (c : ConnectionI) : Except LocalException Parsed × ConnectionI :=
  match lookupReply requestId c with
  | none => (.error .unknownRequestId, c)
  | some call =>
      if call.async then
        (.ok ⟨0, requestId, compress, some (call, stream)⟩,
          { c with asyncRequests := c.asyncRequests.erase requestId })
      else
        match refusal with
        | some ex => (.error ex, c)
        | none =>
            (.ok ⟨0, requestId, compress, none⟩, { c with
              notices := c.notices ++ [.replied call.serial stream]
              requests := c.requests.erase requestId })

/-- The `switch` of `parseMessage`, on the uncompressed stream. -/
def parseStream (setup : Setup) (refusal : Option LocalException) (stream : List Byte)
    (compress : Byte) (c : ConnectionI) : Except LocalException Parsed × ConnectionI :=
  let messageType := stream.getD 8 0
  let ignored : Parsed := ⟨0, 0, compress, none⟩
  if messageType = closeConnectionMsg then
    (.ok ignored, if setup.datagram then c else fail setup (.closeConnection true) c)
  else if messageType = requestMsg then
    if c.state = .closing then
      (.ok ignored, c)
    else
      match intAt stream headerSize with
      | none => (.error .unmarshalOutOfBounds, c)
      | some requestId =>
          (.ok ⟨1, requestId, compress, none⟩,
            { c with dispatchCount := wrap (c.dispatchCount + 1) })
  else if messageType = requestBatchMsg then
    if c.state = .closing then
      (.ok ignored, c)
    else
      match intAt stream headerSize with
      | none => (.error .unmarshalOutOfBounds, c)
      | some invokeNum =>
          if invokeNum < 0 then
            (.error .unmarshalOutOfBounds, c)
          else
            (.ok ⟨invokeNum, 0, compress, none⟩,
              { c with dispatchCount := wrap (c.dispatchCount + invokeNum) })
  else if messageType = replyMsg then
    match intAt stream headerSize with
    | none => (.error .unmarshalOutOfBounds, c)
    | some requestId => parseReply refusal stream compress requestId c
  else if messageType = validateConnectionMsg then
    (.ok ignored, c)
  else
    (.error .unknownMessage, c)

/-- `parseMessage`. -/
def parseMessage (setup : Setup) (refusal : Option LocalException) (c : ConnectionI) :
    Parsed × ConnectionI :=
  let frame := c.readStream.bytes
  let c := { c with
    readStream := .fresh
    validated := true
    parsed := c.parsed ++ [frame] }
  let compress := frame.getD 9 0
  let result : Except LocalException Parsed × ConnectionI :=
    match openFrame setup.bz2 setup.messageSizeMax frame with
    | .error ex => (.error ex, c)
    | .ok stream => parseStream setup refusal stream compress c
  match result with
  | (.ok parsed, c) => (parsed, c)
  | (.error ex, c) => ({ Parsed.nothing with compress := compress },
      if setup.datagram then c else fail setup ex c)

structure Ready where
  read : Bool
  write : Bool
  initializing : Progress
  validating : Progress
  supply : Supply
  writes : List WriteOutcome
  /-- `Outgoing::finished` cannot read the reply. -/
  refusal : Option LocalException
deriving DecidableEq, Repr

/-- The `catch` clauses of `message`. -/
def caught (setup : Setup) (ex : LocalException) (c : ConnectionI) : ConnectionI :=
  if ex = .datagramLimit then
    { c with readStream := .fresh }
  else if ex.isSocketException then
    fail setup ex c
  else if setup.datagram then
    { c with readStream := .fresh }
  else
    fail setup ex c

/-- The upcall for `dispatch`. -/
def queueUpcall (startCallback : Bool) (sentCallbacks : List Call) (parsed : Parsed)
    (frame : Nat) (c : ConnectionI) : ConnectionI :=
  { c with upcalls := c.upcalls ++ [{
      startCallback := startCallback
      sentCallbacks := sentCallbacks
      outAsync := parsed.outAsync
      frame := frame
      requestId := parsed.requestId
      compress := parsed.compress
      invokeNum := parsed.invokeNum
      called := false }] }

/-- The part of `message` before the connection is validated. -/
def establishing (setup : Setup) (ready : Ready) (c : ConnectionI) : ConnectionI :=
  let result :=
    if c.state = .notInitialized then establish setup ready.initializing ready.validating c
    else validate setup ready.validating c
  match result with
  | (.error ex, c) => caught setup ex c
  | (.ok false, c) => c
  | (.ok true, c) =>
      let callback := c.startCallback
      queueUpcall callback [] .nothing c.parsed.length
        { setState setup noWrite .holding c with startCallback := false }

/-- `sendNextMessage`: the loop and its `catch` clause. -/
def sendNextMessage (setup : Setup) (writes : List WriteOutcome) (c : ConnectionI) :
    List Call × ConnectionI :=
  match c.sendStreams with
  | [] => ([], c)
  | current :: rest =>
      match sendNextLoop setup rest current writes [] c with
      | ⟨callbacks, some ex, c⟩ => (callbacks, fail setup ex c)
      | ⟨callbacks, none, c⟩ => (callbacks, c)

/-- The writing part of `message`: whether the frame in the write stream is complete. -/
def writeMessage (outcome : WriteOutcome) (c : ConnectionI) :
    Except LocalException Bool × ConnectionI :=
  if c.writeStream.b = [] ∨ c.writeStream.i = some c.writeStream.b.length then
    (.ok true, c)
  else
    let (status, buffer, taken) := writeBuffer outcome c.writeStream
    (status, { c with writeStream := buffer, delivered := c.delivered ++ taken })

/-- `if(!sentCBs.empty() || outAsync) ++_dispatchCount;` -/
def countCallbacks (callbacks : List Call) (parsed : Parsed) (c : ConnectionI) : ConnectionI :=
  if !callbacks.isEmpty || parsed.outAsync.isSome then
    { c with dispatchCount := wrap (c.dispatchCount + 1) }
  else c

def parsePart (setup : Setup) (ready : Ready) (c : ConnectionI) : Parsed × ConnectionI :=
  if ready.read then parseMessage setup ready.refusal c else (.nothing, c)

def sendPart (setup : Setup) (ready : Ready) (c : ConnectionI) : List Call × ConnectionI :=
  if ready.write then sendNextMessage setup ready.writes.tail c else ([], c)

/-- The rest of `message` once reading and writing have come to their ends. Messages are
parsed first: after a close message no more are sent. -/
def processMessage (setup : Setup) (ready : Ready) (c : ConnectionI) : ConnectionI :=
  let frame := c.parsed.length
  let (parsed, c) := parsePart setup ready c
  let (callbacks, c) := sendPart setup ready c
  queueUpcall false callbacks parsed frame (countCallbacks callbacks parsed c)

def writePart (ready : Ready) (c : ConnectionI) : Except LocalException Bool × ConnectionI :=
  if ready.write then writeMessage (ready.writes.headD noWrite) c else (.ok true, c)

def readPart (setup : Setup) (ready : Ready) (c : ConnectionI) :
    Except LocalException Bool × ConnectionI :=
  if ready.read then readMessage setup ready.supply c else (.ok true, c)

/-- `message` on a validated connection. -/
def exchange (setup : Setup) (ready : Ready) (c : ConnectionI) : ConnectionI :=
  match writePart ready c with
  | (.error ex, c) => caught setup ex c
  | (.ok false, c) => c
  | (.ok true, c) =>
      match readPart setup ready c with
      | (.error ex, c) => caught setup ex c
      | (.ok false, c) => c
      | (.ok true, c) => processMessage setup ready c

def message (setup : Setup) (ready : Ready) (c : ConnectionI) : ConnectionI :=
  if .closed ≤ c.state then c
  else if c.state ≤ .notValidated then establishing setup ready c
  else exchange setup ready c

/-- One round of the loop of `finish` over the queue. -/
def finishQueued (ex : LocalException) (message : OutgoingMessage) (c : ConnectionI) :
    ConnectionI :=
  match message.call with
  | none => c
  | some call =>
      let c := { c with notices := c.notices ++ [.failed call.serial ex message.isSent] }
      if message.requestId = 0 then
        c
      else if call.async then
        { c with asyncRequests :=
          { c.asyncRequests with
            entries := OrderedMap.erase message.requestId c.asyncRequests.entries } }
      else
        { c with requests :=
          { c.requests with
            entries := OrderedMap.erase message.requestId c.requests.entries } }

/-- The loops of `finish` over the request maps. -/
def finishOutstanding (ex : LocalException) (c : ConnectionI) : ConnectionI :=
  { c with
    notices := c.notices ++
      (c.requests.entries ++ c.asyncRequests.entries).map
        fun entry => .failed entry.2.serial ex true
    requests := ⟨[], none⟩
    asyncRequests := ⟨[], none⟩ }

/-- `_sendStreams` when the loop of `finish` starts: the stream of the front message has been
swapped back. -/
def returnFront (c : ConnectionI) : ConnectionI :=
  match c.sendStreams with
  | [] => c
  | front :: rest =>
      if c.writeStream.b = [] then c
      else
        { c with
          sendStreams := { front with stream := c.writeStream } :: rest
          writeStream := front.stream }

/-- The part of `finish` that tells the calls. -/
def finishCalls (c : ConnectionI) : ConnectionI :=
  let ex := c.exception.getD (.other 0)
  let c := returnFront { c with startCallback := false }
  finishOutstanding ex { c.sendStreams.foldl (fun c message => finishQueued ex message c) c with
    sendStreams := [] }

/-- `finish`, which the thread pool calls once after the connection was closed. -/
def finish (setup : Setup) (c : ConnectionI) : ConnectionI :=
  reapWhenIdle (setState setup noWrite .finished (finishCalls c))

end IceTouch.Connection
