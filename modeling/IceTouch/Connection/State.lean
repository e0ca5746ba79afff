import IceTouch.Connection.Wire
import IceTouch.Library.OrderedMap

/-!
# The state of a connection

`ConnectionI` as the code has it for the non-IOCP build, without tracing, observers, timers
and the thread pool. The network decides what a call on the transceiver does, so each call
has an outcome that is an input of the step.

The last group of fields are history variables. No function of the model reads them: they
record the messages handed to `sendMessage`, the bytes that passed the transceiver, what the
calls were told, and which of the follow-ups of the dispatch count were taken.
-/

namespace IceTouch.Connection

open Bytes

/-- The states in the order of the enumeration, in which active is before holding. -/
inductive State where
  | notInitialized
  | notValidated
  | active
  | holding
  | closing
  | closed
  | finished
deriving DecidableEq, Repr

def State.index : State → Nat
  | .notInitialized => 0
  | .notValidated => 1
  | .active => 2
  | .holding => 3
  | .closing => 4
  | .closed => 5
  | .finished => 6

instance : LE State := ⟨fun first second => first.index ≤ second.index⟩
instance : LT State := ⟨fun first second => first.index < second.index⟩
instance (first second : State) : Decidable (first ≤ second) :=
  inferInstanceAs (Decidable (first.index ≤ second.index))
instance (first second : State) : Decidable (first < second) :=
  inferInstanceAs (Decidable (first.index < second.index))

theorem State.le_def (first second : State) : first ≤ second ↔ first.index ≤ second.index :=
  Iff.rfl

theorem State.lt_def (first second : State) : first < second ↔ first.index < second.index :=
  Iff.rfl

structure Setup where
  datagram : Bool
  /-- The ACM timeout of the adapter or of the communicator. -/
  acm : Int
  /-- In bytes; `Ice.MessageSizeMax` is cut to the range of an `Int`. -/
  messageSizeMax : Nat
  messageSizeMax_le : messageSizeMax ≤ 0x7fffffff
  /-- The bound that `checkSendSize` of the transport adds to `messageSizeMax`. -/
  packetSize : Nat
  batchAutoFlush : Bool
  /-- A user Dispatcher is installed. -/
  dispatcher : Bool
  bz2 : Bz2

/-- `_acmTimeout`. -/
def Setup.acmTimeout (setup : Setup) : Int :=
  if setup.datagram then 0 else setup.acm

/-- One call of `write` on the transceiver: it accepts up to that many bytes and, when some
remain, either returns false or throws. -/
structure WriteOutcome where
  accepted : Nat
  failure : Option LocalException
deriving DecidableEq, Repr

/-- The bytes that calls of `read` on the transceiver can get before it returns false or
throws. -/
structure Supply where
  bytes : List Byte
  failure : Option LocalException
deriving DecidableEq, Repr

/-- `BasicStream` as the sending side uses it: the container and the iterator. -/
structure Buffer where
  b : List Byte
  i : Option Nat
deriving DecidableEq, Repr

def Buffer.empty : Buffer := ⟨[], none⟩

/-- A call accepted by the connection: its number among all calls, whether it is an
`OutgoingAsync`, and whether `__sent` asks for the sent callback. -/
structure Call where
  serial : Nat
  async : Bool
  notifies : Bool
deriving DecidableEq, Repr

structure OutgoingMessage where
  stream : Buffer
  /-- `out` or `outAsync`; the connection's own messages have neither. -/
  call : Option Call
  compress : Bool
  requestId : Int
  adopted : Bool
  isSent : Bool
  /-- The bytes left in the stream of the call when another one was adopted. -/
  original : List Byte
deriving DecidableEq, Repr

/-- A call that came as far as `sendMessage`. -/
structure CallRecord where
  requestId : Int
  response : Bool
  /-- The call did not throw. -/
  accepted : Bool
deriving DecidableEq, Repr

/-- What a call is told. -/
inductive Notice where
  | sent (serial : Nat)
  | replied (serial : Nat) (stream : List Byte)
  | failed (serial : Nat) (ex : LocalException) (isSent : Bool)
deriving DecidableEq, Repr

/-- A request map with its hint: the key at which the iterator stands, `none` for the end. -/
structure RequestMap where
  entries : List (Int × Call)
  hint : Option Int
deriving DecidableEq, Repr

structure Batch where
  stream : List Byte
  /-- The stream while it belongs to the caller of `prepareBatchRequest`. -/
  lent : List Byte
  inUse : Bool
  requestNum : Int
  compress : Bool
  marker : Nat
deriving DecidableEq, Repr

/-- `_readStream`: the bytes read so far, the size of the container and `_readHeader`. -/
structure ReadState where
  bytes : List Byte
  size : Nat
  header : Bool
deriving DecidableEq, Repr

/-- The work that `message` leaves for `dispatch`, outside the synchronization. -/
structure Upcall where
  startCallback : Bool
  sentCallbacks : List Call
  outAsync : Option (Call × List Byte)
  /-- The position in `parsed` of the frame that asks for the dispatches. -/
  frame : Nat
  requestId : Int
  compress : Byte
  invokeNum : Int
  /-- The callbacks have been made. -/
  called : Bool
deriving DecidableEq, Repr

/-- `dispatch` takes back the increment of the dispatch count. -/
def Upcall.hasCallbacks (upcall : Upcall) : Bool :=
  !upcall.sentCallbacks.isEmpty || upcall.outAsync.isSome

/-- A request that was dispatched and has not been answered. -/
structure Dispatch where
  frame : Nat
  requestId : Int
  compress : Byte
deriving DecidableEq, Repr

inductive Assertion where
  | setState
  | initiateShutdown
deriving DecidableEq, Repr

structure ConnectionI where
  state : State
  exception : Option LocalException
  /-- The connection is in the set of the connection monitor. -/
  monitored : Bool
  dispatchCount : Int
  shutdownInitiated : Bool
  validated : Bool
  /-- `start` has been called, and its thread waits for the validation. -/
  started : Bool
  startWaiting : Bool
  startCallback : Bool
  nextRequestId : Int
  requests : RequestMap
  asyncRequests : RequestMap
  batch : Batch
  sendStreams : List OutgoingMessage
  writeStream : Buffer
  readStream : ReadState
  upcalls : List Upcall
  dispatches : List Dispatch
  /-- Every state in turn, up to the current one. -/
  states : List State
  calls : List CallRecord
  /-- The batch requests that were finished. -/
  batched : List (List Byte)
  handed : List OutgoingMessage
  delivered : List Byte
  consumed : List Byte
  parsed : List (List Byte)
  notices : List Notice
  shutdowns : List (State × Int)
  reaped : List (State × Int)
  assertions : List Assertion
deriving DecidableEq, Repr

def ConnectionI.initial : ConnectionI where
  state := .notInitialized
  exception := none
  monitored := false
  dispatchCount := 0
  shutdownInitiated := false
  validated := false
  started := false
  startWaiting := false
  startCallback := false
  nextRequestId := 1
  requests := ⟨[], none⟩
  asyncRequests := ⟨[], none⟩
  batch := ⟨[], [], false, 0, false, 0⟩
  sendStreams := []
  writeStream := .empty
  readStream := ⟨[], 0, false⟩
  upcalls := []
  dispatches := []
  states := [.notInitialized]
  calls := []
  batched := []
  handed := []
  delivered := []
  consumed := []
  parsed := []
  notices := []
  shutdowns := []
  reaped := []
  assertions := []

def wrap (value : Int) : Int :=
  (BitVec.ofInt 32 value).toInt

theorem wrap_inside {value : Int} (low : -2 ^ 31 ≤ value) (high : value < 2 ^ 31) :
    wrap value = value := by
  unfold wrap
  rw [BitVec.toInt_ofInt]
  apply Int.bmod_eq_of_le
  · exact low
  · omega

end IceTouch.Connection
