import Mathlib.Data.Bool.Basic

/-!
# The streams of a connection on iOS

`registerWithRunLoop` and `unregisterFromRunLoop` of `IceObjC::Transceiver`. What
CoreFoundation answers when a stream is asked whether it can be used is a parameter of each
call; that a stream is scheduled with the run loop is recorded beside the flag of the source.
-/

namespace IceTouch.Streams

abbrev SocketOperation := BitVec 3

def operationNone : SocketOperation := 0

def operationRead : SocketOperation := 1

def operationWrite : SocketOperation := 2

def operationConnect : SocketOperation := 4

/-- `set & operation`, as a condition. -/
def has (set operation : SocketOperation) : Bool := set &&& operation != 0

inductive Stream where
  | read
  | write
deriving DecidableEq

def Stream.operation : Stream → SocketOperation
  | .read => operationRead
  | .write => operationWrite

structure StreamState where
  /-- `_readStreamRegistered` or `_writeStreamRegistered` -/
  registered : Bool
  /-- The stream is scheduled with the run loop. -/
  scheduled : Bool
deriving DecidableEq

structure Transceiver where
  read : StreamState
  write : StreamState
  opening : Bool
  error : Bool
  /-- `_fd` is a socket. -/
  hasDescriptor : Bool
  /-- `closeStreams` was called. -/
  closed : Bool
deriving DecidableEq

/-- What CoreFoundation answers in one call of `registerWithRunLoop`. A stream is asked again
right after it is scheduled. -/
structure Answers where
  /-- A stream has a status other than `kCFStreamStatusNotOpen`. -/
  opened : Bool
  read : Bool
  readScheduled : Bool
  write : Bool
  writeScheduled : Bool
deriving DecidableEq

/-- What `registerWithRunLoop` does with one stream, and whether the stream is found ready. -/
def StreamState.register (state : StreamState) (ready readyScheduled : Bool) :
    Bool × StreamState :=
  if ready then (true, state)
  else if state.registered then (false, state)
  else (readyScheduled, ⟨true, true⟩)

def StreamState.unregister (state : StreamState) (asked : Bool) : StreamState :=
  if asked && state.registered then ⟨false, false⟩ else state

/-- The operation where the condition holds. -/
def operationIf (condition : Bool) (operation : SocketOperation) : SocketOperation :=
  if condition then operation else operationNone

namespace Transceiver

def registerWithRunLoop (transceiver : Transceiver) (answers : Answers)
    (operation : SocketOperation) : SocketOperation × Transceiver :=
  if has operation operationConnect then
    if answers.opened then (operationConnect, transceiver)
    else
      (operationNone,
        { transceiver with opening := true, write := ⟨true, true⟩, read := ⟨true, true⟩ })
  else
    let write :=
      if has operation operationWrite then
        transceiver.write.register answers.write answers.writeScheduled
      else (false, transceiver.write)
    let read :=
      if has operation operationRead then
        transceiver.read.register answers.read answers.readScheduled
      else (false, transceiver.read)
    (operationIf write.1 operationWrite ||| operationIf read.1 operationRead,
      { transceiver with write := write.2, read := read.2 })

/-- While the streams are opened, the flags say which of them are waited for, and the streams
are unscheduled together. -/
def unregisterOpening (transceiver : Transceiver) (operation : SocketOperation) (error : Bool) :
    SocketOperation × Transceiver :=
  let write := transceiver.write.registered && operation != operationWrite
  let read := transceiver.read.registered &&
    !(has operation operationRead && (transceiver.hasDescriptor || !has operation operationConnect))
  if error || (!read && !write) then
    (operationConnect,
      { transceiver with write := ⟨write, false⟩, read := ⟨read, false⟩, opening := false })
  else
    (operationNone,
      { transceiver with
        write := { transceiver.write with registered := write }
        read := { transceiver.read with registered := read } })

def unregisterFromRunLoop (transceiver : Transceiver) (operation : SocketOperation)
    (error : Bool) : SocketOperation × Transceiver :=
  let reported := { transceiver with error := transceiver.error || error }
  if transceiver.opening then reported.unregisterOpening operation error
  else
    (operation,
      { reported with
        write := transceiver.write.unregister (has operation operationWrite)
        read := transceiver.read.unregister (has operation operationRead) })

def closeStreams (transceiver : Transceiver) : Transceiver := { transceiver with closed := true }

def stream (transceiver : Transceiver) : Stream → StreamState
  | .read => transceiver.read
  | .write => transceiver.write

structure Open (transceiver : Transceiver) : Prop where
  settled : transceiver.opening = false
  told : ∀ stream,
    (transceiver.stream stream).scheduled = (transceiver.stream stream).registered

end Transceiver

theorem has_or (set other operation : SocketOperation) :
    has (set ||| other) operation = (has set operation || has other operation) := by
  revert set other operation
  decide

theorem has_and (set other : SocketOperation) (stream : Stream) :
    has (set &&& other) stream.operation =
      (has set stream.operation && has other stream.operation) := by
  cases stream <;> revert set other <;> decide

theorem has_and_not (set other : SocketOperation) (stream : Stream) :
    has (set &&& ~~~other) stream.operation =
      (has set stream.operation && !has other stream.operation) := by
  cases stream <;> revert set other <;> decide

theorem has_not_and (set other : SocketOperation) (stream : Stream) :
    has (~~~other &&& set) stream.operation =
      (has set stream.operation && !has other stream.operation) := by
  cases stream <;> revert set other <;> decide

theorem has_zero (operation : SocketOperation) : has 0 operation = false := by
  revert operation
  decide

theorem has_comm (set operation : SocketOperation) : has set operation = has operation set := by
  revert set operation
  decide

theorem has_split {operation : SocketOperation} (set : SocketOperation)
    (connected : has operation operationConnect = false) :
    has set operation =
      ((has set operationRead && has operation operationRead) ||
        (has set operationWrite && has operation operationWrite)) := by
  revert set operation
  decide

namespace StreamState

variable {state : StreamState}

theorem unregister_told {asked : Bool} (told : state.scheduled = state.registered) :
    (state.unregister asked).scheduled = (state.unregister asked).registered := by
  unfold unregister
  split
  · rfl
  · exact told

theorem unregister_unasked : state.unregister false = state := rfl

theorem register_told {ready readyScheduled : Bool} (told : state.scheduled = state.registered) :
    (state.register ready readyScheduled).2.scheduled =
      (state.register ready readyScheduled).2.registered := by
  unfold register
  split
  · exact told
  · split
    · exact told
    · rfl

theorem register_scheduled {ready readyScheduled : Bool}
    (told : state.scheduled = state.registered)
    (unready : (state.register ready readyScheduled).1 = false) :
    (state.register ready readyScheduled).2.scheduled = true := by
  unfold register at unready ⊢
  split at unready
  · cases unready
  · next first =>
      rw [if_neg first]
      split at unready
      · next already =>
          rw [if_pos already]
          exact told.trans already
      · next fresh => rw [if_neg fresh]

end StreamState

namespace Transceiver

variable {transceiver : Transceiver}

def finds (transceiver : Transceiver) (answers : Answers) : Stream → Bool
  | .read => (transceiver.read.register answers.read answers.readScheduled).1
  | .write => (transceiver.write.register answers.write answers.writeScheduled).1

variable {answers : Answers} {operation : SocketOperation}

theorem ready_operations (write read : Bool) :
    has (operationIf write operationWrite ||| operationIf read operationRead) operationConnect =
        false ∧
      has (operationIf write operationWrite ||| operationIf read operationRead) operationRead =
        read ∧
      has (operationIf write operationWrite ||| operationIf read operationRead) operationWrite =
        write := by
  revert write read
  decide

theorem register_ready (connected : has operation operationConnect = false) (stream : Stream) :
    has (transceiver.registerWithRunLoop answers operation).1 stream.operation =
      (has operation stream.operation && transceiver.finds answers stream) := by
  simp only [registerWithRunLoop, connected, Bool.false_eq_true, if_false]
  cases stream with
  | read =>
      apply (ready_operations _ _).2.1.trans
      cases wanted : has operation operationRead <;> simp [Stream.operation, wanted, finds]
  | write =>
      apply (ready_operations _ _).2.2.trans
      cases wanted : has operation operationWrite <;> simp [Stream.operation, wanted, finds]

theorem register_open (opened : transceiver.Open)
    (connected : has operation operationConnect = false) :
    (transceiver.registerWithRunLoop answers operation).2.Open where
  settled := by
    simp only [registerWithRunLoop, connected, Bool.false_eq_true, if_false]
    exact opened.settled
  told := by
    simp only [registerWithRunLoop, connected, Bool.false_eq_true, if_false]
    intro stream
    cases stream with
    | read =>
        have told := opened.told .read
        dsimp only [stream]
        split
        · exact StreamState.register_told told
        · exact told
    | write =>
        have told := opened.told .write
        dsimp only [stream]
        split
        · exact StreamState.register_told told
        · exact told

theorem register_scheduled (opened : transceiver.Open)
    (connected : has operation operationConnect = false) {stream : Stream}
    (wanted : has operation stream.operation = true)
    (unready : transceiver.finds answers stream = false) :
    ((transceiver.registerWithRunLoop answers operation).2.stream stream).scheduled = true := by
  simp only [registerWithRunLoop, connected, Bool.false_eq_true, if_false]
  cases stream with
  | read =>
      rw [Stream.operation] at wanted
      simp only [stream, wanted, if_true]
      exact StreamState.register_scheduled (opened.told .read) unready
  | write =>
      rw [Stream.operation] at wanted
      simp only [stream, wanted, if_true]
      exact StreamState.register_scheduled (opened.told .write) unready

theorem unregister_operation (opened : transceiver.Open) (error : Bool) :
    (transceiver.unregisterFromRunLoop operation error).1 = operation := by
  simp only [unregisterFromRunLoop, opened.settled, Bool.false_eq_true, if_false]

theorem unregister_stream (opened : transceiver.Open) (error : Bool) (stream : Stream) :
    (transceiver.unregisterFromRunLoop operation error).2.stream stream =
      (transceiver.stream stream).unregister (has operation stream.operation) := by
  simp only [unregisterFromRunLoop, opened.settled, Bool.false_eq_true, if_false]
  cases stream <;> rfl

theorem unregister_open (opened : transceiver.Open) (error : Bool) :
    (transceiver.unregisterFromRunLoop operation error).2.Open where
  settled := by
    simp only [unregisterFromRunLoop, opened.settled, Bool.false_eq_true, if_false]
  told stream := by
    rw [unregister_stream opened error stream]
    exact StreamState.unregister_told (opened.told stream)

end Transceiver

end IceTouch.Streams
