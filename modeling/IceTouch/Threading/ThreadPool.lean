import Mathlib.Data.List.Basic

/-!
# The thread pool

`IceInternal::ThreadPool` on a selector, as a state machine. Every locked section of `run` and
`ioCompleted` is one step, and a wait in `followerWait` ends one. Which handlers are ready, what a
handler does and when a wait ends is up to the environment, so `notify` is only recorded.
-/

namespace IceTouch.Threading

/-- The sizes of a pool. The constructor leaves none without a thread. -/
structure Config where
  size : Int
  sizeIO : Int
  sizeMax : Int
  sizeWarn : Int
  serialize : Bool
  threadIdleTime : Int
  populated : 1 ≤ size
deriving Repr

/-- What the constructor makes of the properties; `SizeMax` is the adjusted size by default. -/
def configure (size : Int) (sizeMax : Option Int) (sizeWarn threadIdleTime nProcessors : Int)
    (serialize : Bool) : Config :=
  let size' := if size < 1 then 1 else size
  let asked := sizeMax.getD size'
  let counted := if asked = -1 then nProcessors else asked
  let sizeMax' := if counted < size' then size' else counted
  { size := size'
    sizeIO := min sizeMax' nProcessors
    sizeMax := sizeMax'
    sizeWarn :=
      if sizeWarn ≠ 0 ∧ sizeWarn < size' then size'
      else if sizeMax' < sizeWarn then sizeMax'
      else sizeWarn
    serialize := serialize
    threadIdleTime := if threadIdleTime < 0 then 0 else threadIdleTime
    populated := by
      simp only [size']
      split <;> omega }

variable {η : Type}

/-- Where a thread is in `run`. A handler comes with the operation it is ready for. -/
inductive Place (η : Type) where
  /-- Before the locked section, with no handler. -/
  | entering
  /-- In `select`. The local `select` of `run` is set nowhere else. -/
  | selecting
  /-- From the start of `message` to the next locked section of `run`. -/
  | running (handler : η) (ioCompleted : Bool)
  /-- In `wait` or `timedWait` of `followerWait`. -/
  | waiting
  /-- Out of `run` and of `_threads`. -/
  | returned
deriving DecidableEq, Repr

structure ThreadPoolCurrent (η : Type) where
  leader : Bool
  place : Place η
deriving DecidableEq, Repr

/-- Running a handler that has not called `ioCompleted`. -/
def ThreadPoolCurrent.performing (current : ThreadPoolCurrent η) : Bool :=
  match current.place with
  | .running _ false => true
  | _ => false

/-- Running a handler that has called `ioCompleted`. -/
def ThreadPoolCurrent.dispatching (current : ThreadPoolCurrent η) : Bool :=
  match current.place with
  | .running _ true => true
  | _ => false

def ThreadPoolCurrent.selecting (current : ThreadPoolCurrent η) : Bool :=
  match current.place with
  | .selecting => true
  | _ => false

/-- Still in `_threads`. -/
def ThreadPoolCurrent.pooled (current : ThreadPoolCurrent η) : Bool :=
  match current.place with
  | .returned => false
  | _ => true

inductive Assertion where
  | promoteFollower
  | followerWait
  | followerWaitThreads
  | run
  | ioCompleted
  | ioCompletedThreads
deriving DecidableEq, Repr

inductive Event (η : Type) where
  | notified
  | startedSelect
  /-- The handlers that `select` has returned become those of the pool. -/
  | ready (handlers : List η)
  /-- A thread takes the next handler. -/
  | given (thread : Nat) (handler : η)
  | disabled (handler : η)
  | enabled (handler : η)
  | lowOnThreads
  | created
  | notCreated
  /-- A `ShutdownWorkItem` is queued. -/
  | shutdown
  /-- A `JoinThreadWorkItem` is queued. -/
  | join (thread : Nat)
deriving DecidableEq, Repr

/-- The fields of the pool. All the threads there have been are kept, in the order in which they
were created. -/
structure Pool (η : Type) where
  promote : Bool
  inUse : Int
  inUseIO : Int
  handlers : List η
  nextHandler : Nat
  threads : List (ThreadPoolCurrent η)
  history : List (Event η)
  /-- The first assertion that failed. -/
  failed : Option Assertion
deriving DecidableEq, Repr

namespace Pool

/-- `_nextHandler == _handlers.end()`. -/
def atEnd (s : Pool η) : Bool := s.handlers.length ≤ s.nextHandler

/-- `_threads.size()`. -/
def threadCount (s : Pool η) : Int := s.threads.countP ThreadPoolCurrent.pooled

def emit (event : Event η) (s : Pool η) : Pool η := { s with history := s.history ++ [event] }

def assert (assertion : Assertion) (holds : Bool) (s : Pool η) : Pool η :=
  if holds then s else { s with failed := some assertion }

def put (thread : Nat) (current : ThreadPoolCurrent η) (s : Pool η) : Pool η :=
  { s with threads := s.threads.set thread current }

def promoteFollower (config : Config) (thread : Nat) (current : ThreadPoolCurrent η)
    (s : Pool η) : Pool η :=
  let asserted := s.assert .promoteFollower (!s.promote && current.leader)
  let promoted := { asserted with promote := true }
  let told :=
    if s.inUseIO < config.sizeIO ∧ (¬ s.atEnd ∨ s.inUseIO = 0) then promoted.emit .notified
    else promoted
  told.put thread { current with leader := false }

/-- The rest of the section of `run`, from where it gets the next ready handler. -/
def getNext (config : Config) (thread : Nat) (leader : Bool) (s : Pool η) : Pool η :=
  match s.handlers[s.nextHandler]? with
  | some handler =>
      let taken := { s with nextHandler := s.nextHandler + 1 }.emit (.given thread handler)
      let current : ThreadPoolCurrent η := ⟨leader, .running handler false⟩
      if 1 < config.sizeMax then
        let counted := { taken with inUseIO := s.inUseIO + 1 }
        if ¬ counted.atEnd ∧ counted.inUseIO < config.sizeIO then
          counted.promoteFollower config thread current
        else counted.put thread current
      else taken.put thread current
  | none =>
      if 0 < s.inUseIO then s.promoteFollower config thread ⟨leader, .entering⟩
      else (s.emit .startedSelect).put thread ⟨leader, .selecting⟩

def blocked (config : Config) (s : Pool η) : Bool :=
  !s.promote || s.inUseIO == config.sizeIO || (s.atEnd && 0 < s.inUseIO)

/-- The loop of `followerWait` when its condition is looked at, and the section of `run` after
it. -/
def awaitTurn (config : Config) (thread : Nat) (leader : Bool) (s : Pool η) : Pool η :=
  if s.blocked config then s.put thread ⟨leader, .waiting⟩
  else { s with promote := false }.getNext config thread true

/-- The section of `run` once the last handler is accounted for: a follower waits first. -/
def proceed (config : Config) (thread : Nat) (leader : Bool) (s : Pool η) : Pool η :=
  if leader then s.getNext config thread leader
  else (s.assert .followerWait (!leader)).awaitTurn config thread leader

def finish (config : Config) (thread : Nat) (leader : Bool) (handler : η) (ioCompleted : Bool)
    (s : Pool η) : Pool η :=
  if 1 < config.sizeMax then
    if ioCompleted then
      let enabled := (s.emit (.enabled handler)).assert .run (0 < s.inUse)
      { enabled with inUse := s.inUse - 1 }.proceed config thread leader
    else { s with inUseIO := s.inUseIO - 1 }.proceed config thread leader
  else s.getNext config thread leader

/-- `ioCompleted` up to the assertions: another thread may go on with the handlers. -/
def passOn (config : Config) (thread : Nat) (leader : Bool) (handler : η) (s : Pool η) : Pool η :=
  let current : ThreadPoolCurrent η := ⟨leader, .running handler true⟩
  let released : Pool η := { s with inUseIO := s.inUseIO - 1 }
  let disabled := if config.serialize then released.emit (.disabled handler) else released
  if leader then disabled.promoteFollower config thread current
  else if disabled.promote ∧ (¬ disabled.atEnd ∨ disabled.inUseIO = 0) then
    (disabled.emit .notified).put thread current
  else disabled.put thread current

/-- Another thread, when all are in use. Whether it can be created is up to the system. -/
def grow (config : Config) (creates : Bool) (s : Pool η) : Pool η :=
  if s.inUse < config.sizeMax ∧ s.inUse = s.threadCount then
    if creates then
      emit .created { s with threads := s.threads ++ [⟨false, .entering⟩] }
    else s.emit .notCreated
  else s

/-- `ioCompleted` while the pool is not destroyed. -/
def ioCompleted (config : Config) (thread : Nat) (leader : Bool) (handler : η) (creates : Bool)
    (s : Pool η) : Pool η :=
  if 1 < config.sizeMax then
    let passed := s.passOn config thread leader handler
    let asserted := passed.assert .ioCompleted (0 ≤ passed.inUse)
    let used : Pool η := { asserted with inUse := passed.inUse + 1 }
    let warned := if used.inUse = config.sizeWarn then used.emit .lowOnThreads else used
    (warned.assert .ioCompletedThreads (warned.inUse ≤ warned.threadCount)).grow config creates
  else s.put thread ⟨leader, .running handler true⟩

/-- `timedWait` of `followerWait` has timed out. -/
def idle (config : Config) (thread : Nat) (leader : Bool) (s : Pool η) : Pool η :=
  if s.blocked config then
    ((s.assert .followerWaitThreads (1 < s.threadCount)).emit (.join thread)).put thread
      ⟨leader, .returned⟩
  else s.awaitTurn config thread leader

end Pool

/-- What happens next to a thread. -/
inductive Action (η : Type) where
  /-- It enters the section without a handler. -/
  | enter
  /-- `select` has returned and the section is entered. -/
  | selected (handlers : List η)
  /-- `select` has timed out and its section is entered. -/
  | selectTimedOut
  | ioCompleted (creates : Bool)
  /-- `message` has returned or thrown and the section is entered. -/
  | finish
  /-- `wait` or `timedWait` ends, also for no reason. -/
  | wake
  | timedOut
deriving DecidableEq, Repr

namespace Pool

/-- A handler calls `ioCompleted` once at most. -/
def act (config : Config) (thread : Nat) (leader : Bool) (s : Pool η) :
    Place η → Action η → Option (Pool η)
  | .entering, .enter => some (s.proceed config thread leader)
  | .selecting, .selected handlers =>
      let swapped := { s with handlers := handlers, nextHandler := 0 }
      some ((swapped.emit (.ready handlers)).getNext config thread leader)
  | .selecting, .selectTimedOut => some (if s.inUse = 0 then s.emit .shutdown else s)
  | .running handler false, .ioCompleted creates =>
      some (s.ioCompleted config thread leader handler creates)
  | .running handler ioCompleted, .finish =>
      some (s.finish config thread leader handler ioCompleted)
  | .waiting, .wake => some (s.awaitTurn config thread leader)
  | .waiting, .timedOut =>
      if config.threadIdleTime = 0 then none else some (s.idle config thread leader)
  | _, _ => none

def step (config : Config) (event : Nat × Action η) (s : Pool η) : Option (Pool η) :=
  if s.failed.isSome then none
  else
    s.threads[event.1]?.bind fun current =>
      s.act config event.1 current.leader current.place event.2

def start (config : Config) : Pool η where
  promote := true
  inUse := 0
  inUseIO := 0
  handlers := []
  nextHandler := 0
  threads := List.replicate config.size.toNat ⟨false, .entering⟩
  history := []
  failed := none

end Pool

end IceTouch.Threading
