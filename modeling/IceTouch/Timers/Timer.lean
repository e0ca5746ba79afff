import IceTouch.Library.OrderedMap

/-!
# The timer

`IceUtil::Timer` as a state machine. Every locked section is one step: a call from any thread,
which may be the timer thread while it runs a task, and the sections of `Timer::run` between two
waits. When a wait ends and what the clock reads is up to the environment, so `notify` is only
recorded. A run of a task starts in the section that takes its token.
-/

namespace IceTouch.Timers

open OrderedMap

/-- Microseconds, in 64 bits. -/
abbrev Time := BitVec 64

/-- `operator<` of `IceUtil::Time`. -/
def Time.before (time other : Time) : Bool := time.slt other

/-- Tasks are known by their address. -/
structure Token (τ : Type) where
  scheduledTime : Time
  delay : Time
  task : τ
deriving DecidableEq, Repr

variable {τ : Type} [LinearOrder τ]

/-- `Token::operator<`. -/
def Token.less (token other : Token τ) : Bool :=
  if token.scheduledTime.before other.scheduledTime then true
  else if other.scheduledTime.before token.scheduledTime then false
  else token.task < other.task

/-- `insert` of `std::set<Token>`. -/
def insertToken (token : Token τ) : List (Token τ) → List (Token τ)
  | [] => [token]
  | first :: rest =>
      if token.less first then token :: first :: rest
      else if first.less token then first :: insertToken token rest
      else first :: rest

/-- `erase` of `std::set<Token>`: the token that is neither less nor greater. -/
def eraseToken (token : Token τ) (tokens : List (Token τ)) : List (Token τ) :=
  tokens.filter fun other => other.less token || token.less other

/-- Where the timer thread is, with its local `token` where it has one. -/
inductive Phase (τ : Type) where
  /-- About to enter the locked section, after the run of this token. -/
  | entering (token : Option (Token τ))
  /-- In `_monitor.wait()`. -/
  | waiting
  /-- In `_monitor.timedWait`. -/
  | timedWaiting
  /-- In `runTimerTask`. -/
  | running (token : Token τ)
  | exited
deriving DecidableEq, Repr

structure Timer (τ : Type) where
  destroyed : Bool
  tokens : List (Token τ)
  tasks : List (τ × Time)
  wakeUpTime : Time
  phase : Phase τ
deriving DecidableEq, Repr

/-- Why `schedule` throws an `IllegalArgumentException`. -/
inductive Refusal where
  | timerDestroyed
  | invalidDelay
  | alreadyScheduled
deriving DecidableEq, Repr

def Refusal.reason : Refusal → String
  | .timerDestroyed => "timer destroyed"
  | .invalidDelay => "invalid delay"
  | .alreadyScheduled => "task is already schedulded"

inductive Event (τ : Type) where
  /-- `schedule` has returned, with a delay of 0, or `scheduleRepeated`. -/
  | scheduled (task : τ) (time delay : Time)
  | refused (refusal : Refusal)
  | cancelled (task : τ) (result : Bool)
  | destroyed
  | notified
  /-- The timer thread takes the token: a run of its task starts. -/
  | taken (now : Time) (token : Token τ)
  /-- A repeated task is scheduled again after a run. -/
  | requeued (now : Time) (token : Token τ)
deriving DecidableEq, Repr

inductive Action (τ : Type) where
  | schedule (task : τ) (delay now : Time)
  | scheduleRepeated (task : τ) (delay now : Time)
  | cancel (task : τ)
  | destroy
  /-- The timer thread enters its section. It may read the clock twice. -/
  | enter (again now : Time)
  /-- A wait ends. -/
  | wake (now : Time)
  /-- `runTimerTask` has returned or thrown. -/
  | finish
deriving DecidableEq, Repr

namespace Timer

def initial : Timer τ := ⟨false, [], [], 0, .entering none⟩

/-- What `schedule` and `scheduleRepeated` do under the lock; only the latter puts its delay into
the token. -/
def scheduleToken (task : τ) (delay repeated now : Time) (timer : Timer τ) :
    Timer τ × List (Event τ) :=
  if timer.destroyed then (timer, [.refused .timerDestroyed])
  else
    let time := now + delay
    if Time.before 0 delay ∧ time.before now then (timer, [.refused .invalidDelay])
    else if (find task timer.tasks).isSome then (timer, [.refused .alreadyScheduled])
    else
      ({ timer with
        tasks := insert task time timer.tasks
        tokens := insertToken ⟨time, repeated, task⟩ timer.tokens },
        .scheduled task time repeated ::
          if timer.wakeUpTime = 0 ∨ time.before timer.wakeUpTime then [.notified] else [])

def schedule (task : τ) (delay now : Time) (timer : Timer τ) : Timer τ × List (Event τ) :=
  timer.scheduleToken task delay 0 now

def scheduleRepeated (task : τ) (delay now : Time) (timer : Timer τ) :
    Timer τ × List (Event τ) :=
  timer.scheduleToken task delay delay now

def cancel (task : τ) (timer : Timer τ) : Timer τ × List (Event τ) :=
  if timer.destroyed then (timer, [.cancelled task false])
  else
    match find task timer.tasks with
    | none => (timer, [.cancelled task false])
    | some time =>
        ({ timer with
          tokens := eraseToken ⟨time, 0, task⟩ timer.tokens
          tasks := erase task timer.tasks }, [.cancelled task true])

/-- The locked section of `destroy`; waiting for the thread to end changes nothing. -/
def destroy (timer : Timer τ) : Timer τ × List (Event τ) :=
  if timer.destroyed then (timer, [])
  else ({ timer with destroyed := true, tasks := [], tokens := [] }, [.notified, .destroyed])

/-- "If the task we just ran is a repeated task, schedule it again for executation if it wasn't
canceled." -/
def requeue (now : Time) (saved : Option (Token τ)) (timer : Timer τ) :
    Timer τ × List (Event τ) :=
  match saved with
  | none => (timer, [])
  | some token =>
      if token.delay = 0 then (timer, [])
      else
        match find token.task timer.tasks with
        | none => (timer, [])
        | some _ =>
            let again := { token with scheduledTime := now + token.delay }
            ({ timer with
              tasks := assign token.task again.scheduledTime timer.tasks
              tokens := insertToken again timer.tokens }, [.requeued now again])

/-- The loop that looks at the first token, from its test to its next wait or to the end of the
locked section. -/
def examine (now : Time) (timer : Timer τ) : Timer τ × List (Event τ) :=
  if timer.destroyed then ({ timer with phase := .exited }, [])
  else
    match timer.tokens with
    | [] => ({ timer with phase := .entering none }, [])
    | first :: rest =>
        if now.before first.scheduledTime then
          ({ timer with wakeUpTime := first.scheduledTime, phase := .timedWaiting }, [])
        else
          ({ timer with
            tokens := rest
            tasks := if first.delay = 0 then erase first.task timer.tasks else timer.tasks
            phase := .running first }, [.taken now first])

def enter (again now : Time) (saved : Option (Token τ)) (timer : Timer τ) :
    Timer τ × List (Event τ) :=
  if timer.destroyed then ({ timer with phase := .exited }, [])
  else
    let requeued := timer.requeue again saved
    let reset : Timer τ := { requeued.1 with phase := .entering none }
    if reset.tokens.isEmpty then ({ reset with wakeUpTime := 0, phase := .waiting }, requeued.2)
    else
      let examined := reset.examine now
      (examined.1, requeued.2 ++ examined.2)

/-- One step, if the thread is where it can make it. -/
def step : Action τ → Timer τ → Option (Timer τ × List (Event τ))
  | .schedule task delay now, timer => some (timer.schedule task delay now)
  | .scheduleRepeated task delay now, timer => some (timer.scheduleRepeated task delay now)
  | .cancel task, timer => some (timer.cancel task)
  | .destroy, timer => some timer.destroy
  | .enter again now, timer =>
      match timer.phase with
      | .entering saved => some (timer.enter again now saved)
      | _ => none
  | .wake now, timer =>
      match timer.phase with
      | .waiting => some (timer.examine now)
      | .timedWaiting => some (timer.examine now)
      | _ => none
  | .finish, timer =>
      match timer.phase with
      | .running token => some ({ timer with phase := .entering (some token) }, [])
      | _ => none

def saved (timer : Timer τ) : Option (Token τ) :=
  match timer.phase with
  | .entering token => token
  | .running token => some token
  | _ => none

def tokensOf (timer : Timer τ) (task : τ) : List (Token τ) :=
  timer.tokens.filter fun token => token.task = task

/-- The repeated task that is being run: the thread has its token and may insert it again. -/
def Repeating (timer : Timer τ) (task : τ) : Prop :=
  ∃ token, timer.saved = some token ∧ token.delay ≠ 0 ∧ token.task = task

instance (timer : Timer τ) (task : τ) : Decidable (timer.Repeating task) :=
  inferInstanceAs (Decidable (∃ token ∈ timer.saved, token.delay ≠ 0 ∧ token.task = task))

end Timer

/-- The timer and all events after some steps that are `allowed`. -/
inductive Ran (allowed : Action τ → Timer τ → Prop) : Timer τ → List (Event τ) → Prop
  | start : Ran allowed .initial []
  | next {timer after : Timer τ} {events more : List (Event τ)} {action : Action τ}
      (before : Ran allowed timer events) (admitted : allowed action timer)
      (stepped : timer.step action = some (after, more)) : Ran allowed after (events ++ more)

def runAll (check : Action τ → Timer τ → Bool) :
    List (Action τ) → Timer τ → List (Event τ) → Option (Timer τ × List (Event τ))
  | [], timer, events => some (timer, events)
  | action :: actions, timer, events =>
      if check action timer then
        (timer.step action).bind fun result => runAll check actions result.1 (events ++ result.2)
      else none

variable {allowed : Action τ → Timer τ → Prop} {check : Action τ → Timer τ → Bool}

theorem ran_all (implies : ∀ action timer, check action timer = true → allowed action timer)
    {actions : List (Action τ)} {timer after : Timer τ} {events later : List (Event τ)}
    (before : Ran allowed timer events)
    (runs : runAll check actions timer events = some (after, later)) :
    Ran allowed after later := by
  induction actions generalizing timer events with
  | nil =>
      cases runs
      exact before
  | cons action actions ih =>
      rw [runAll, Option.ite_none_right_eq_some, Option.bind_eq_some_iff] at runs
      obtain ⟨passed, result, stepped, rest⟩ := runs
      exact ih (before.next (implies _ _ passed) stepped) rest

end IceTouch.Timers
