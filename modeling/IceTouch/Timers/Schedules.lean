import IceTouch.Timers.Timer

/-!
# The schedule of one task

What a timer is for, seen from one task: at any time the task has a schedule or none. Calls
give it a schedule and take it away, a run needs one that is due, a run of a one-shot schedule
uses it up, and a repeated schedule is due again after its run. Histories that keep to this are
accepted; what is known of them about cancelled and changed schedules is derived here.
-/

namespace IceTouch.Timers

/-- A schedule: when it is due, unless its task is being run, and with which delay it repeats. -/
structure Plan where
  due : Option Time
  delay : Time
deriving DecidableEq, Repr

variable {τ : Type} [LinearOrder τ]

def follow (task : τ) (plan : Option Plan) : Event τ → Option (Option Plan)
  | .scheduled other time delay =>
      if other = task then if plan = none then some (some ⟨some time, delay⟩) else none
      else some plan
  | .cancelled other result =>
      if other = task then if result = plan.isSome then some none else none else some plan
  | .taken now token =>
      if token.task = task then
        if plan = some ⟨some token.scheduledTime, token.delay⟩ ∧
            now.before token.scheduledTime = false then
          some (if token.delay = 0 then none else some ⟨none, token.delay⟩)
        else none
      else some plan
  | .requeued now token =>
      if token.task = task then
        if plan = some ⟨none, token.delay⟩ ∧ token.delay ≠ 0 ∧
            token.scheduledTime = now + token.delay then
          some (some ⟨some token.scheduledTime, token.delay⟩)
        else none
      else some plan
  | .destroyed => some none
  | .refused _ => some plan
  | .notified => some plan

def history (task : τ) : Option Plan → List (Event τ) → Option (Option Plan)
  | plan, [] => some plan
  | plan, event :: events => (follow task plan event).bind fun next => history task next events

theorem history_append (task : τ) (plan : Option Plan) (events more : List (Event τ)) :
    history task plan (events ++ more) =
      (history task plan events).bind fun next => history task next more := by
  induction events generalizing plan with
  | nil => rfl
  | cons event events ih =>
      simp only [List.cons_append, history]
      cases follow task plan event with
      | none => rfl
      | some next => exact ih next

def Unscheduled (task : τ) (events : List (Event τ)) : Prop :=
  ∀ time delay, Event.scheduled task time delay ∉ events

/-- After `cancel` has returned true, no run of the task starts until it is scheduled again. -/
def CancelStops (events : List (Event τ)) : Prop :=
  ∀ before between after now token,
    events = before ++ .cancelled token.task true :: (between ++ .taken now token :: after) →
    ¬Unscheduled token.task between

def OneShotOnce (events : List (Event τ)) : Prop :=
  ∀ before between later after time now now' token token',
    events = before ++ .scheduled token.task time 0 ::
      (between ++ .taken now token :: (later ++ .taken now' token' :: after)) →
    token'.task = token.task →
    ¬(Unscheduled token.task between ∧ Unscheduled token.task later)

/-- A task runs only according to its last schedule: when it is due, with its delay, at its
time or, for a repeated schedule, that delay after an earlier run. -/
def RunsAsScheduled (events : List (Event τ)) : Prop :=
  ∀ before between after time delay now token,
    events = before ++ .scheduled token.task time delay :: (between ++ .taken now token :: after) →
    Unscheduled token.task between →
    now.before token.scheduledTime = false ∧ token.delay = delay ∧
      (token.scheduledTime = time ∨
        delay ≠ 0 ∧ ∃ again, .requeued again token ∈ between ∧
          token.scheduledTime = again + delay)

variable {plan after : Option Plan} {events : List (Event τ)} {task : τ}

variable {event : Event τ} {time delay : Time}

theorem follow_none (unscheduled : ∀ time delay, event ≠ .scheduled task time delay)
    (possible : follow task none event = some plan) : plan = none := by
  cases event with
  | scheduled other time delay =>
      by_cases same : other = task
      · exact absurd (by rw [same]) (unscheduled time delay)
      · rw [follow, if_neg same] at possible
        exact (Option.some.inj possible).symm
  | cancelled other result =>
      by_cases same : other = task
      · rw [follow, if_pos same] at possible
        by_cases known : result = (none : Option Plan).isSome
        · rw [if_pos known] at possible
          exact (Option.some.inj possible).symm
        · rw [if_neg known] at possible
          cases possible
      · rw [follow, if_neg same] at possible
        exact (Option.some.inj possible).symm
  | taken now token =>
      by_cases same : token.task = task
      · rw [follow, if_pos same, if_neg (by simp)] at possible
        cases possible
      · rw [follow, if_neg same] at possible
        exact (Option.some.inj possible).symm
  | requeued now token =>
      by_cases same : token.task = task
      · rw [follow, if_pos same, if_neg (by simp)] at possible
        cases possible
      · rw [follow, if_neg same] at possible
        exact (Option.some.inj possible).symm
  | refused refusal => exact (Option.some.inj possible).symm
  | destroyed => exact (Option.some.inj possible).symm
  | notified => exact (Option.some.inj possible).symm

theorem history_none (unscheduled : Unscheduled task events)
    (possible : history task none events = some plan) : plan = none := by
  induction events with
  | nil => exact (Option.some.inj possible).symm
  | cons event events ih =>
      rw [history, Option.bind_eq_some_iff] at possible
      obtain ⟨next, first, rest⟩ := possible
      have here : next = none :=
        follow_none (fun time delay eq => unscheduled time delay (eq ▸ List.mem_cons_self)) first
      rw [here] at rest
      exact ih (fun time delay inside => unscheduled time delay (List.mem_cons_of_mem _ inside)) rest

theorem follow_taken {now : Time} {token : Token τ}
    (possible : follow token.task plan (.taken now token) = some after) :
    plan = some ⟨some token.scheduledTime, token.delay⟩ ∧
      now.before token.scheduledTime = false ∧
      after = if token.delay = 0 then none else some ⟨none, token.delay⟩ := by
  rw [follow, if_pos rfl] at possible
  by_cases due : plan = some ⟨some token.scheduledTime, token.delay⟩ ∧
      now.before token.scheduledTime = false
  · rw [if_pos due] at possible
    exact ⟨due.1, due.2, (Option.some.inj possible).symm⟩
  · rw [if_neg due] at possible
    cases possible

theorem follow_scheduled (possible : follow task plan (.scheduled task time delay) = some after) :
    after = some ⟨some time, delay⟩ := by
  rw [follow, if_pos rfl] at possible
  by_cases free : plan = none
  · rw [if_pos free] at possible
    exact (Option.some.inj possible).symm
  · rw [if_neg free] at possible
    cases possible

/-- The schedule with this delay, or none any more. It is due at its time, or that delay after an
earlier run. -/
def Under (task : τ) (time delay : Time) (events : List (Event τ)) (plan : Option Plan) : Prop :=
  ∀ current, plan = some current → current.delay = delay ∧
    ∀ due, current.due = some due → due = time ∨
      delay ≠ 0 ∧ ∃ again, Event.requeued again ⟨due, delay, task⟩ ∈ events ∧ due = again + delay

theorem follow_under (unscheduled : ∀ time delay, event ≠ .scheduled task time delay)
    (inside : event ∈ events) (under : Under task time delay events plan)
    (possible : follow task plan event = some after) : Under task time delay events after := by
  have kept (same : some plan = some after) : Under task time delay events after :=
    Option.some.inj same ▸ under
  have ended : Under task time delay events none := by
    intro current eq
    cases eq
  cases event with
  | scheduled other time' delay' =>
      by_cases same : other = task
      · exact absurd (by rw [same]) (unscheduled time' delay')
      · rw [follow, if_neg same] at possible
        exact kept possible
  | cancelled other result =>
      by_cases same : other = task
      · rw [follow, if_pos same] at possible
        by_cases known : result = plan.isSome
        · rw [if_pos known] at possible
          exact Option.some.inj possible ▸ ended
        · rw [if_neg known] at possible
          cases possible
      · rw [follow, if_neg same] at possible
        exact kept possible
  | taken now token =>
      by_cases same : token.task = task
      · subst same
        obtain ⟨before, _, rfl⟩ := follow_taken possible
        by_cases once : token.delay = 0
        · rw [if_pos once]
          exact ended
        · rw [if_neg once]
          intro current eq
          cases eq
          refine ⟨(under _ before).1, ?_⟩
          intro due eq
          cases eq
      · rw [follow, if_neg same] at possible
        exact kept possible
  | requeued now token =>
      by_cases same : token.task = task
      · rw [follow, if_pos same] at possible
        by_cases running : plan = some ⟨none, token.delay⟩ ∧ token.delay ≠ 0 ∧
            token.scheduledTime = now + token.delay
        · rw [if_pos running] at possible
          obtain ⟨before, repeated, again⟩ := running
          have delayed : token.delay = delay := (under _ before).1
          intro current eq
          rw [← Option.some.inj possible] at eq
          cases eq
          refine ⟨delayed, fun due eq => .inr ⟨delayed ▸ repeated, now, ?_, ?_⟩⟩
          · rw [← Option.some.inj eq, ← delayed, ← same]
            exact inside
          · rw [← Option.some.inj eq, ← delayed]
            exact again
        · rw [if_neg running] at possible
          cases possible
      · rw [follow, if_neg same] at possible
        exact kept possible
  | refused refusal => exact kept possible
  | destroyed => exact Option.some.inj possible ▸ ended
  | notified => exact kept possible

theorem history_under {all : List (Event τ)} (unscheduled : Unscheduled task events)
    (inside : ∀ event ∈ events, event ∈ all) (under : Under task time delay all plan)
    (possible : history task plan events = some after) : Under task time delay all after := by
  induction events generalizing plan with
  | nil => exact Option.some.inj possible ▸ under
  | cons event events ih =>
      rw [history, Option.bind_eq_some_iff] at possible
      obtain ⟨next, first, rest⟩ := possible
      have here : Under task time delay all next :=
        follow_under (fun time delay eq => unscheduled time delay (eq ▸ List.mem_cons_self))
          (inside event List.mem_cons_self) under first
      exact ih (fun time delay later => unscheduled time delay (List.mem_cons_of_mem _ later))
        (fun other later => inside other (List.mem_cons_of_mem _ later)) here rest

def Accepted (events : List (Event τ)) : Prop :=
  ∀ task, ∃ plan, history task none events = some plan

/-- The schedule of the task before and after an event of an accepted history, and the rest. -/
theorem accepted_split {before rest : List (Event τ)}
    (possible : history task plan (before ++ event :: rest) = some after) :
    ∃ current next, history task plan before = some current ∧
      follow task current event = some next ∧ history task next rest = some after := by
  rw [history_append, Option.bind_eq_some_iff] at possible
  obtain ⟨current, first, later⟩ := possible
  rw [history, Option.bind_eq_some_iff] at later
  obtain ⟨next, here, rest⟩ := later
  exact ⟨current, next, first, here, rest⟩

theorem accepted_cancel_stops (accepted : Accepted events) : CancelStops events := by
  intro before between after now token split unscheduled
  obtain ⟨plan, possible⟩ := accepted token.task
  rw [split] at possible
  obtain ⟨current, next, _, cancelled, rest⟩ := accepted_split possible
  obtain ⟨later, _, ran, taken, _⟩ := accepted_split rest
  have none : next = none := by
    rw [follow, if_pos rfl] at cancelled
    by_cases known : true = current.isSome
    · rw [if_pos known] at cancelled
      exact (Option.some.inj cancelled).symm
    · rw [if_neg known] at cancelled
      cases cancelled
  rw [none] at ran
  have gone := history_none unscheduled ran
  have due := (follow_taken taken).1
  rw [gone] at due
  cases due

theorem accepted_runs_as_scheduled (accepted : Accepted events) : RunsAsScheduled events := by
  intro before between after time delay now token split unscheduled
  obtain ⟨plan, possible⟩ := accepted token.task
  rw [split] at possible
  obtain ⟨_, next, _, scheduled, rest⟩ := accepted_split possible
  obtain ⟨later, _, ran, taken, _⟩ := accepted_split rest
  have initially : Under token.task time delay between next := by
    intro current eq
    rw [follow_scheduled scheduled] at eq
    cases eq
    exact ⟨rfl, fun due eq => .inl (Option.some.inj eq).symm⟩
  have under := history_under unscheduled (fun _ inside => inside) initially ran
  obtain ⟨due, ready, _⟩ := follow_taken taken
  obtain ⟨delayed, times⟩ := under _ due
  refine ⟨ready, delayed, (times _ rfl).imp_right ?_⟩
  rintro ⟨repeated, again, requeued, time⟩
  refine ⟨repeated, again, ?_, time⟩
  rw [← show token.delay = delay from delayed] at requeued
  exact requeued

theorem accepted_one_shot_once (accepted : Accepted events) : OneShotOnce events := by
  intro before between later after time now now' token token' split same unscheduled
  obtain ⟨plan, possible⟩ := accepted token.task
  rw [split] at possible
  obtain ⟨_, next, _, scheduled, rest⟩ := accepted_split possible
  obtain ⟨_, used, ran, taken, rest⟩ := accepted_split rest
  obtain ⟨gone, _, ran', taken', _⟩ := accepted_split rest
  have initially : Under token.task time 0 between next := by
    intro current eq
    rw [follow_scheduled scheduled] at eq
    cases eq
    exact ⟨rfl, fun due eq => .inl (Option.some.inj eq).symm⟩
  have under := history_under unscheduled.1 (fun _ inside => inside) initially ran
  obtain ⟨due, _, after⟩ := follow_taken taken
  have once : token.delay = 0 := (under _ due).1
  rw [if_pos once] at after
  rw [after] at ran'
  have none := history_none unscheduled.2 ran'
  rw [← same] at taken'
  have due' := (follow_taken taken').1
  rw [none] at due'
  cases due'

end IceTouch.Timers
