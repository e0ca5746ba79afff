import IceTouch.Timers.Schedules

/-!
# Tasks and tokens

The timer follows the schedules of its tasks as long as no task is given a new schedule while
the run of a cancelled repeated schedule still goes on: `_tasks` and `_tokens` agree, and every
task has the schedule that the history of calls and runs gives it.
-/

namespace IceTouch.Timers

open OrderedMap

variable {τ : Type} [LinearOrder τ]

variable {token : Token τ} {tokens : List (Token τ)}

theorem equivalent_task {other : Token τ} (less : token.less other = false)
    (greater : other.less token = false) : token.task = other.task := by
  rw [Token.less] at less greater
  by_cases before : token.scheduledTime.before other.scheduledTime = true
  · rw [if_pos before] at less
    cases less
  · by_cases after : other.scheduledTime.before token.scheduledTime = true
    · rw [if_pos after] at greater
      cases greater
    · rw [if_neg before, if_neg after] at less
      rw [if_neg before, if_neg after] at greater
      exact le_antisymm (not_lt.mp (of_decide_eq_false greater))
        (not_lt.mp (of_decide_eq_false less))

theorem same_not_less {other : Token τ} (time : token.scheduledTime = other.scheduledTime)
    (task : token.task = other.task) : token.less other = false := by
  simp [Token.less, Time.before, time, task, BitVec.slt]

variable {task : τ} {timer : Timer τ}

theorem insert_other (token : Token τ) (different : token.task ≠ task) (tokens : List (Token τ)) :
    (insertToken token tokens).filter (fun other => other.task = task) =
      tokens.filter (fun other => other.task = task) := by
  induction tokens with
  | nil => simp [insertToken, different]
  | cons first rest ih =>
      rw [insertToken]
      by_cases before : token.less first = true
      · rw [if_pos before, List.filter_cons_of_neg (by simp [different])]
      · rw [if_neg before]
        by_cases after : first.less token = true
        · rw [if_pos after, List.filter_cons, List.filter_cons, ih]
        · rw [if_neg after]

theorem insert_own (token : Token τ)
    (none : tokens.filter (fun other => other.task = token.task) = []) :
    (insertToken token tokens).filter (fun other => other.task = token.task) = [token] := by
  induction tokens with
  | nil => simp [insertToken]
  | cons first rest ih =>
      have absent : first.task ≠ token.task := by
        intro same
        rw [List.filter_cons_of_pos (by simp [same])] at none
        cases none
      rw [List.filter_cons_of_neg (by simp [absent])] at none
      rw [insertToken]
      by_cases before : token.less first = true
      · rw [if_pos before, List.filter_cons_of_pos (by simp),
          List.filter_cons_of_neg (by simp [absent]), none]
      · by_cases after : first.less token = true
        · rw [if_neg before, if_pos after, List.filter_cons_of_neg (by simp [absent]), ih none]
        · exact absurd (equivalent_task (Bool.not_eq_true _ ▸ after)
            (Bool.not_eq_true _ ▸ before)) absent

theorem erase_other (different : token.task ≠ task) (tokens : List (Token τ)) :
    (eraseToken token tokens).filter (fun other => other.task = task) =
      tokens.filter (fun other => other.task = task) := by
  rw [eraseToken, List.filter_filter]
  apply List.filter_congr
  intro other _
  by_cases own : other.task = task
  · have kept : (other.less token || token.less other) = true := by
      by_contra erased
      rw [Bool.not_eq_true, Bool.or_eq_false_iff] at erased
      exact different ((equivalent_task erased.2 erased.1).trans own)
    rw [kept, Bool.and_true]
  · simp [own]

theorem erase_own (token other : Token τ) (time : other.scheduledTime = token.scheduledTime)
    (task : other.task = token.task)
    (only : tokens.filter (fun other => other.task = token.task) = [other]) :
    (eraseToken token tokens).filter (fun other => other.task = token.task) = [] := by
  have swapped : (eraseToken token tokens).filter (fun other => other.task = token.task) =
      (tokens.filter fun other => other.task = token.task).filter fun other =>
        other.less token || token.less other := by
    rw [eraseToken, List.filter_filter, List.filter_filter]
    apply List.filter_congr
    intro other _
    exact Bool.and_comm _ _
  rw [swapped, only]
  have less := same_not_less time task
  have greater := same_not_less time.symm task.symm
  simp [less, greater]

theorem erase_none (none : tokens.filter (fun other => other.task = task) = []) :
    (eraseToken token tokens).filter (fun other => other.task = task) = [] := by
  rw [List.filter_eq_nil_iff] at none ⊢
  intro other kept
  exact none other (List.mem_of_mem_filter kept)

inductive Tracks (timer : Timer τ) (task : τ) : Option Plan → Prop
  | idle (absent : find task timer.tasks = none) (free : timer.tokensOf task = []) :
      Tracks timer task none
  | repeating {token : Token τ} {time : Time} (saved : timer.saved = some token)
      (repeated : token.delay ≠ 0) (own : token.task = task)
      (recorded : find task timer.tasks = some time) (free : timer.tokensOf task = []) :
      Tracks timer task (some ⟨none, token.delay⟩)
  | waiting {time delay : Time} (resting : ¬timer.Repeating task)
      (recorded : find task timer.tasks = some time)
      (only : timer.tokensOf task = [⟨time, delay, task⟩]) :
      Tracks timer task (some ⟨some time, delay⟩)

/-- `destroy` clears the tables. -/
def Cleared (timer : Timer τ) : Prop :=
  timer.destroyed = true → timer.tasks = [] ∧ timer.tokens = []

/-- The events are possible for every task, and the timer ends up with the schedules they
give. -/
structure Follows (timer : Timer τ) (result : Timer τ × List (Event τ)) : Prop where
  cleared : Cleared timer → Cleared result.1
  tracks : Cleared timer → ∀ task plan, Tracks timer task plan →
    ∃ next, history task plan result.2 = some next ∧ Tracks result.1 task next

variable {plan : Option Plan} {events : List (Event τ)} {saved : Option (Token τ)}

theorem tracks_frame {after : Timer τ} (tracks : Tracks timer task plan)
    (tasks : find task after.tasks = find task timer.tasks)
    (tokens : after.tokensOf task = timer.tokensOf task)
    (saved : ∀ token : Token τ, token.task = task →
      (after.saved = some token ↔ timer.saved = some token)) : Tracks after task plan := by
  cases tracks with
  | idle absent free => exact .idle (tasks.trans absent) (tokens.trans free)
  | repeating kept repeated own recorded free =>
      exact .repeating ((saved _ own).mpr kept) repeated own (tasks.trans recorded)
        (tokens.trans free)
  | waiting rest recorded only =>
      refine .waiting ?_ (tasks.trans recorded) (tokens.trans only)
      rintro ⟨token, kept, repeated, own⟩
      exact rest ⟨token, (saved token own).mp kept, repeated, own⟩

theorem tracks_none (tracks : Tracks timer task plan) (absent : find task timer.tasks = none) :
    plan = none ∧ timer.tokensOf task = [] := by
  cases tracks with
  | idle _ free => exact ⟨rfl, free⟩
  | repeating _ _ _ recorded _ =>
      rw [absent] at recorded
      cases recorded
  | waiting _ recorded _ =>
      rw [absent] at recorded
      cases recorded

theorem tracks_some {time : Time} (tracks : Tracks timer task plan)
    (recorded : find task timer.tasks = some time) : plan.isSome = true := by
  cases tracks with
  | idle absent _ =>
      rw [absent] at recorded
      cases recorded
  | repeating _ _ _ _ _ => rfl
  | waiting _ _ _ => rfl

/-- `schedule` throws. -/
def Refused (timer : Timer τ) (task : τ) (delay now : Time) : Prop :=
  timer.destroyed = true ∨ (Time.before 0 delay = true ∧ (now + delay).before now = true) ∨
    find task timer.tasks ≠ none

instance (task : τ) (delay now : Time) : Decidable (Refused timer task delay now) :=
  inferInstanceAs (Decidable (_ ∨ _))

theorem schedule_token_follows {delay repeated now : Time}
    (meets : timer.Repeating task → Refused timer task delay now) :
    Follows timer (timer.scheduleToken task delay repeated now) := by
  have refused (refusal : Refusal) : Follows timer (timer, [.refused refusal]) :=
    ⟨id, fun _ _ plan tracks => ⟨plan, rfl, tracks⟩⟩
  rw [Timer.scheduleToken]
  by_cases destroyed : timer.destroyed = true
  · rw [if_pos destroyed]
    exact refused .timerDestroyed
  · rw [if_neg destroyed]
    dsimp only
    by_cases invalid : Time.before 0 delay = true ∧ (now + delay).before now = true
    · rw [if_pos invalid]
      exact refused .invalidDelay
    · rw [if_neg invalid]
      cases known : find task timer.tasks with
      | some time =>
          rw [Option.isSome_some, if_pos rfl]
          exact refused .alreadyScheduled
      | none =>
          rw [Option.isSome_none, if_neg Bool.false_ne_true]
          refine ⟨fun _ gone => absurd gone destroyed, ?_⟩
          intro _ other plan tracks
          -- The notification is no event of a schedule.
          have notified (plan : Option Plan) (event : Event τ) :
              history other plan (event :: if timer.wakeUpTime = 0 ∨
                (now + delay).before timer.wakeUpTime = true then [.notified] else []) =
              follow other plan event := by
            rw [history]
            cases follow other plan event with
            | none => rfl
            | some next =>
                by_cases wakes : timer.wakeUpTime = 0 ∨
                    (now + delay).before timer.wakeUpTime = true
                · rw [if_pos wakes]
                  rfl
                · rw [if_neg wakes]
                  rfl
          simp only [notified]
          by_cases own : task = other
          · subst own
            obtain ⟨none, free⟩ := tracks_none tracks known
            refine ⟨some ⟨some (now + delay), repeated⟩, ?_, ?_⟩
            · rw [follow, if_pos rfl, if_pos none]
            · apply Tracks.waiting
              · intro repeating
                obtain gone | wrong | still := meets repeating
                · exact destroyed gone
                · exact invalid wrong
                · exact still known
              · exact find_insert _ known
              · exact insert_own ⟨now + delay, repeated, task⟩ free
          · refine ⟨plan, ?_, ?_⟩
            · rw [follow, if_neg own]
            · exact tracks_frame tracks (find_insert_ne (Ne.symm own) _ _)
                (insert_other ⟨now + delay, repeated, task⟩ own _) fun _ _ => Iff.rfl

theorem cancel_follows (timer : Timer τ) (task : τ) : Follows timer (timer.cancel task) := by
  have unknown (cleared : Cleared timer)
      (absent : Cleared timer → find task timer.tasks = none) :
      ∀ other plan, Tracks timer other plan →
        ∃ next, history other plan [.cancelled task false] = some next ∧
          Tracks timer other next := by
    intro other plan tracks
    refine ⟨plan, ?_, tracks⟩
    by_cases own : task = other
    · subst own
      obtain ⟨none, _⟩ := tracks_none tracks (absent cleared)
      rw [none]
      simp [history, follow]
    · simp [history, follow, own]
  rw [Timer.cancel]
  by_cases destroyed : timer.destroyed = true
  · rw [if_pos destroyed]
    refine ⟨id, fun cleared => unknown cleared fun gone => ?_⟩
    rw [(gone destroyed).1]
    rfl
  · rw [if_neg destroyed]
    cases known : find task timer.tasks with
    | none => exact ⟨id, fun cleared => unknown cleared fun _ => known⟩
    | some time =>
        refine ⟨fun _ gone => absurd gone destroyed, ?_⟩
        intro _ other plan tracks
        by_cases own : task = other
        · subst own
          refine ⟨none, ?_, .idle (find_erase _ _) ?_⟩
          · simp [history, follow, tracks_some tracks known]
          · cases tracks with
            | idle absent free => exact erase_none free
            | repeating saved repeated own recorded free => exact erase_none free
            | @waiting _ delay resting recorded only =>
                rw [known] at recorded
                cases recorded
                exact erase_own ⟨time, 0, task⟩ ⟨time, delay, task⟩ rfl rfl only
        · refine ⟨plan, ?_, ?_⟩
          · simp [history, follow, own]
          · exact tracks_frame tracks (find_erase_ne (Ne.symm own) _) (erase_other own _)
              fun _ _ => Iff.rfl

theorem destroy_follows (timer : Timer τ) : Follows timer timer.destroy := by
  rw [Timer.destroy]
  by_cases destroyed : timer.destroyed = true
  · rw [if_pos destroyed]
    exact ⟨id, fun _ _ plan tracks => ⟨plan, rfl, tracks⟩⟩
  · rw [if_neg destroyed]
    refine ⟨fun _ _ => ⟨rfl, rfl⟩, ?_⟩
    intro _ other plan _
    exact ⟨none, rfl, .idle rfl rfl⟩

theorem follows_trans {middle after : Timer τ} {more : List (Event τ)}
    (first : Follows timer (middle, events)) (second : Follows middle (after, more)) :
    Follows timer (after, events ++ more) := by
  refine ⟨fun cleared => second.cleared (first.cleared cleared), ?_⟩
  intro cleared task plan tracks
  obtain ⟨next, here, tracks⟩ := first.tracks cleared task plan tracks
  obtain ⟨last, there, tracks⟩ := second.tracks (first.cleared cleared) task next tracks
  refine ⟨last, ?_, tracks⟩
  rw [history_append, here]
  exact there

theorem moves_follows (wakeUpTime : Time) (phase : Phase τ) (before : timer.saved = none)
    (after : ({ timer with phase := phase } : Timer τ).saved = none) :
    Follows timer ({ timer with wakeUpTime := wakeUpTime, phase := phase }, []) := by
  refine ⟨id, fun _ task plan tracks => ⟨plan, rfl, ?_⟩⟩
  refine tracks_frame tracks rfl rfl fun token _ => ?_
  rw [before, ← after]
  rfl

theorem exit_follows (destroyed : timer.destroyed = true) :
    Follows timer ({ timer with phase := .exited }, []) := by
  refine ⟨id, ?_⟩
  intro cleared task plan tracks
  have absent : find task timer.tasks = none := by
    rw [(cleared destroyed).1]
    rfl
  obtain ⟨gone, free⟩ := tracks_none tracks absent
  rw [gone]
  exact ⟨none, rfl, .idle absent free⟩

theorem requeue_follows (now : Time) (phase : timer.phase = .entering saved) :
    Follows timer ({ (timer.requeue now saved).1 with phase := .entering none },
      (timer.requeue now saved).2) := by
  have kept : timer.saved = saved := by rw [Timer.saved, phase]
  -- Nothing is inserted, and no schedule waits for the end of the run.
  have dropped (rests : ∀ task, ¬timer.Repeating task ∨ find task timer.tasks = none) :
      Follows timer ({ timer with phase := .entering none }, []) := by
    refine ⟨id, fun _ task plan tracks => ⟨plan, rfl, ?_⟩⟩
    cases tracks with
    | idle absent free => exact .idle absent free
    | repeating saved repeated own recorded free =>
        cases rests task with
        | inl resting => exact absurd ⟨_, saved, repeated, own⟩ resting
        | inr absent =>
            rw [absent] at recorded
            cases recorded
    | waiting resting recorded only =>
        refine .waiting ?_ recorded only
        rintro ⟨token, some, _⟩
        cases some
  cases saved with
  | none =>
      apply dropped
      intro task
      left
      rintro ⟨token, some, _⟩
      rw [kept] at some
      cases some
  | some token =>
      rw [Timer.requeue]
      by_cases once : token.delay = 0
      · rw [if_pos once]
        apply dropped
        intro task
        left
        rintro ⟨other, some, repeated, _⟩
        rw [kept] at some
        cases some
        exact repeated once
      · rw [if_neg once]
        cases known : find token.task timer.tasks with
        | none =>
            apply dropped
            intro task
            by_cases own : token.task = task
            · right
              exact own ▸ known
            · left
              rintro ⟨other, some, _, same⟩
              rw [kept] at some
              cases some
              exact own same
        | some time =>
            refine ⟨fun cleared gone => ?_, ?_⟩
            · rw [(cleared gone).1] at known
              cases known
            · intro _ task plan tracks
              by_cases own : token.task = task
              · subst own
                refine ⟨some ⟨some (now + token.delay), token.delay⟩, ?_, ?_⟩
                · cases tracks with
                  | idle absent free =>
                      rw [known] at absent
                      cases absent
                  | repeating saved repeated own recorded free =>
                      rw [kept] at saved
                      cases saved
                      rw [history, follow, if_pos rfl, if_pos ⟨rfl, repeated, rfl⟩]
                      rfl
                  | waiting resting _ _ => exact absurd ⟨token, kept, once, rfl⟩ resting
                · refine .waiting ?_ (find_assign _ _ _) ?_
                  · rintro ⟨other, some, _⟩
                    cases some
                  · apply insert_own ⟨now + token.delay, token.delay, token.task⟩
                    cases tracks with
                    | idle _ free => exact free
                    | repeating _ _ _ _ free => exact free
                    | waiting resting _ _ => exact absurd ⟨token, kept, once, rfl⟩ resting
              · refine ⟨plan, ?_, ?_⟩
                · simp [history, follow, own]
                · refine tracks_frame tracks (find_assign_ne (Ne.symm own) _ _)
                    (insert_other ⟨now + token.delay, token.delay, token.task⟩ own _) ?_
                  intro other same
                  rw [kept]
                  constructor
                  · intro some
                    cases some
                  · intro some
                    cases some
                    exact absurd same own

theorem examine_follows (now : Time) (reset : timer.saved = none) :
    Follows timer (timer.examine now) := by
  have nobody (task : τ) : ¬timer.Repeating task := by
    rintro ⟨token, some, _⟩
    rw [reset] at some
    cases some
  rw [Timer.examine]
  by_cases destroyed : timer.destroyed = true
  · rw [if_pos destroyed]
    exact exit_follows destroyed
  · rw [if_neg destroyed]
    split
    · exact moves_follows timer.wakeUpTime (.entering none) reset rfl
    · next first rest tokens =>
        by_cases early : now.before first.scheduledTime = true
        · rw [if_pos early]
          exact moves_follows first.scheduledTime .timedWaiting reset rfl
        · rw [if_neg early]
          refine ⟨fun _ gone => absurd gone destroyed, ?_⟩
          intro _ task plan tracks
          by_cases own : first.task = task
          · -- The schedule of the task has exactly this token.
            subst own
            have here : timer.tokensOf first.task =
                first :: rest.filter fun token => token.task = first.task := by
              rw [Timer.tokensOf, tokens, List.filter_cons_of_pos (by simp)]
            cases tracks with
            | idle _ free =>
                rw [here] at free
                cases free
            | repeating saved repeated own _ _ => exact absurd ⟨_, saved, repeated, own⟩ (nobody _)
            | @waiting time delay _ recorded only =>
                rw [here, List.cons.injEq] at only
                obtain ⟨token, free⟩ := only
                have due : (some ⟨some time, delay⟩ : Option Plan) =
                    some ⟨some first.scheduledTime, first.delay⟩ := by rw [token]
                refine ⟨if first.delay = 0 then none else some ⟨none, first.delay⟩, ?_, ?_⟩
                · rw [history, follow, if_pos rfl, if_pos ⟨due, Bool.not_eq_true _ ▸ early⟩]
                  rfl
                · by_cases once : first.delay = 0
                  · rw [if_pos once, if_pos once]
                    exact .idle (find_erase _ _) free
                  · rw [if_neg once, if_neg once]
                    exact .repeating rfl once rfl recorded free
          · refine ⟨plan, ?_, ?_⟩
            · simp [history, follow, own]
            · refine tracks_frame tracks ?_ ?_ ?_
              · by_cases once : first.delay = 0
                · simp only [if_pos once]
                  exact find_erase_ne (Ne.symm own) _
                · simp only [if_neg once]
              · rw [Timer.tokensOf, Timer.tokensOf, tokens,
                  List.filter_cons_of_neg (by simp [own])]
              · intro token same
                rw [reset]
                constructor
                · intro some
                  cases some
                  exact absurd same own
                · intro some
                  cases some

theorem enter_follows (again now : Time) (phase : timer.phase = .entering saved) :
    Follows timer (timer.enter again now saved) := by
  rw [Timer.enter]
  by_cases destroyed : timer.destroyed = true
  · rw [if_pos destroyed]
    exact exit_follows destroyed
  · rw [if_neg destroyed]
    have requeued := requeue_follows again phase
    dsimp only
    by_cases none : (timer.requeue again saved).1.tokens.isEmpty = true
    · rw [if_pos none, ← List.append_nil (timer.requeue again saved).2]
      exact follows_trans requeued (moves_follows 0 .waiting rfl rfl)
    · rw [if_neg none]
      exact follows_trans requeued (examine_follows now rfl)

/-- No task gets a new schedule while the run of its repeated schedule goes on. -/
def Meets : Action τ → Timer τ → Prop
  | .schedule task delay now, timer => timer.Repeating task → Refused timer task delay now
  | .scheduleRepeated task delay now, timer => timer.Repeating task → Refused timer task delay now
  | _, _ => True

instance (action : Action τ) (timer : Timer τ) : Decidable (Meets action timer) := by
  unfold Meets
  split <;> infer_instance

theorem step_follows {action : Action τ} {result : Timer τ × List (Event τ)}
    (meets : Meets action timer) (stepped : timer.step action = some result) :
    Follows timer result := by
  cases action with
  | schedule task delay now =>
      cases stepped
      exact schedule_token_follows meets
  | scheduleRepeated task delay now =>
      cases stepped
      exact schedule_token_follows meets
  | cancel task =>
      cases stepped
      exact cancel_follows timer task
  | destroy =>
      cases stepped
      exact destroy_follows timer
  | enter again now =>
      rw [Timer.step] at stepped
      cases phase : timer.phase with
      | entering saved =>
          rw [phase] at stepped
          cases stepped
          exact enter_follows again now phase
      | waiting => simp [phase] at stepped
      | timedWaiting => simp [phase] at stepped
      | running token => simp [phase] at stepped
      | exited => simp [phase] at stepped
  | wake now =>
      rw [Timer.step] at stepped
      cases phase : timer.phase with
      | entering saved => simp [phase] at stepped
      | waiting =>
          rw [phase] at stepped
          cases stepped
          exact examine_follows now (by rw [Timer.saved, phase])
      | timedWaiting =>
          rw [phase] at stepped
          cases stepped
          exact examine_follows now (by rw [Timer.saved, phase])
      | running token => simp [phase] at stepped
      | exited => simp [phase] at stepped
  | finish =>
      rw [Timer.step] at stepped
      cases phase : timer.phase with
      | entering saved => simp [phase] at stepped
      | waiting => simp [phase] at stepped
      | timedWaiting => simp [phase] at stepped
      | running token =>
          rw [phase] at stepped
          cases stepped
          refine ⟨id, fun _ task plan tracks => ⟨plan, rfl, ?_⟩⟩
          refine tracks_frame tracks rfl rfl fun other _ => ?_
          rw [Timer.saved, Timer.saved, phase]
      | exited => simp [phase] at stepped

/-- Each task in `_tasks` has exactly one token, which carries the recorded time, but the
repeated task that is being run has none; and the task of each token is in `_tasks`. -/
structure Bookkeeping (timer : Timer τ) : Prop where
  recorded : ∀ task time, find task timer.tasks = some time → ¬timer.Repeating task →
    ∃ delay, timer.tokensOf task = [⟨time, delay, task⟩]
  repeating : ∀ task, timer.Repeating task → timer.tokensOf task = []
  owned : ∀ token ∈ timer.tokens, ∃ time, find token.task timer.tasks = some time

theorem tracks_bookkeeping (tracks : ∀ task, ∃ plan, Tracks timer task plan) :
    Bookkeeping timer where
  recorded := by
    intro task time recorded resting
    obtain ⟨plan, tracks⟩ := tracks task
    cases tracks with
    | idle absent _ =>
        rw [absent] at recorded
        cases recorded
    | repeating saved repeated own _ _ => exact absurd ⟨_, saved, repeated, own⟩ resting
    | @waiting _ delay _ known only =>
        rw [known] at recorded
        cases recorded
        exact ⟨delay, only⟩
  repeating := by
    intro task repeating
    obtain ⟨plan, tracks⟩ := tracks task
    cases tracks with
    | idle _ free => exact free
    | repeating _ _ _ _ free => exact free
    | waiting resting _ _ => exact absurd repeating resting
  owned := by
    intro token inside
    have some : token ∈ timer.tokensOf token.task :=
      List.mem_filter.mpr ⟨inside, decide_eq_true rfl⟩
    obtain ⟨plan, tracks⟩ := tracks token.task
    cases tracks with
    | idle _ free =>
        rw [free] at some
        cases some
    | repeating _ _ _ recorded _ => exact ⟨_, recorded⟩
    | waiting _ recorded _ => exact ⟨_, recorded⟩

theorem ran_follows (ran : Ran Meets timer events) :
    Cleared timer ∧
      ∀ task, ∃ plan, history task none events = some plan ∧ Tracks timer task plan := by
  induction ran with
  | start =>
      refine ⟨fun gone => Bool.noConfusion gone, ?_⟩
      intro task
      exact ⟨none, rfl, .idle rfl rfl⟩
  | next before meets stepped ih =>
      obtain ⟨cleared, tracks⟩ := ih
      have follows := step_follows meets stepped
      refine ⟨follows.cleared cleared, ?_⟩
      intro task
      obtain ⟨plan, known, tracks⟩ := tracks task
      obtain ⟨next, later, tracks⟩ := follows.tracks cleared task plan tracks
      refine ⟨next, ?_, tracks⟩
      rw [history_append, known]
      exact later

structure Orderly (timer : Timer τ) (events : List (Event τ)) : Prop where
  bookkeeping : Bookkeeping timer
  cancelled : CancelStops events
  once : OneShotOnce events
  scheduled : RunsAsScheduled events

theorem timer_orderly {timer : Timer τ} {events : List (Event τ)}
    (ran : Ran Meets timer events) : Orderly timer events := by
  obtain ⟨_, tracks⟩ := ran_follows ran
  have accepted : Accepted events := by
    intro task
    obtain ⟨plan, known, _⟩ := tracks task
    exact ⟨plan, known⟩
  constructor
  · apply tracks_bookkeeping
    intro task
    obtain ⟨plan, _, tracks⟩ := tracks task
    exact ⟨plan, tracks⟩
  · exact accepted_cancel_stops accepted
  · exact accepted_one_shot_once accepted
  · exact accepted_runs_as_scheduled accepted

/-- A repeated task is cancelled during its run, cannot be scheduled with a delay that wraps, is
scheduled after the run, and requeued after the next one. -/
def repeatedTwice : List (Action Nat) :=
  [.enter 0 0, .scheduleRepeated 7 10 0, .wake 10, .cancel 7, .schedule 7 9223372036854775807 10, .finish,
    .enter 20 20, .scheduleRepeated 7 5 20, .wake 25, .finish, .enter 30 30]

theorem timer_orderly_scheduled :
    Orderly (⟨false, [⟨35, 5, 7⟩], [(7, 35)], 35, .timedWaiting⟩ : Timer Nat)
      [.scheduled 7 10 10, .notified, .taken 10 ⟨10, 10, 7⟩, .cancelled 7 true,
        .refused .invalidDelay, .scheduled 7 25 5, .notified, .taken 25 ⟨25, 5, 7⟩,
        .requeued 30 ⟨35, 5, 7⟩] :=
  timer_orderly (ran_all (fun _ _ passed => of_decide_eq_true passed) .start
    (by decide : runAll (fun action timer => decide (Meets action timer)) repeatedTwice .initial [] =
      some _))

def rescheduled : List (Action Nat) :=
  [.enter 0 0, .scheduleRepeated 7 10 0, .wake 10, .cancel 7, .schedule 7 100 10, .finish,
    .enter 20 20]

/-- The old token is inserted again beside the new one. A second `cancel` erases only one of the
two, and the task is run after it. -/
theorem old_token_returns :
    (¬∀ (timer : Timer Nat) (events : List (Event Nat)), Ran (fun _ _ => True) timer events →
      Bookkeeping timer) ∧
    ¬∀ (timer : Timer Nat) (events : List (Event Nat)), Ran (fun _ _ => True) timer events →
      CancelStops events := by
  constructor
  · intro claimed
    have ran := ran_all (fun _ _ _ => trivial) .start
      (by decide : runAll (fun _ _ => true) rescheduled .initial [] = some
        (⟨false, [⟨30, 10, 7⟩, ⟨110, 0, 7⟩], [(7, 30)], 30, .timedWaiting⟩,
          [.scheduled 7 10 10, .notified, .taken 10 ⟨10, 10, 7⟩, .cancelled 7 true,
            .scheduled 7 110 0, .notified, .requeued 20 ⟨30, 10, 7⟩]))
    obtain ⟨delay, only⟩ := (claimed _ _ ran).recorded 7 30 (by decide)
      (by rintro ⟨token, some, _⟩; cases some)
    revert only
    simp [Timer.tokensOf]
  · intro claimed
    have ran := ran_all (fun _ _ _ => trivial) .start
      (by decide : runAll (fun _ _ => true) (rescheduled ++ [.cancel 7, .wake 110]) .initial [] = some
        (⟨false, [], [], 30, .running ⟨110, 0, 7⟩⟩,
          [.scheduled 7 10 10, .notified, .taken 10 ⟨10, 10, 7⟩, .cancelled 7 true,
            .scheduled 7 110 0, .notified, .requeued 20 ⟨30, 10, 7⟩, .cancelled 7 true,
            .taken 110 ⟨110, 0, 7⟩]))
    have stops := claimed _ _ ran
      [.scheduled 7 10 10, .notified, .taken 10 ⟨10, 10, 7⟩, .cancelled 7 true,
        .scheduled 7 110 0, .notified, .requeued 20 ⟨30, 10, 7⟩] [] [] 110 ⟨110, 0, 7⟩ rfl
    apply stops
    intro time delay inside
    cases inside

end IceTouch.Timers
