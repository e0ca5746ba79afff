import IceTouch.Connection.Runs
import Mathlib.Data.List.Chain

/-!
# The life cycle of a connection

The states in the order in which a connection goes through them, what the other fields say in
each state, and that every step keeps to it. Only `shift`, `recordException` and
`initiateShutdown` write the fields that are collected in `Life`.
-/

namespace IceTouch.Connection

open Bytes Machine

/-- The position of a state in the life cycle, where holding and active are side by side. -/
def State.stage : State → Nat
  | .notInitialized => 0
  | .notValidated => 1
  | .active => 2
  | .holding => 2
  | .closing => 3
  | .closed => 4
  | .finished => 5

/-- The changes of state of the life cycle: between holding and active, or forward, where
closing is only entered from holding or active and never by a datagram connection. -/
def Edge (setup : Setup) (before after : State) : Prop :=
  (before = .holding ∧ after = .active) ∨ (before = .active ∧ after = .holding) ∨
    (before.stage < after.stage ∧
      (after = .closing → setup.datagram = false ∧ (before = .holding ∨ before = .active)))

structure LifeCycle (setup : Setup) (c : ConnectionI) : Prop where
  chain : c.states.IsChain (Edge setup)
  first : c.states.head? = some .notInitialized
  last : c.states.getLast? = some c.state
  exception : c.exception.isSome ↔ .closing ≤ c.state
  monitored : c.monitored = true ↔ c.state = .active ∧ 0 < setup.acmTimeout
  asserted : .setState ∉ c.assertions
  initiated : c.shutdownInitiated = true → .closing ≤ c.state
  unstarted : c.started = false → c.state = .notInitialized ∨ .closed ≤ c.state

/-- The fields of the life cycle. -/
structure Life where
  state : State
  exception : Option LocalException
  monitored : Bool
  shutdownInitiated : Bool
  started : Bool
  states : List State
  failed : Bool

def ConnectionI.life (c : ConnectionI) : Life where
  state := c.state
  exception := c.exception
  monitored := c.monitored
  shutdownInitiated := c.shutdownInitiated
  started := c.started
  states := c.states
  failed := decide (.setState ∈ c.assertions)

variable {setup : Setup} {c d : ConnectionI}

theorem LifeCycle.congr (cycle : LifeCycle setup c) (same : d.life = c.life) :
    LifeCycle setup d := by
  simp only [ConnectionI.life, Life.mk.injEq, decide_eq_decide] at same
  obtain ⟨state, exception, monitored, shutdown, started, states, failed⟩ := same
  constructor
  · rw [states]
    exact cycle.chain
  · rw [states]
    exact cycle.first
  · rw [states, state]
    exact cycle.last
  · rw [exception, state]
    exact cycle.exception
  · rw [monitored, state]
    exact cycle.monitored
  · rw [failed]
    exact cycle.asserted
  · rw [shutdown, state]
    exact cycle.initiated
  · rw [started, state]
    exact cycle.unstarted

/-- A part of a run: the life cycle is kept, the state does not go back, and the exception
stays once it is set. -/
structure Evolves (setup : Setup) (c d : ConnectionI) : Prop where
  cycle : LifeCycle setup d
  forward : c.state.stage ≤ d.state.stage
  exception : ∀ ex, c.exception = some ex → d.exception = some ex

theorem LifeCycle.stays (cycle : LifeCycle setup c) : Evolves setup c c :=
  ⟨cycle, le_rfl, fun _ isSet => isSet⟩

theorem LifeCycle.keeps (cycle : LifeCycle setup d) (forward : c.state.stage ≤ d.state.stage)
    (same : d.exception = c.exception) : Evolves setup c d :=
  ⟨cycle, forward, fun _ isSet => by rw [same, isSet]⟩

theorem LifeCycle.unchanged (cycle : LifeCycle setup c) (same : d.life = c.life) :
    Evolves setup c d := by
  have kept := cycle.congr same
  simp only [ConnectionI.life, Life.mk.injEq] at same
  exact kept.keeps (by rw [same.1]) same.2.1

theorem Evolves.trans {e : ConnectionI} (first : Evolves setup c d)
    (second : LifeCycle setup d → Evolves setup d e) : Evolves setup c e :=
  ⟨(second first.cycle).cycle, le_trans first.forward (second first.cycle).forward,
    fun ex isSet => (second first.cycle).exception ex (first.exception ex isSet)⟩

theorem Evolves.since {e : ConnectionI} (later : Evolves setup d e) (state : d.state = c.state)
    (same : d.exception = c.exception) : Evolves setup c e :=
  ⟨later.cycle, state ▸ later.forward, fun ex isSet => later.exception ex (by rw [same, isSet])⟩

theorem Edge.forward {before after : State} (edge : Edge setup before after) :
    before.stage ≤ after.stage := by
  obtain ⟨rfl, rfl⟩ | ⟨rfl, rfl⟩ | later := edge
  · exact le_rfl
  · exact le_rfl
  · exact later.1.le

@[simp] theorem notify_sent_life (message : OutgoingMessage) :
    (notifySent message c).life = c.life := by
  unfold notifySent
  cases message.call <;> rfl

@[simp] theorem send_message_life (outcome : WriteOutcome) (message : OutgoingMessage) :
    (sendMessage setup outcome message c).2.life = c.life := by
  unfold sendMessage
  dsimp only
  split
  · rfl
  · split
    · rfl
    · split
      · rfl
      · rw [notify_sent_life]
        rfl
      · rfl

theorem LifeCycle.after_send_message (cycle : LifeCycle setup c) (outcome : WriteOutcome)
    (message : OutgoingMessage) : Evolves setup c (sendMessage setup outcome message c).2 :=
  cycle.unchanged (send_message_life outcome message)

theorem send_next_loop_life (rest : List OutgoingMessage) (current : OutgoingMessage)
    (writes : List WriteOutcome) (callbacks : List Call) :
    (sendNextLoop setup rest current writes callbacks c).connection.life = c.life := by
  induction rest generalizing current writes callbacks c with
  | nil =>
      unfold sendNextLoop
      dsimp only
      split <;> (rw [notify_sent_life]; rfl)
  | cons message later ih =>
      unfold sendNextLoop
      dsimp only
      split
      · rw [notify_sent_life]
        rfl
      · have popped : (notifySent current { c with
            writeStream := current.stream, sendStreams := message :: later }).life = c.life := by
          rw [notify_sent_life]
          rfl
        split
        · exact popped
        · split
          · exact popped
          · exact popped
          · rw [ih]
            exact popped

theorem chain_snoc {before after : State} {states : List State}
    (chain : states.IsChain (Edge setup)) (last : states.getLast? = some before)
    (edge : Edge setup before after) : (states ++ [after]).IsChain (Edge setup) := by
  rw [List.isChain_append]
  refine ⟨chain, List.isChain_singleton after, ?_⟩
  intro first isLast second isHead
  rw [last, Option.mem_some_iff] at isLast
  simp only [List.head?_cons, Option.mem_some_iff] at isHead
  rw [← isLast, ← isHead]
  exact edge

variable {target : State}

theorem enter_cycle {exception : Option LocalException} (cycle : LifeCycle setup c)
    (edge : Edge setup c.state target) (isSet : exception.isSome ↔ .closing ≤ target)
    (started : c.started = false → target = .notInitialized ∨ .closed ≤ target)
    (kept : .closing ≤ c.state → .closing ≤ target) :
    LifeCycle setup (enter setup target { c with exception := exception }) := by
  constructor
  · exact chain_snoc cycle.chain cycle.last edge
  · simp [enter, cycle.first]
  · simp [enter]
  · exact isSet
  · have monitored := cycle.monitored
    by_cases timeout : 0 < setup.acmTimeout
    · by_cases isActive : target = .active
      · simp [enter, timeout, isActive]
      · by_cases wasActive : c.state = .active
        · simp [enter, timeout, isActive, wasActive]
        · have off : c.monitored = false := by
            simpa [wasActive] using monitored
          simp [enter, isActive, wasActive, off]
    · have off : c.monitored = false := by
        simpa [timeout] using monitored
      simp [enter, timeout, off]
  · exact cycle.asserted
  · intro initiated
    exact kept (cycle.initiated initiated)
  · exact started

theorem edge_closed (before : State) (open_ : before ≠ .closed) (unfinished : before ≠ .finished) :
    Edge setup before .closed := by
  refine Or.inr (Or.inr ⟨?_, by simp⟩)
  cases before <;> simp_all [State.stage]

theorem switch_closed (current : State) :
    switch setup current .closed =
      if current = .closed ∨ current = .finished then .stay else .go .closed := by
  cases current <;> simp [switch, aim]

theorem record_exception_eq (ex : LocalException) (open_ : c.state ≠ .closed) :
    recordException ex c = { c with exception := some (c.exception.getD ex) } := by
  unfold recordException
  cases known : c.exception with
  | none => simp [open_]
  | some first =>
      simp only [Option.getD_some]
      rw [← known]

/-- `setState(StateClosed, ex)` closes an open connection and does nothing to a closed one. -/
theorem fail_eq (ex : LocalException) (settled : c.state = .finished → c.exception.isSome) :
    fail setup ex c =
      if .closed ≤ c.state then c
      else enter setup .closed { c with exception := some (c.exception.getD ex) } := by
  unfold fail
  by_cases closed : c.state = .closed
  · have beyond : State.closed ≤ c.state := by rw [closed]; decide
    rw [if_pos closed, if_pos beyond]
  · rw [if_neg closed, record_exception_eq ex closed, shift, switch_closed]
    by_cases finished : c.state = .finished
    · have beyond : State.closed ≤ c.state := by rw [finished]; decide
      obtain ⟨first, isFirst⟩ := Option.isSome_iff_exists.mp (settled finished)
      rw [if_pos beyond]
      simp only [finished, or_true, if_true, isFirst, Option.getD_some]
      rw [← isFirst, ← finished]
    · have below : ¬ State.closed ≤ c.state := by
        cases state : c.state <;> simp_all [State.le_def, State.index]
      rw [if_neg below]
      simp only [closed, finished, or_self, if_false]

theorem LifeCycle.settled (cycle : LifeCycle setup c) (finished : c.state = .finished) :
    c.exception.isSome :=
  cycle.exception.mpr (by rw [finished]; decide)

theorem LifeCycle.after_fail (ex : LocalException) (cycle : LifeCycle setup c) :
    Evolves setup c (fail setup ex c) := by
  rw [fail_eq ex cycle.settled]
  split
  · exact cycle.stays
  · next below =>
      have edge : Edge setup c.state .closed := by
        apply edge_closed
        · intro closed
          exact below (by rw [closed]; decide)
        · intro finished
          exact below (by rw [finished]; decide)
      refine ⟨?_, edge.forward, ?_⟩
      · apply enter_cycle cycle edge
        · simp [State.le_def, State.index]
        · intro _
          exact Or.inr (by decide)
        · intro _
          decide
      · intro first isSet
        simp [enter, isSet]

theorem LifeCycle.after_shutdown (cycle : LifeCycle setup c) (closing : c.state = .closing)
    (site : Assertion) (outcome : WriteOutcome)
    (unbroken : site = .setState → c.dispatchCount = 0 ∧ c.shutdownInitiated = false) :
    Evolves setup c (shutdown setup site outcome c) := by
  have initiated : Evolves setup c (initiateShutdown setup site outcome c).2 := by
    have noted : LifeCycle setup { c with
        assertions :=
          if c.state = .closing ∧ c.dispatchCount = 0 ∧ c.shutdownInitiated = false then
            c.assertions
          else c.assertions ++ [site]
        shutdownInitiated := true
        shutdowns := c.shutdowns ++ [(c.state, c.dispatchCount)] } := by
      constructor
      · exact cycle.chain
      · exact cycle.first
      · exact cycle.last
      · exact cycle.exception
      · exact cycle.monitored
      · have asserted := cycle.asserted
        by_cases isSite : site = .setState
        · simpa [closing, unbroken isSite] using asserted
        · have other : Assertion.setState ≠ site := fun same => isSite same.symm
          dsimp only
          split
          · exact asserted
          · simp [asserted, other]
      · intro _
        change State.closing ≤ c.state
        rw [closing]
        decide
      · exact cycle.unstarted
    unfold initiateShutdown
    dsimp only
    split
    · exact noted.keeps le_rfl rfl
    · have first : Evolves setup c _ := noted.keeps le_rfl rfl
      exact first.trans (fun cycle => cycle.after_send_message outcome closeMessage)
  unfold shutdown
  rcases shut : initiateShutdown setup site outcome c with ⟨status, after⟩
  rw [shut] at initiated
  cases status with
  | failed ex os => exact initiated.trans (fun cycle => cycle.after_fail ex)
  | sent callback => exact initiated
  | queued => exact initiated

theorem switch_closing {current : State} (other : current ≠ .closing) :
    switch setup current .closing =
      if .closing ≤ current then .stay
      else if setup.datagram ∨ current ≤ .notValidated then .go .closed
      else .go .closing := by
  cases current <;> cases isDatagram : setup.datagram <;>
    simp_all [switch, aim, State.le_def, State.index]

variable {requested : State}

theorem switch_active_or_holding {current : State}
    (target : requested = .active ∨ requested = .holding) :
    switch setup current requested = .stay ∨
      (switch setup current requested = .go requested ∧ current.stage ≤ 2 ∧
        Edge setup current requested) := by
  obtain rfl | rfl := target <;> cases current <;> simp [switch, aim, Edge, State.stage]

theorem State.closing_le_of_stage {state : State} (early : state.stage ≤ 2) :
    ¬ State.closing ≤ state := by
  cases state <;> simp_all [State.stage, State.le_def, State.index]

theorem set_state_go (outcome : WriteOutcome) (go : switch setup c.state requested = .go target)
    (other : target ≠ .closing) : setState setup outcome requested c = enter setup target c := by
  simp [setState, shift, go, other]

/-- `setState(StateClosing, ex)`: a connection that cannot be shut down gracefully is closed,
and the close message is sent when no dispatch is in progress. -/
theorem set_closing_eq (outcome : WriteOutcome) (ex : LocalException)
    (settled : .closed ≤ c.state → c.exception.isSome) :
    setStateWith setup outcome .closing ex c =
      if .closing ≤ c.state then c
      else if setup.datagram ∨ c.state ≤ .notValidated then
        enter setup .closed { c with exception := some (c.exception.getD ex) }
      else if c.dispatchCount = 0 then
        shutdown setup .setState outcome
          (enter setup .closing { c with exception := some (c.exception.getD ex) })
      else
        enter setup .closing { c with exception := some (c.exception.getD ex) } := by
  have permitted : State.closing ≤ State.closing := Nat.le_refl _
  unfold setStateWith
  simp only [permitted, if_true]
  by_cases isClosing : c.state = .closing
  · have already : State.closing ≤ c.state := by rw [isClosing]; decide
    rw [if_pos isClosing, if_pos already]
  · rw [if_neg isClosing]
    by_cases already : .closing ≤ c.state
    · have closed : .closed ≤ c.state := by
        cases state : c.state <;> simp_all [State.le_def, State.index]
      obtain ⟨first, isFirst⟩ := Option.isSome_iff_exists.mp (settled closed)
      have same : recordException ex c = c := by
        simp [recordException, isFirst]
      simp [same, setState, shift, switch_closing isClosing, already]
    · have notClosed : c.state ≠ .closed := by
        intro closed
        exact already (by rw [closed]; decide)
      rw [record_exception_eq ex notClosed, if_neg already]
      simp only [setState, shift, switch_closing isClosing, already, if_false]
      split
      · simp
      · simp only [true_and]
        rfl

theorem enter_closing_cycle (cycle : LifeCycle setup c) (ex : LocalException)
    (edge : Edge setup c.state target) (late : .closing ≤ target)
    (started : c.started = false → .closed ≤ target) :
    LifeCycle setup (enter setup target { c with exception := some (c.exception.getD ex) }) := by
  apply enter_cycle cycle edge
  · simp [late]
  · intro unstarted
    exact Or.inr (started unstarted)
  · intro _
    exact late

theorem LifeCycle.after_closing (cycle : LifeCycle setup c) (outcome : WriteOutcome)
    (ex : LocalException) : Evolves setup c (setStateWith setup outcome .closing ex c) := by
  have settled : .closed ≤ c.state → c.exception.isSome := by
    intro closed
    exact cycle.exception.mpr (Nat.le_trans (by decide) closed)
  have kept : ∀ first, c.exception = some first → some (c.exception.getD ex) = some first := by
    intro first isSet
    rw [isSet, Option.getD_some]
  rw [set_closing_eq outcome ex settled]
  split
  · exact cycle.stays
  · next before =>
      split
      · -- The graceful shutdown is skipped.
        have edge : Edge setup c.state .closed := by
          apply edge_closed
          · intro closed
            exact before (by rw [closed]; decide)
          · intro finished
            exact before (by rw [finished]; decide)
        exact ⟨enter_closing_cycle cycle ex edge (by decide) (fun _ => by decide),
          edge.forward, kept⟩
      · next graceful =>
          rw [not_or] at graceful
          have edge : Edge setup c.state .closing := by
            refine Or.inr (Or.inr ?_)
            cases state : c.state <;> simp_all [State.le_def, State.index, State.stage]
          have begun : c.started = false → .closed ≤ State.closing := by
            intro unstarted
            have early := cycle.unstarted unstarted
            cases state : c.state <;> simp_all [State.le_def, State.index]
          have entered : Evolves setup c
              (enter setup .closing { c with exception := some (c.exception.getD ex) }) :=
            ⟨enter_closing_cycle cycle ex edge (Nat.le_refl _) begun, edge.forward, kept⟩
          have fresh : c.shutdownInitiated = false := by
            cases shut : c.shutdownInitiated with
            | false => rfl
            | true => exact absurd (cycle.initiated shut) before
          split
          · next idle =>
              apply entered.trans
              intro inClosing
              apply inClosing.after_shutdown rfl
              intro _
              exact ⟨idle, fresh⟩
          · exact entered

/-- `setState(StateActive)` and `setState(StateHolding)` are ignored or go along an edge. -/
theorem LifeCycle.after_set_state (cycle : LifeCycle setup c)
    (target : requested = .active ∨ requested = .holding) (outcome : WriteOutcome)
    (started : c.started = true) : Evolves setup c (setState setup outcome requested c) := by
  have decided : switch setup c.state requested = .stay ∨
      (switch setup c.state requested = .go requested ∧ c.state.stage ≤ 2 ∧
        Edge setup c.state requested) := switch_active_or_holding target
  obtain stay | ⟨go, early, edge⟩ := decided
  · simp only [setState, shift, stay]
    exact cycle.stays
  · have notClosing : requested ≠ .closing := by
      obtain rfl | rfl := target <;> decide
    have unset : ¬ State.closing ≤ requested := by
      obtain rfl | rfl := target <;> decide
    have before := State.closing_le_of_stage early
    rw [set_state_go outcome go notClosing]
    refine LifeCycle.keeps ?_ edge.forward rfl
    apply enter_cycle cycle edge
    · rw [cycle.exception]
      exact ⟨fun late => absurd late before, fun late => absurd late unset⟩
    · intro unstarted
      rw [started] at unstarted
      cases unstarted
    · intro late
      exact absurd late before

theorem validate_life (progress : Progress) : (validate setup progress c).2.life = c.life := by
  unfold validate
  dsimp only
  split
  · rfl
  · cases progress <;> rfl

section

variable (cycle : LifeCycle setup c)

include cycle

theorem LifeCycle.after_establish (started : c.started = true)
    (uninitialized : c.state = .notInitialized) (initializing validating : Progress) :
    Evolves setup c (establish setup initializing validating c).2 ∧
      (establish setup initializing validating c).2.started = true := by
  have go : switch setup c.state .notValidated = .go .notValidated := by
    rw [uninitialized]
    simp [switch, aim]
  have early : ¬ State.closing ≤ c.state := by rw [uninitialized]; decide
  have initialized : LifeCycle setup (enter setup .notValidated c) := by
    apply enter_cycle cycle
    · rw [uninitialized]
      exact Or.inr (Or.inr ⟨by decide, by simp⟩)
    · rw [cycle.exception]
      exact ⟨fun late => absurd late early, fun late => absurd late (by decide)⟩
    · intro unstarted
      rw [started] at unstarted
      cases unstarted
    · intro late
      exact absurd late early
  unfold establish initializeTransceiver
  cases initializing with
  | fails ex => exact ⟨cycle.stays, started⟩
  | pending => exact ⟨cycle.stays, started⟩
  | done =>
      dsimp only
      rw [set_state_go noWrite go (by decide)]
      have entered : Evolves setup c (enter setup .notValidated c) :=
        initialized.keeps (by rw [uninitialized]; exact Nat.zero_le _) rfl
      have same : (validate setup validating (enter setup .notValidated c)).2.life =
          (enter setup .notValidated c).life := validate_life validating
      refine ⟨entered.trans (fun cycle => cycle.unchanged same), ?_⟩
      simp only [ConnectionI.life, Life.mk.injEq] at same
      rw [same.2.2.2.2.1]
      exact started

theorem LifeCycle.rethrown :
    Evolves setup c (match c.exception with
      | some ex => fail setup ex c
      | none => c) := by
  cases c.exception with
  | none => exact cycle.stays
  | some ex => exact cycle.after_fail ex

theorem LifeCycle.marked_started : LifeCycle setup { c with started := true } := by
  constructor
  · exact cycle.chain
  · exact cycle.first
  · exact cycle.last
  · exact cycle.exception
  · exact cycle.monitored
  · exact cycle.asserted
  · exact cycle.initiated
  · intro unstarted
    cases unstarted

theorem LifeCycle.after_start (fresh : c.started = false) (callback : Bool)
    (initializing validating : Progress) :
    Evolves setup c (start setup callback initializing validating c) := by
  have begun : Evolves setup c { c with started := true } := cycle.marked_started.keeps le_rfl rfl
  apply begun.trans
  intro marked
  unfold start
  dsimp only
  split
  · exact marked.rethrown
  · next open_ =>
      have uninitialized : c.state = .notInitialized := by
        obtain early | late := cycle.unstarted fresh
        · exact early
        · exact absurd late open_
      obtain ⟨established, started⟩ :=
        marked.after_establish rfl uninitialized initializing validating
      split
      · next failed =>
          rw [failed] at established
          exact established.trans (fun cycle => cycle.after_fail _)
      · next done =>
          rw [done] at established started
          exact established.trans
            (fun cycle => cycle.after_set_state (Or.inr rfl) noWrite started)
      · next pending =>
          rw [pending] at established
          split
          · exact established.trans (fun cycle => cycle.unchanged rfl)
          · exact established.trans (fun cycle => cycle.unchanged rfl)

theorem LifeCycle.started_of_open (validated : .notValidated < c.state)
    (open_ : ¬ State.closed ≤ c.state) : c.started = true := by
  cases started : c.started with
  | true => rfl
  | false =>
      obtain early | late := cycle.unstarted started
      · rw [early] at validated
        exact absurd validated (by decide)
      · exact absurd late open_

theorem LifeCycle.after_switch (target : requested = .active ∨ requested = .holding)
    (validated : .notValidated < c.state) :
    Evolves setup c (setState setup noWrite requested c) := by
  by_cases closed : .closed ≤ c.state
  · have stay : switch setup c.state requested = .stay := by
      obtain rfl | rfl := target <;> cases state : c.state <;>
        simp_all [switch, aim, State.le_def, State.index]
    simp only [setState, shift, stay]
    exact cycle.stays
  · exact cycle.after_set_state target noWrite (cycle.started_of_open validated closed)

end

theorem not_le_iff_lt {first second : State} : ¬ first ≤ second ↔ second < first := by
  rw [State.le_def, State.lt_def, Nat.not_le]

section

variable (cycle : LifeCycle setup c)

include cycle

theorem LifeCycle.after_resume (validated : .notValidated < c.state) :
    Evolves setup c (resumeStart setup c) := by
  have resumed : LifeCycle setup { c with startWaiting := false } := cycle.congr rfl
  have first : Evolves setup c { c with startWaiting := false } := resumed.keeps le_rfl rfl
  apply first.trans
  intro _
  unfold resumeStart
  dsimp only
  split
  · exact resumed.rethrown
  · exact resumed.after_switch (Or.inr rfl) validated

theorem LifeCycle.after_activate : Evolves setup c (activate setup c) := by
  unfold activate
  split
  · exact cycle.stays
  · next validated =>
      exact cycle.after_switch (Or.inl rfl) (not_le_iff_lt.mp validated)

theorem LifeCycle.after_hold : Evolves setup c (hold setup c) := by
  unfold hold
  split
  · exact cycle.stays
  · next validated =>
      exact cycle.after_switch (Or.inr rfl) (not_le_iff_lt.mp validated)

theorem LifeCycle.after_destroy (reason : DestructionReason) (outcome : WriteOutcome) :
    Evolves setup c (destroy setup reason outcome c) := by
  unfold destroy
  cases reason <;> exact cycle.after_closing outcome _

theorem LifeCycle.after_close {force : Bool} {outcome : WriteOutcome}
    (closed : close setup force outcome c = some d) : Evolves setup c d := by
  unfold close at closed
  split at closed
  · rw [Option.some.injEq] at closed
    rw [← closed]
    exact cycle.after_fail _
  · split at closed
    · cases closed
    · rw [Option.some.injEq] at closed
      rw [← closed]
      exact cycle.after_closing outcome _

theorem LifeCycle.after_monitor (expired : Bool) (outcome : WriteOutcome) :
    Evolves setup c (monitor setup expired outcome c) := by
  unfold monitor
  split
  · exact cycle.stays
  · split
    · exact cycle.stays
    · split
      · exact cycle.after_closing outcome _
      · exact cycle.stays

theorem LifeCycle.after_timed_out : Evolves setup c (timedOut setup c) := by
  unfold timedOut
  split
  · exact cycle.after_fail _
  · split
    · exact cycle.after_fail _
    · split
      · exact cycle.after_fail _
      · exact cycle.stays

theorem LifeCycle.after_send_for_call (outcome : WriteOutcome) (message : OutgoingMessage)
    (response : Bool) : Evolves setup c (sendForCall setup outcome message response c).2 := by
  have sent := cycle.after_send_message outcome message
  unfold sendForCall
  rcases ran : sendMessage setup outcome message c with ⟨status, after⟩
  rw [ran] at sent
  cases status with
  | failed ex os =>
      apply sent.trans
      intro cycle
      have noted : LifeCycle setup { after with
        calls := after.calls ++ [⟨message.requestId, response, false⟩] } := cycle.congr rfl
      exact (noted.keeps le_rfl rfl : Evolves setup after _).trans (fun cycle => cycle.after_fail ex)
  | sent callback => exact sent.trans (fun cycle => cycle.unchanged rfl)
  | queued => exact sent.trans (fun cycle => cycle.unchanged rfl)

end

@[simp] theorem register_life (requestId : Int) (call : Call) :
    (register requestId call c).life = c.life := by
  unfold register
  split <;> rfl

section

variable (cycle : LifeCycle setup c)

include cycle

theorem LifeCycle.after_send_call (async notifies compress response : Bool) (os : RequestStream)
    (outcome : WriteOutcome) :
    Evolves setup c (sendCall setup async notifies compress response os outcome c).2 := by
  unfold sendCall
  split
  · exact cycle.stays
  · split
    · exact cycle.stays
    · split
      · dsimp only
        have counted : LifeCycle setup
            { c with nextRequestId := followingId c.nextRequestId } := cycle.congr rfl
        have sent := counted.after_send_for_call outcome
          (callMessage async notifies compress (takenId c.nextRequestId)
            (putInt os.bytes headerSize (takenId c.nextRequestId))
            { c with nextRequestId := followingId c.nextRequestId }) true
        split
        · next thrown =>
            rw [thrown] at sent
            exact sent.since rfl rfl
        · next called =>
            rw [called] at sent
            have since : Evolves setup c _ := sent.since rfl rfl
            exact since.trans (fun cycle => cycle.unchanged (register_life _ _))
      · exact cycle.after_send_for_call outcome _ false

theorem LifeCycle.after_prepare_batch {result : Except (LocalException × Bool) Unit}
    (prepared : prepareBatchRequest c = some (result, d)) : Evolves setup c d := by
  unfold prepareBatchRequest at prepared
  split at prepared
  · cases prepared
  · split at prepared
    · simp only [Option.some.injEq, Prod.mk.injEq] at prepared
      rw [← prepared.2]
      exact cycle.stays
    · simp only [Option.some.injEq, Prod.mk.injEq] at prepared
      rw [← prepared.2]
      exact cycle.unchanged rfl

theorem LifeCycle.after_auto_flush (outcome : WriteOutcome) :
    Evolves setup c (autoFlush setup outcome c).2 := by
  have split_ : LifeCycle setup { c with
      batch := { c.batch with stream := c.batch.stream.take c.batch.marker } } := cycle.congr rfl
  have sent : Evolves setup c _ := (split_.after_send_message outcome
    (batchMessage none { c.batch with stream := c.batch.stream.take c.batch.marker })).since rfl rfl
  unfold autoFlush
  dsimp only
  split
  · next failed =>
      rw [failed] at sent
      exact sent.trans (fun cycle => cycle.after_fail _)
  · next status after _ flushed =>
      rw [flushed] at sent
      split
      · exact sent.trans (fun cycle => cycle.unchanged rfl)
      · exact sent.trans (fun cycle => cycle.unchanged rfl)

theorem LifeCycle.after_finish_batch (written : List Byte) (compress : Bool)
    (outcome : WriteOutcome) :
    Evolves setup c (finishBatchRequest setup written compress outcome c).2 := by
  have returned : LifeCycle setup { c with
      batch := { c.batch with stream := c.batch.lent ++ written, lent := [] } } := cycle.congr rfl
  have flushed : Evolves setup c _ := (returned.after_auto_flush outcome).since rfl rfl
  unfold finishBatchRequest
  dsimp only
  split
  · exact cycle.unchanged rfl
  · split
    · exact cycle.unchanged rfl
    · split
      · split
        · next failed =>
            rw [failed] at flushed
            exact flushed.trans (fun cycle => cycle.unchanged rfl)
        · next done =>
            rw [done] at flushed
            exact flushed.trans (fun cycle => cycle.unchanged rfl)
      · exact cycle.unchanged rfl

theorem LifeCycle.after_flush_batch {async notifies : Bool} {outcome : WriteOutcome}
    {result : CallResult} (flushed : flushBatch setup async notifies outcome c = some (result, d)) :
    Evolves setup c d := by
  unfold flushBatch at flushed
  split at flushed
  · cases flushed
  · split at flushed
    · simp only [Option.some.injEq, Prod.mk.injEq] at flushed
      rw [← flushed.2]
      exact cycle.stays
    · dsimp only at flushed
      split at flushed
      · simp only [Option.some.injEq, Prod.mk.injEq] at flushed
        rw [← flushed.2]
        exact cycle.unchanged rfl
      · have lent : LifeCycle setup { c with batch := { c.batch with stream := [] } } :=
          cycle.congr rfl
        have sent : Evolves setup c _ := (lent.after_send_for_call outcome
          (batchMessage (some ⟨c.calls.length, async, notifies⟩) c.batch) false).since rfl rfl
        split at flushed
        · next thrown =>
            rw [thrown] at sent
            simp only [Option.some.injEq, Prod.mk.injEq] at flushed
            rw [← flushed.2]
            exact sent
        · next called =>
            rw [called] at sent
            simp only [Option.some.injEq, Prod.mk.injEq] at flushed
            rw [← flushed.2]
            exact sent.trans (fun cycle => cycle.unchanged rfl)

end

@[simp] theorem reap_when_idle_life : (reapWhenIdle c).life = c.life := by
  unfold reapWhenIdle
  split <;> rfl

section

variable (cycle : LifeCycle setup c)

include cycle

theorem LifeCycle.after_shutdown_when_idle (outcome : WriteOutcome) :
    Evolves setup c (shutdownWhenIdle setup outcome c) := by
  unfold shutdownWhenIdle
  split
  · next idle =>
      apply cycle.after_shutdown idle.1
      intro other
      cases other
  · exact cycle.stays

theorem LifeCycle.after_send_response (os : List Byte) (compressFlag : Byte)
    (outcome closing : WriteOutcome) :
    Evolves setup c (sendResponse setup os compressFlag outcome closing c) := by
  have counted : Evolves setup c (reapWhenIdle
      { c with dispatchCount := wrap (c.dispatchCount - 1) }) := cycle.unchanged reap_when_idle_life
  apply counted.trans
  intro cycle
  have sent := cycle.after_send_message outcome (ownMessage os (0 < compressFlag))
  unfold sendResponse
  dsimp only
  split
  · exact cycle.rethrown
  · split
    · next failed =>
        rw [failed] at sent
        exact sent.trans (fun cycle => cycle.after_fail _)
    · next answered =>
        rw [answered] at sent
        exact sent.trans (fun cycle => cycle.after_shutdown_when_idle closing)

theorem LifeCycle.after_send_no_response (outcome : WriteOutcome) :
    Evolves setup c (sendNoResponse setup outcome c) := by
  have counted : Evolves setup c (reapWhenIdle
      { c with dispatchCount := wrap (c.dispatchCount - 1) }) := cycle.unchanged reap_when_idle_life
  apply counted.trans
  intro cycle
  unfold sendNoResponse
  dsimp only
  split
  · exact cycle.rethrown
  · exact cycle.after_shutdown_when_idle outcome

theorem LifeCycle.after_invoke_exception (ex : LocalException) (invokeNum : Int) :
    Evolves setup c (invokeException setup ex invokeNum c) := by
  apply (cycle.after_fail ex).trans
  intro cycle
  unfold invokeException
  dsimp only
  split
  · exact cycle.unchanged reap_when_idle_life
  · exact cycle.stays

theorem LifeCycle.after_dispatch_done (outcome : WriteOutcome) (upcall : Upcall) :
    Evolves setup c (dispatchDone setup outcome upcall c) := by
  have counted : LifeCycle setup
      { c with dispatchCount := wrap (c.dispatchCount - 1) } := cycle.congr rfl
  unfold dispatchDone
  dsimp only
  split
  · split
    · split
      · next closing =>
          have done := counted.after_shutdown closing.1 .initiateShutdown outcome
            (by intro other; cases other)
          exact done.since rfl rfl
      · exact cycle.unchanged reap_when_idle_life
    · exact cycle.unchanged rfl
  · exact cycle.stays

end

@[simp] theorem fill_life (supply : Supply) : (fill supply c).2.2.life = c.life := by
  unfold fill
  dsimp only
  split
  · rfl
  · split <;> rfl

@[simp] theorem read_body_life (supply : Supply) : (readBody setup supply c).2.life = c.life := by
  unfold readBody
  split
  · rfl
  · split
    · rfl
    · exact fill_life supply

@[simp] theorem read_header_life (supply : Supply) :
    (readHeader setup supply c).2.2.life = c.life := by
  unfold readHeader
  split
  · split <;> rfl
  · exact fill_life supply

theorem read_message_life (supply : Supply) : (readMessage setup supply c).2.life = c.life := by
  have headerRead : (readHeader setup supply c).2.2.life = c.life := read_header_life supply
  unfold readMessage
  split
  · rfl
  · split
    · split
      · next failed =>
          rw [failed] at headerRead
          exact headerRead
      · next pending =>
          rw [pending] at headerRead
          exact headerRead
      · next done =>
          rw [done] at headerRead
          dsimp only
          split
          · exact headerRead
          · rw [read_body_life]
            exact headerRead
    · exact read_body_life supply

theorem write_message_life (outcome : WriteOutcome) : (writeMessage outcome c).2.life = c.life := by
  unfold writeMessage
  split <;> rfl

theorem LifeCycle.after_caught (cycle : LifeCycle setup c) (ex : LocalException) :
    Evolves setup c (caught setup ex c) := by
  unfold caught
  split
  · exact cycle.unchanged rfl
  · split
    · exact cycle.after_fail ex
    · split
      · exact cycle.unchanged rfl
      · exact cycle.after_fail ex

theorem parse_reply_life (refusal : Option LocalException) (stream : List Byte) (compress : Byte)
    (requestId : Int) : (parseReply refusal stream compress requestId c).2.life = c.life := by
  unfold parseReply
  split
  · rfl
  · split
    · rfl
    · split <;> rfl

theorem LifeCycle.after_parse_stream (cycle : LifeCycle setup c) (refusal : Option LocalException)
    (stream : List Byte) (compress : Byte) :
    Evolves setup c (parseStream setup refusal stream compress c).2 := by
  unfold parseStream
  dsimp only
  split
  · split
    · exact cycle.stays
    · exact cycle.after_fail _
  · split
    · split
      · exact cycle.stays
      · split
        · exact cycle.stays
        · exact cycle.unchanged rfl
    · split
      · split
        · exact cycle.stays
        · split
          · exact cycle.stays
          · split
            · exact cycle.stays
            · exact cycle.unchanged rfl
      · split
        · split
          · exact cycle.stays
          · exact cycle.unchanged (parse_reply_life _ _ _ _)
        · split
          · exact cycle.stays
          · exact cycle.stays

theorem LifeCycle.after_parse (cycle : LifeCycle setup c) (refusal : Option LocalException) :
    Evolves setup c (parseMessage setup refusal c).2 := by
  have begun : Evolves setup c { c with
      readStream := .fresh
      validated := true
      parsed := c.parsed ++ [c.readStream.bytes] } := cycle.unchanged rfl
  apply begun.trans
  intro cycle
  unfold parseMessage
  dsimp only
  cases openFrame setup.bz2 setup.messageSizeMax c.readStream.bytes with
  | error ex =>
      dsimp only
      split
      · exact cycle.stays
      · exact cycle.after_fail ex
  | ok stream =>
      have switched := cycle.after_parse_stream refusal stream (c.readStream.bytes.getD 9 0)
      dsimp only
      split
      · next done =>
          rw [done] at switched
          exact switched
      · next failed =>
          rw [failed] at switched
          split
          · exact switched
          · exact switched.trans (fun cycle => cycle.after_fail _)

theorem LifeCycle.after_send_next (cycle : LifeCycle setup c) (writes : List WriteOutcome) :
    Evolves setup c (sendNextMessage setup writes c).2 := by
  unfold sendNextMessage
  split
  · exact cycle.stays
  · next current rest _ =>
      have looped : Evolves setup c (sendNextLoop setup rest current writes [] c).connection :=
        cycle.unchanged (send_next_loop_life rest current writes [])
      split
      · next failed =>
          rw [failed] at looped
          exact looped.trans (fun cycle => cycle.after_fail _)
      · next done =>
          rw [done] at looped
          exact looped

@[simp] theorem count_callbacks_life (callbacks : List Call) (parsed : Parsed) :
    (countCallbacks callbacks parsed c).life = c.life := by
  unfold countCallbacks
  split <;> rfl

theorem LifeCycle.after_parse_part (cycle : LifeCycle setup c) (ready : Ready) :
    Evolves setup c (parsePart setup ready c).2 := by
  unfold parsePart
  split
  · exact cycle.after_parse ready.refusal
  · exact cycle.stays

theorem LifeCycle.after_send_part (cycle : LifeCycle setup c) (ready : Ready) :
    Evolves setup c (sendPart setup ready c).2 := by
  unfold sendPart
  split
  · exact cycle.after_send_next _
  · exact cycle.stays

theorem LifeCycle.after_process (cycle : LifeCycle setup c) (ready : Ready) :
    Evolves setup c (processMessage setup ready c) := by
  have parsed := cycle.after_parse_part ready
  have sent := parsed.trans (fun cycle => cycle.after_send_part ready)
  exact sent.trans (fun cycle => cycle.unchanged (count_callbacks_life _ _))

theorem write_part_life (ready : Ready) : (writePart ready c).2.life = c.life := by
  unfold writePart
  split
  · exact write_message_life _
  · rfl

theorem read_part_life (ready : Ready) : (readPart setup ready c).2.life = c.life := by
  unfold readPart
  split
  · exact read_message_life _
  · rfl

theorem LifeCycle.after_exchange (cycle : LifeCycle setup c) (ready : Ready) :
    Evolves setup c (exchange setup ready c) := by
  have wrote : Evolves setup c (writePart ready c).2 := cycle.unchanged (write_part_life ready)
  unfold exchange
  split
  · next failed =>
      rw [failed] at wrote
      exact wrote.trans (fun cycle => cycle.after_caught _)
  · next blocked =>
      rw [blocked] at wrote
      exact wrote
  · next written =>
      rw [written] at wrote
      apply wrote.trans
      intro cycle
      have got : Evolves setup _ (readPart setup ready _).2 :=
        cycle.unchanged (read_part_life ready)
      split
      · next failed =>
          rw [failed] at got
          exact got.trans (fun cycle => cycle.after_caught _)
      · next partial_ =>
          rw [partial_] at got
          exact got
      · next complete =>
          rw [complete] at got
          exact got.trans (fun cycle => cycle.after_process ready)

theorem LifeCycle.after_establishing (cycle : LifeCycle setup c) (started : c.started = true)
    (ready : Ready) : Evolves setup c (establishing setup ready c) := by
  have established : Evolves setup c
        (if c.state = .notInitialized then establish setup ready.initializing ready.validating c
          else validate setup ready.validating c).2 ∧
      (if c.state = .notInitialized then establish setup ready.initializing ready.validating c
          else validate setup ready.validating c).2.started = true := by
    split
    · next uninitialized =>
        exact cycle.after_establish started uninitialized ready.initializing ready.validating
    · have same : (validate setup ready.validating c).2.life = c.life :=
        validate_life ready.validating
      refine ⟨cycle.unchanged same, ?_⟩
      simp only [ConnectionI.life, Life.mk.injEq] at same
      rw [same.2.2.2.2.1, started]
  unfold establishing
  dsimp only
  generalize (if c.state = .notInitialized then
      establish setup ready.initializing ready.validating c
    else validate setup ready.validating c) = result at established ⊢
  obtain ⟨evolved, stillStarted⟩ := established
  apply evolved.trans
  intro cycle
  split
  · exact cycle.after_caught _
  · exact cycle.stays
  · have held := cycle.after_set_state (Or.inr rfl) noWrite stillStarted
    exact held.trans (fun cycle => cycle.unchanged rfl)

theorem LifeCycle.after_message (cycle : LifeCycle setup c) (started : c.started = true)
    (ready : Ready) : Evolves setup c (message setup ready c) := by
  unfold message
  split
  · exact cycle.stays
  · split
    · exact cycle.after_establishing started ready
    · exact cycle.after_exchange ready

@[simp] theorem return_front_life : (returnFront c).life = c.life := by
  unfold returnFront
  split
  · rfl
  · split <;> rfl

@[simp] theorem finish_queued_life (ex : LocalException) (message : OutgoingMessage) :
    (finishQueued ex message c).life = c.life := by
  unfold finishQueued
  split
  · rfl
  · dsimp only
    split
    · rfl
    · split <;> rfl

theorem finish_loop_life (ex : LocalException) (messages : List OutgoingMessage) :
    (messages.foldl (fun c message => finishQueued ex message c) c).life = c.life := by
  induction messages generalizing c with
  | nil => rfl
  | cons message messages ih => rw [List.foldl_cons, ih, finish_queued_life]

theorem finish_calls_life : (finishCalls c).life = c.life := by
  have looped : ((returnFront { c with startCallback := false }).sendStreams.foldl
      (fun after message => finishQueued (c.exception.getD (.other 0)) message after)
      (returnFront { c with startCallback := false })).life =
        (returnFront { c with startCallback := false }).life := finish_loop_life _ _
  rw [return_front_life] at looped
  exact looped

theorem LifeCycle.enter_finished (cycle : LifeCycle setup c) (closed : c.state = .closed) :
    LifeCycle setup (enter setup .finished c) := by
  apply enter_cycle cycle
  · rw [closed]
    exact Or.inr (Or.inr ⟨by decide, by simp⟩)
  · rw [cycle.exception, closed]
    decide
  · intro _
    exact Or.inr (by decide)
  · intro _
    decide

theorem LifeCycle.after_finish (cycle : LifeCycle setup c) (closed : c.state = .closed) :
    Evolves setup c (finish setup c) := by
  have told := cycle.unchanged finish_calls_life
  have stillClosed : (finishCalls c).state = .closed := by
    have same : (finishCalls c).life = c.life := finish_calls_life
    simp only [ConnectionI.life, Life.mk.injEq] at same
    rw [same.1, closed]
  have go : switch setup (finishCalls c).state .finished = .go .finished := by
    rw [stillClosed]
    simp [switch, aim]
  apply told.trans
  intro cycle
  unfold finish
  rw [set_state_go noWrite go (by decide)]
  have entered := cycle.enter_finished stillClosed
  exact (entered.keeps (by rw [stillClosed]; exact Nat.le_succ 4) rfl :
    Evolves setup (finishCalls c) _).trans
    (fun cycle => cycle.unchanged reap_when_idle_life)

theorem guard_and_some {condition : Prop} [Decidable condition] {after result : ConnectionI}
    (passed : guardAnd condition after = some result) : condition ∧ result = after := by
  unfold guardAnd at passed
  split at passed
  · next holds =>
      rw [Option.some.injEq] at passed
      exact ⟨holds, passed.symm⟩
  · cases passed

theorem step_some {event : Event} (stepped : step setup event c = some d) :
    (∀ ex ∈ event.exceptions, ex.foreign setup = true) ∧ perform setup event c = some d := by
  unfold step at stepped
  split at stepped
  · next foreign => exact ⟨foreign, stepped⟩
  · cases stepped

theorem LifeCycle.after_invoke (cycle : LifeCycle setup c) (index : Nat) (upcall : Upcall)
    (fatal : Option LocalException) : Evolves setup c (invoke setup index upcall fatal c) := by
  unfold invoke
  cases fatal with
  | none => exact cycle.unchanged rfl
  | some ex =>
      exact (cycle.after_invoke_exception ex upcall.invokeNum).trans
        (fun cycle => cycle.unchanged rfl)

theorem LifeCycle.after_answer (cycle : LifeCycle setup c) (index : Nat) (dispatch : Dispatch)
    (body : List Byte) (outcome closing : WriteOutcome) :
    Evolves setup c (answer setup index dispatch body outcome closing c) := by
  have removed : Evolves setup c { c with dispatches := c.dispatches.eraseIdx index } :=
    cycle.unchanged rfl
  apply removed.trans
  intro cycle
  unfold answer
  dsimp only
  split
  · exact cycle.after_send_response _ _ _ _
  · exact cycle.after_send_no_response _

theorem LifeCycle.after_step {event : Event} (cycle : LifeCycle setup c)
    (stepped : step setup event c = some d) : Evolves setup c d := by
  replace stepped := (step_some stepped).2
  unfold perform at stepped
  cases event with
  | start callback initializing validating =>
      obtain ⟨fresh, rfl⟩ := guard_and_some stepped
      exact cycle.after_start fresh callback initializing validating
  | resumeStart =>
      obtain ⟨waiting, rfl⟩ := guard_and_some stepped
      exact cycle.after_resume waiting.2
  | activate =>
      obtain rfl := Option.some.inj stepped
      exact cycle.after_activate
  | hold =>
      obtain rfl := Option.some.inj stepped
      exact cycle.after_hold
  | destroy reason outcome =>
      obtain rfl := Option.some.inj stepped
      exact cycle.after_destroy reason outcome
  | close force outcome => exact cycle.after_close stepped
  | monitor expired outcome =>
      obtain rfl := Option.some.inj stepped
      exact cycle.after_monitor expired outcome
  | timedOut =>
      obtain rfl := Option.some.inj stepped
      exact cycle.after_timed_out
  | exception ex =>
      obtain rfl := Option.some.inj stepped
      exact cycle.after_fail ex
  | sendRequest compress response os outcome =>
      obtain ⟨_, rfl⟩ := guard_and_some stepped
      exact cycle.after_send_call false false compress response os outcome
  | sendAsyncRequest notifies compress response os outcome =>
      obtain ⟨_, rfl⟩ := guard_and_some stepped
      exact cycle.after_send_call true notifies compress response os outcome
  | prepareBatchRequest =>
      dsimp only at stepped
      split at stepped
      · obtain ⟨⟨result, after⟩, prepared, rfl⟩ := Option.map_eq_some_iff.mp stepped
        exact cycle.after_prepare_batch prepared
      · cases stepped
  | finishBatchRequest written compress outcome =>
      obtain ⟨_, rfl⟩ := guard_and_some stepped
      exact cycle.after_finish_batch written compress outcome
  | abortBatchRequest =>
      obtain ⟨_, rfl⟩ := guard_and_some stepped
      exact cycle.unchanged rfl
  | flushBatchRequests outcome =>
      dsimp only at stepped
      split at stepped
      · obtain ⟨⟨result, after⟩, flushed, rfl⟩ := Option.map_eq_some_iff.mp stepped
        exact cycle.after_flush_batch flushed
      · cases stepped
  | flushAsyncBatchRequests notifies outcome =>
      dsimp only at stepped
      split at stepped
      · obtain ⟨⟨result, after⟩, flushed, rfl⟩ := Option.map_eq_some_iff.mp stepped
        exact cycle.after_flush_batch flushed
      · cases stepped
  | message ready =>
      obtain ⟨started, rfl⟩ := guard_and_some stepped
      exact cycle.after_message started.1 ready
  | dispatcherThrows index =>
      dsimp only at stepped
      split at stepped
      · cases stepped
      · obtain ⟨_, rfl⟩ := guard_and_some stepped
        exact cycle.unchanged rfl
  | callbacks index =>
      dsimp only at stepped
      split at stepped
      · cases stepped
      · obtain ⟨_, rfl⟩ := guard_and_some stepped
        exact cycle.unchanged rfl
  | invoke index fatal =>
      dsimp only at stepped
      split at stepped
      · cases stepped
      · obtain ⟨_, rfl⟩ := guard_and_some stepped
        exact cycle.after_invoke index _ fatal
  | dispatchDone index outcome =>
      dsimp only at stepped
      split at stepped
      · cases stepped
      · obtain ⟨_, rfl⟩ := guard_and_some stepped
        have removed : Evolves setup c (removeUpcall index c) := cycle.unchanged rfl
        exact removed.trans (fun cycle => cycle.after_dispatch_done outcome _)
  | answer index body outcome closing =>
      dsimp only at stepped
      split at stepped
      · cases stepped
      · obtain ⟨_, rfl⟩ := guard_and_some stepped
        exact cycle.after_answer index _ body outcome closing
  | finish =>
      obtain ⟨closed, rfl⟩ := guard_and_some stepped
      exact cycle.after_finish closed

theorem life_cycle_initial : LifeCycle setup .initial := by
  constructor
  · exact List.isChain_singleton _
  · rfl
  · rfl
  · simp [ConnectionI.initial, State.le_def, State.index]
  · simp [ConnectionI.initial]
  · simp [ConnectionI.initial]
  · intro initiated
    cases initiated
  · intro _
    exact Or.inl rfl

theorem life_cycle_of_reachable (reached : Reachable setup c) : LifeCycle setup c := by
  apply reached.invariant life_cycle_initial
  intro event before after cycle _ stepped
  exact (cycle.after_step stepped).cycle

theorem evolves_of_reach {later : ConnectionI} (cycle : LifeCycle setup c)
    (reached : Reach (step setup) anyStep c later) : Evolves setup c later := by
  apply reached.invariant cycle.stays
  intro event before after evolved _ stepped
  exact evolved.trans (fun cycle => cycle.after_step stepped)

/-- Whatever is called in whatever order, the states follow the life cycle and never go back,
the exception is set exactly from closing on and keeps its first value, the connection is
monitored exactly while it is active with an ACM timeout, and no assertion of `setState`
fails. -/
theorem life_cycle_holds (reached : Reachable setup c) :
    c.states.head? = some .notInitialized ∧ c.states.getLast? = some c.state ∧
      c.states.IsChain (Edge setup) ∧
      (c.exception.isSome ↔ .closing ≤ c.state) ∧
      (c.monitored = true ↔ c.state = .active ∧ 0 < setup.acmTimeout) ∧
      .setState ∉ c.assertions ∧
      ∀ later, Reach (step setup) anyStep c later →
        c.state.stage ≤ later.state.stage ∧
          ∀ ex, c.exception = some ex → later.exception = some ex := by
  have cycle := life_cycle_of_reachable reached
  refine ⟨cycle.first, cycle.last, cycle.chain, cycle.exception, cycle.monitored,
    cycle.asserted, ?_⟩
  intro later follows
  have evolved := evolves_of_reach cycle follows
  exact ⟨evolved.forward, evolved.exception⟩

/-- A TCP connection without compression, with an ACM timeout of a minute. -/
def tcpSetup : Setup where
  datagram := false
  acm := 60
  messageSizeMax := 1048576
  messageSizeMax_le := by decide
  packetSize := 0
  batchAutoFlush := true
  dispatcher := false
  bz2 := ⟨fun _ _ => none, fun _ _ => none, by simp⟩

def destroyedRun : List Event :=
  [.start true .done .done, .activate, .destroy .communicatorDestroyed ⟨14, none⟩, .timedOut,
    .finish]

theorem destroyed_run_cycle :
    ∃ c, runAll (step tcpSetup) destroyedRun .initial = some c ∧ Reachable tcpSetup c ∧
      c.states = [.notInitialized, .notValidated, .holding, .active, .closing, .closed,
        .finished] ∧
      c.exception = some .communicatorDestroyed ∧ c.states.IsChain (Edge tcpSetup) := by
  have ran : (runAll (step tcpSetup) destroyedRun .initial).isSome = true := by decide
  obtain ⟨c, isResult⟩ := Option.isSome_iff_exists.mp ran
  have reached : Reachable tcpSetup c := reach_of_run isResult (fun _ _ _ => trivial)
  have states : (runAll (step tcpSetup) destroyedRun .initial).map ConnectionI.states =
      some [.notInitialized, .notValidated, .holding, .active, .closing, .closed, .finished] := by
    decide
  have exception : (runAll (step tcpSetup) destroyedRun .initial).map ConnectionI.exception =
      some (some .communicatorDestroyed) := by decide
  rw [isResult] at states exception
  refine ⟨c, isResult, reached, Option.some.inj states, Option.some.inj exception, ?_⟩
  exact (life_cycle_holds reached).2.2.1

end IceTouch.Connection
