import IceTouch.Adapters.ObjectAdapterI
import IceTouch.Library.Lists

/-!
# What the trace of an object adapter shows

The one flag that keeps `activate` and `deactivate` apart does so as long as one call at a time
sets it, and one call at a time sees it cleared. Under this the adapter is deactivated once, and
nothing that `activate` does comes after it.
-/

namespace IceTouch.Adapters

open Machine IceTouch.Lists

/-- What must be so when a mark is added to those of `earlier`. -/
def Mark.follows (earlier : List Mark) : Mark → Prop
  | .updateSent _ => Mark.updateSent true ∉ earlier
  | .updateCompleted clears => clears = false → Mark.updateSent true ∉ earlier
  | .routerErased => Mark.routerErased ∉ earlier
  | .factoriesActivated => Mark.deactivated ∉ earlier
  | .deactivated => True
  | .instanceUsed gone => gone = false
  | .asserted holds => holds = true

instance (earlier : List Mark) : (mark : Mark) → Decidable (mark.follows earlier)
  | .updateSent _ => inferInstanceAs (Decidable (Mark.updateSent true ∉ earlier))
  | .updateCompleted clears =>
      inferInstanceAs (Decidable (clears = false → Mark.updateSent true ∉ earlier))
  | .routerErased => inferInstanceAs (Decidable (Mark.routerErased ∉ earlier))
  | .factoriesActivated => inferInstanceAs (Decidable (Mark.deactivated ∉ earlier))
  | .deactivated => isTrue trivial
  | .instanceUsed gone => inferInstanceAs (Decidable (gone = false))
  | .asserted holds => inferInstanceAs (Decidable (holds = true))

/-- No update is sent or completed after the one that clears the adapter, this one is sent once,
the router entry is erased once, no factories are activated after the deactivation, `_instance`
is never used when it is null, and the assertion never fails. -/
def Orderly : List Mark → Prop
  | [] => True
  | mark :: earlier => mark.follows earlier ∧ Orderly earlier

def Call.activating : Call → Bool
  | .activate .entry => false
  | .activate _ => true
  | _ => false

/-- Between the section of `deactivate` and its return. -/
def Call.closing : Call → Bool
  | .deactivate _ (.update _ _) => true
  | .deactivate _ (.dismantle _) => true
  | _ => false

def Call.updating : Call → Bool
  | .deactivate _ (.update _ _) => true
  | _ => false

def Call.unsent : Call → Bool
  | .deactivate _ (.update _ work) => work.stage = .registry || work.stage = .send
  | _ => false

/-- `waitForDeactivate` has seen the adapter deactivated. -/
def Call.waited : Call → Bool
  | .waitForDeactivate _ (.finishing _) => true
  | .cleanUp _ => true
  | _ => false

/-- No `activate` starts the one-off initialisations while another is in them, no `deactivate`
goes on after a wait when the adapter is deactivated, and no `destroy` that had no factories to
wait for clears `_instance` during the update of a `deactivate`. -/
def Call.careful (s : State) : Call → Bool
  | .activate .entry => s.deactivated || s.activateOneOffDone || !s.waitForActivate
  | .deactivate _ .waiting => !s.deactivated
  | .cleanUp [] => s.calls.all fun call => !call.updating
  | _ => true

def Event.careful (s : State) : Event → Bool
  | .run id _ => s.calls[id]?.all (Call.careful s)
  | _ => true

def FactoryState.stopped : FactoryState → Bool
  | .closed => true
  | .finished => true
  | _ => false

def State.isStopped (s : State) : Prop := ∃ state ∈ s.factories, state.stopped = true

structure Invariant (s : State) : Prop where
  activating : s.calls.countP Call.activating = if s.waitForActivate then 1 else 0
  apart : s.waitForActivate = true → s.deactivated = false
  closing : s.calls.countP Call.closing ≤ if s.deactivated then 1 else 0
  unsent : ∀ call ∈ s.calls, call.unsent = true → Mark.updateSent true ∉ s.trace
  recorded : s.deactivated = false →
    Mark.updateSent true ∉ s.trace ∧ Mark.deactivated ∉ s.trace ∧ Mark.routerErased ∉ s.trace
  gone : s.gone = true → s.deactivated = true ∧ ∀ call ∈ s.calls, call.updating = false
  stopped : s.isStopped → s.deactivated = true ∧ ∀ call ∈ s.calls, call.updating = false
  waited : ∀ call ∈ s.calls, call.waited = true → s.deactivated = true
  destroyed : s.destroyed = true → s.deactivated = true
  cleanUp : ∀ factories, Call.cleanUp factories ∈ s.calls → factories ≠ [] → s.isStopped
  orderly : Orderly s.trace

variable {config : Config} {s after : State} {id : Nat} {before next : Call} {outcome : Outcome}

theorem start_invariant (locatorInfo routerInfo : Bool) (factories : Nat) :
    Invariant (start locatorInfo routerInfo factories) where
  activating := rfl
  apart := fun waiting => nomatch waiting
  closing := Nat.le_refl _
  unsent := fun _ inside => absurd inside List.not_mem_nil
  recorded := fun _ => ⟨List.not_mem_nil, List.not_mem_nil, List.not_mem_nil⟩
  gone := fun gone => nomatch gone
  stopped := fun ⟨state, inside, stopped⟩ => by
    rw [start, List.mem_replicate] at inside
    rw [inside.2] at stopped
    cases stopped
  waited := fun _ inside => absurd inside List.not_mem_nil
  destroyed := fun destroyed => nomatch destroyed
  cleanUp := fun _ inside => absurd inside List.not_mem_nil
  orderly := trivial

theorem updating_closing {call : Call} (updating : call.updating = true) :
    call.closing = true := by
  cases call with
  | deactivate nested stage => cases stage <;> first | rfl | cases updating
  | _ => cases updating

theorem unsent_updating {call : Call} (unsent : call.unsent = true) : call.updating = true := by
  cases call with
  | deactivate nested stage => cases stage <;> first | rfl | cases unsent
  | _ => cases unsent

/-- A call that takes a step to the state `after`. -/
def State.moved (after : State) (id : Nat) (next : Call) : State :=
  { after with calls := after.calls.set id next }

theorem mem_moved {call : Call} (inside : call ∈ (after.moved id next).calls) :
    call = next ∨ call ∈ after.calls := by
  obtain old | new := List.mem_or_eq_of_mem_set inside
  · exact .inr old
  · exact .inl new

def Mark.plain (mark : Mark) : Prop :=
  mark ≠ .updateSent true ∧ mark ≠ .deactivated ∧ mark ≠ .routerErased

structure Steady (s after : State) : Prop where
  deactivated : after.deactivated = s.deactivated
  gone : after.gone = s.gone
  destroyed : after.destroyed = s.destroyed
  trace : ∃ marks, after.trace = marks ++ s.trace ∧ ∀ mark ∈ marks, mark.plain
  stopped : after.isStopped ↔ s.isStopped

theorem Steady.refl (s : State) : Steady s s where
  deactivated := rfl
  gone := rfl
  destroyed := rfl
  trace := ⟨[], rfl, fun _ inside => absurd inside List.not_mem_nil⟩
  stopped := Iff.rfl

theorem Steady.mark {mark : Mark} (steady : Steady s after) (plain : mark.plain) :
    Steady s (after.mark mark) :=
  { steady with
    trace := by
      obtain ⟨marks, same, every⟩ := steady.trace
      refine ⟨mark :: marks, ?_, ?_⟩
      · rw [State.mark, same]
        rfl
      · intro other inside
        obtain rfl | old := List.mem_cons.mp inside
        · exact plain
        · exact every other old }

theorem Steady.useInstance (steady : Steady s after) : Steady s after.useInstance :=
  steady.mark ⟨by simp, by simp, by simp⟩

theorem is_stopped_set (factories : List Nat) {change : FactoryState → FactoryState}
    (keeps : ∀ state, (change state).stopped = state.stopped) :
    (s.setFactories factories change).isStopped ↔ s.isStopped := by
  have same (index : Nat) (state : FactoryState) :
      (if index ∈ factories then change state else state).stopped = state.stopped := by
    split
    · exact keeps state
    · rfl
  simp only [State.isStopped, State.setFactories, List.mem_mapIdx]
  constructor
  · intro ⟨state, ⟨index, inside, made⟩, stopped⟩
    rw [← made, same] at stopped
    exact ⟨s.factories[index], List.getElem_mem inside, stopped⟩
  · intro ⟨state, inside, stopped⟩
    obtain ⟨index, bound, here⟩ := List.getElem_of_mem inside
    refine ⟨_, ⟨index, bound, rfl⟩, ?_⟩
    rw [same, here]
    exact stopped

theorem Steady.activateFactories (steady : Steady s after) : Steady s after.activateFactories := by
  have set : Steady s (after.setFactories after.incoming FactoryState.activate) :=
    { steady with
      stopped := (is_stopped_set _ fun state => by cases state <;> rfl).trans steady.stopped }
  exact set.mark ⟨by simp, by simp, by simp⟩

theorem Steady.mem_iff (steady : Steady s after) {mark : Mark} (special : ¬ mark.plain) :
    mark ∈ after.trace ↔ mark ∈ s.trace := by
  obtain ⟨marks, same, every⟩ := steady.trace
  rw [same, List.mem_append]
  constructor
  · intro either
    obtain new | old := either
    · exact absurd (every mark new) special
    · exact old
  · exact .inr

theorem sent_special : ¬ (Mark.updateSent true).plain := fun plain => plain.1 rfl

theorem deactivated_special : ¬ Mark.deactivated.plain := fun plain => plain.2.1 rfl

theorem erased_special : ¬ Mark.routerErased.plain := fun plain => plain.2.2 rfl

/-- What a step keeps when it changes no flag, while no call begins to close. Whether
activations are waited for is left open, and with it the count. -/
theorem Invariant.carry (inv : Invariant s) (steady : Steady s after)
    (activating : after.calls.countP Call.activating = if after.waitForActivate then 1 else 0)
    (apart : after.waitForActivate = true → s.deactivated = false)
    (closing : after.calls.countP Call.closing ≤ s.calls.countP Call.closing)
    (updating : ∀ call ∈ after.calls, call.updating = true →
      ∃ old ∈ s.calls, old.updating = true)
    (unsent : ∀ call ∈ after.calls, call.unsent = true → ∃ old ∈ s.calls, old.unsent = true)
    (waited : ∀ call ∈ after.calls, call.waited = true → s.deactivated = true)
    (cleanUp : ∀ factories, Call.cleanUp factories ∈ after.calls → factories ≠ [] → s.isStopped)
    (orderly : Orderly after.trace) : Invariant after := by
  have still (none : ∀ call ∈ s.calls, call.updating = false) :
      ∀ call ∈ after.calls, call.updating = false := by
    intro call inside
    cases now : call.updating with
    | false => rfl
    | true =>
        obtain ⟨old, there, was⟩ := updating call inside now
        rw [none old there] at was
        cases was
  constructor
  · exact activating
  · rw [steady.deactivated]
    exact apart
  · rw [steady.deactivated]
    exact Nat.le_trans closing inv.closing
  · intro call inside now
    rw [steady.mem_iff sent_special]
    obtain ⟨old, there, was⟩ := unsent call inside now
    exact inv.unsent old there was
  · rw [steady.deactivated, steady.mem_iff sent_special, steady.mem_iff deactivated_special,
      steady.mem_iff erased_special]
    exact inv.recorded
  · rw [steady.gone, steady.deactivated]
    intro gone
    exact ⟨(inv.gone gone).1, still (inv.gone gone).2⟩
  · rw [steady.stopped, steady.deactivated]
    intro stopped
    exact ⟨(inv.stopped stopped).1, still (inv.stopped stopped).2⟩
  · rw [steady.deactivated]
    exact waited
  · rw [steady.destroyed, steady.deactivated]
    exact inv.destroyed
  · intro factories inside some
    rw [steady.stopped]
    exact cleanUp factories inside some
  · exact orderly

theorem Invariant.move (inv : Invariant s) (found : s.calls[id]? = some before)
    (steady : Steady s after) (calls : after.calls = s.calls)
    (activating : (after.moved id next).calls.countP Call.activating =
      if after.waitForActivate then 1 else 0)
    (apart : after.waitForActivate = true → s.deactivated = false)
    (closing : next.closing = true → before.closing = true)
    (updating : next.updating = true → before.updating = true)
    (unsent : next.unsent = true → before.unsent = true)
    (waited : next.waited = true → s.deactivated = true)
    (cleanUp : ∀ factories, next = .cleanUp factories → factories ≠ [] → s.isStopped)
    (orderly : Orderly after.trace) : Invariant (after.moved id next) := by
  have known : before ∈ s.calls := List.mem_of_getElem? found
  have moved : Steady s (after.moved id next) := { steady with }
  refine inv.carry moved activating apart ?_ ?_ ?_ ?_ ?_ orderly
  · change (after.calls.set id next).countP Call.closing ≤ _
    rw [calls]
    have count := count_replaced Call.closing next found
    cases now : next.closing with
    | false =>
        have positive : (0 : Int) ≤ if before.closing then 1 else 0 := by split <;> omega
        simp only [now, Bool.false_eq_true, if_false] at count
        omega
    | true =>
        simp only [now, closing now, if_true] at count
        omega
  · intro call inside now
    obtain same | old := mem_moved inside
    · rw [same] at now
      exact ⟨before, known, updating now⟩
    · rw [calls] at old
      exact ⟨call, old, now⟩
  · intro call inside now
    obtain same | old := mem_moved inside
    · rw [same] at now
      exact ⟨before, known, unsent now⟩
    · rw [calls] at old
      exact ⟨call, old, now⟩
  · intro call inside now
    obtain same | old := mem_moved inside
    · rw [same] at now
      exact waited now
    · rw [calls] at old
      exact inv.waited call old now
  · intro factories inside some
    obtain same | old := mem_moved inside
    · exact cleanUp factories same.symm some
    · rw [calls] at old
      exact inv.cleanUp factories old some

theorem Invariant.aside (inv : Invariant s) (found : s.calls[id]? = some before)
    (steady : Steady s after) (calls : after.calls = s.calls)
    (waiting : after.waitForActivate = s.waitForActivate)
    (activating : next.activating = before.activating)
    (closing : next.closing = true → before.closing = true)
    (updating : next.updating = true → before.updating = true)
    (unsent : next.unsent = true → before.unsent = true)
    (waited : next.waited = true → s.deactivated = true)
    (cleanUp : ∀ factories, next = .cleanUp factories → factories ≠ [] → s.isStopped)
    (orderly : Orderly after.trace) : Invariant (after.moved id next) := by
  refine inv.move found steady calls ?_ ?_ closing updating unsent waited cleanUp orderly
  · change (after.calls.set id next).countP Call.activating = _
    rw [calls, waiting, ← inv.activating]
    have count := count_replaced Call.activating next found
    rw [activating] at count
    omega
  · rw [waiting]
    exact inv.apart

theorem Invariant.active (inv : Invariant s) (found : s.calls[id]? = some before)
    (activating : before.activating = true) :
    s.waitForActivate = true ∧ s.deactivated = false := by
  have positive : 0 < s.calls.countP Call.activating :=
    List.countP_pos_iff.mpr ⟨before, List.mem_of_getElem? found, activating⟩
  rw [inv.activating] at positive
  have waiting : s.waitForActivate = true := by
    cases here : s.waitForActivate with
    | true => rfl
    | false =>
        rw [here] at positive
        cases positive
  exact ⟨waiting, inv.apart waiting⟩

theorem Invariant.present (inv : Invariant s) (active : s.deactivated = false) :
    s.gone = false := by
  cases here : s.gone with
  | false => rfl
  | true =>
      rw [(inv.gone here).1] at active
      cases active

theorem orderly_use (orderly : Orderly s.trace) (present : s.gone = false) :
    Orderly s.useInstance.trace := ⟨present, orderly⟩

theorem update_marks (work : Update) (clears : Bool) (other : work.stage ≠ .send) :
    ∃ marks processId,
      (work.step config clears outcome s).2 =
        { s with processId, trace := marks ++ s.trace } ∧
      ∀ mark ∈ marks, mark = .instanceUsed s.gone ∨ mark = .updateCompleted clears := by
  have nothing : ∃ marks processId,
      s = { s with processId, trace := marks ++ s.trace } ∧
        ∀ mark ∈ marks, mark = .instanceUsed s.gone ∨ mark = Mark.updateCompleted clears :=
    ⟨[], s.processId, rfl, fun _ inside => absurd inside List.not_mem_nil⟩
  have used : ∃ marks processId,
      s.useInstance = { s with processId, trace := marks ++ s.trace } ∧
        ∀ mark ∈ marks, mark = .instanceUsed s.gone ∨ mark = Mark.updateCompleted clears :=
    ⟨[.instanceUsed s.gone], s.processId, rfl, fun _ inside => .inl (List.mem_singleton.mp inside)⟩
  unfold Update.step
  split
  · split
    · exact nothing
    · split
      · exact nothing
      · dsimp only
        split
        · exact used
        · exact nothing
      · dsimp only
        split
        · exact used
        · exact nothing
  · next sends => exact absurd sends other
  · refine ⟨[.instanceUsed s.gone, .updateCompleted clears], s.processId, rfl, ?_⟩
    intro mark inside
    simpa using inside
  · split
    · exact nothing
    · split
      · exact nothing
      · refine ⟨[.instanceUsed s.gone], true, rfl, ?_⟩
        intro mark inside
        exact .inl (List.mem_singleton.mp inside)
  · split
    · exact nothing
    · exact used
  · exact used

variable {work : Update}

theorem update_sends (clears : Bool) (sends : work.stage = .send) :
    work.step config clears outcome s =
      (.goes { work with stage := .reply }, s.mark (.updateSent clears)) := by
  unfold Update.step
  rw [sends]

theorem update_goes {next : Update} {clears : Bool}
    (goes : (work.step config clears outcome s).1 = .goes next)
    (unsent : next.stage = .registry ∨ next.stage = .send) : work.stage = .registry := by
  have later {update : Update} (after : update.afterAdapter config = .goes next) : False := by
    unfold Update.afterAdapter at after
    split at after
    · cases after
      simp at unsent
    · cases after
  unfold Update.step at goes
  split at goes
  · assumption
  · cases goes
    simp at unsent
  · dsimp only at goes
    split at goes
    · cases goes
    · exact (later goes).elim
  · split at goes
    · cases goes
      simp at unsent
    · split at goes
      · cases goes
      · cases goes
        simp at unsent
  · split at goes
    · cases goes
    · cases goes
      simp at unsent
  · dsimp only at goes
    split at goes <;> cases goes

theorem orderly_marks {marks earlier : List Mark} {clears : Bool} (orderly : Orderly earlier)
    (every : ∀ mark ∈ marks, mark = .instanceUsed false ∨ mark = .updateCompleted clears)
    (unsent : clears = false → Mark.updateSent true ∉ earlier) : Orderly (marks ++ earlier) := by
  induction marks with
  | nil => exact orderly
  | cons mark marks ih =>
      have rest : ∀ mark ∈ marks, mark = .instanceUsed false ∨ mark = .updateCompleted clears :=
        fun other inside => every other (List.mem_cons_of_mem mark inside)
      refine ⟨?_, ih rest⟩
      obtain same | same := every mark List.mem_cons_self
      · rw [same]
        rfl
      · rw [same]
        intro adds inside
        obtain new | old := List.mem_append.mp inside
        · obtain bad | bad := rest _ new <;> cases bad
        · exact unsent adds old

theorem steady_marks {marks : List Mark} {processId clears : Bool}
    (every : ∀ mark ∈ marks, mark = .instanceUsed s.gone ∨ mark = .updateCompleted clears) :
    Steady s { s with processId, trace := marks ++ s.trace } where
  deactivated := rfl
  gone := rfl
  destroyed := rfl
  trace := by
    refine ⟨marks, rfl, ?_⟩
    intro mark inside
    obtain same | same := every mark inside
    · rw [same]
      exact ⟨by simp, by simp, by simp⟩
    · rw [same]
      exact ⟨by simp, by simp, by simp⟩
  stopped := Iff.rfl

theorem Invariant.updated (inv : Invariant s) (active : s.deactivated = false) (work : Update) :
    Steady s (work.step config false outcome s).2 ∧
      (work.step config false outcome s).2.calls = s.calls ∧
      (work.step config false outcome s).2.waitForActivate = s.waitForActivate ∧
      Orderly (work.step config false outcome s).2.trace := by
  have unsent := (inv.recorded active).1
  by_cases sends : work.stage = .send
  · rw [update_sends false sends]
    exact ⟨(Steady.refl s).mark ⟨by simp, by simp, by simp⟩, rfl, rfl, unsent, inv.orderly⟩
  · obtain ⟨marks, processId, made, every⟩ :=
      @update_marks config s outcome work false sends
    rw [made]
    refine ⟨steady_marks every, rfl, rfl, ?_⟩
    rw [inv.present active] at every
    exact orderly_marks inv.orderly every fun _ => unsent

theorem Invariant.leaves (inv : Invariant s) (found : s.calls[id]? = some before)
    (activating : before.activating = true) (steady : Steady s after)
    (calls : after.calls = s.calls) (ends : after.waitForActivate = false)
    (orderly : Orderly after.trace) : Invariant (after.moved id .returned) := by
  refine inv.move found steady calls ?_ ?_ nofun nofun nofun nofun nofun orderly
  · change (after.calls.set id .returned).countP Call.activating = _
    have count := count_replaced Call.activating Call.returned found
    have total := inv.activating
    rw [(inv.active found activating).1] at total
    rw [activating] at count
    rw [calls, ends]
    simp only [Call.activating, Bool.false_eq_true, if_false, if_true] at count total ⊢
    omega
  · rw [ends]
    exact nofun

theorem Invariant.activate (inv : Invariant s) {stage : Activation}
    (found : s.calls[id]? = some (.activate stage))
    (careful : (Event.run id outcome).careful s = true) :
    Invariant ((stage.step config outcome s).2.moved id (stage.step config outcome s).1) := by
  cases stage with
  | entry =>
      simp only [Event.careful, found, Option.all_some, Call.careful] at careful
      simp only [Activation.step]
      by_cases deactivated : s.deactivated = true
      · rw [if_pos deactivated]
        exact inv.aside found (.refl s) rfl rfl rfl nofun nofun nofun nofun nofun inv.orderly
      · rw [if_neg deactivated]
        have active : s.deactivated = false := by simpa using deactivated
        by_cases done : s.activateOneOffDone = true
        · rw [if_pos done]
          exact inv.aside found (Steady.refl s).activateFactories rfl rfl rfl nofun nofun nofun
            nofun nofun ⟨(inv.recorded active).2.1, inv.orderly⟩
        · rw [if_neg done]
          have free : s.waitForActivate = false := by simpa [active, done] using careful
          have none := inv.activating
          rw [free] at none
          have waiting : Steady s { s with waitForActivate := true } := { Steady.refl s with }
          -- One more call is in the one-off initialisations, and there was none.
          have one : (s.calls.set id (.activate (.proxy ⟨s.locatorInfo,
              !config.noConfig && config.registerProcess, .registry⟩))).countP
                Call.activating = 1 := by
            have count := count_replaced Call.activating
              (.activate (.proxy ⟨s.locatorInfo, !config.noConfig && config.registerProcess,
                .registry⟩)) found
            simp only [Call.activating, Bool.false_eq_true, if_false, if_true] at count none
            omega
          split
          · exact inv.move found waiting rfl one (fun _ => active) nofun nofun nofun nofun nofun
              inv.orderly
          · exact inv.move found waiting.useInstance rfl one (fun _ => active) nofun nofun nofun
              nofun nofun ⟨inv.present active, inv.orderly⟩
  | proxy work =>
      have active := (inv.active found rfl).2
      simp only [Activation.step, active, Bool.false_eq_true, if_false]
      exact inv.aside found (Steady.refl s).useInstance rfl rfl rfl nofun nofun nofun nofun nofun
        (orderly_use inv.orderly (inv.present active))
  | update work =>
      have active := (inv.active found rfl).2
      obtain ⟨steady, calls, waiting, orderly⟩ :=
        @Invariant.updated config s outcome inv active work
      simp only [Activation.step]
      generalize work.step config false outcome s = result at steady calls waiting orderly
      obtain ⟨progress, after⟩ := result
      cases progress with
      | goes next =>
          exact inv.aside found steady calls waiting rfl nofun nofun nofun nofun nofun orderly
      | returns =>
          exact inv.aside found steady calls waiting rfl nofun nofun nofun nofun nofun orderly
      | throws =>
          exact inv.aside found steady calls waiting rfl nofun nofun nofun nofun nofun orderly
  | complete =>
      have active := (inv.active found rfl).2
      have asserted : Steady s (s.mark (.asserted !s.deactivated)) :=
        (Steady.refl s).mark ⟨by simp, by simp, by simp⟩
      have done : Steady s { s.mark (.asserted !s.deactivated) with
          waitForActivate := false, activateOneOffDone := true } := { asserted with }
      refine inv.leaves found rfl done.activateFactories rfl rfl ⟨?_, ?_, inv.orderly⟩
      · change Mark.deactivated ∉ .asserted (!s.deactivated) :: s.trace
        simpa using (inv.recorded active).2.1
      · change (!s.deactivated) = true
        rw [active]
        rfl
  | abandon =>
      have ended : Steady s { s with waitForActivate := false } := { Steady.refl s with }
      exact inv.leaves found rfl ended rfl rfl inv.orderly

theorem Invariant.alone (inv : Invariant s) (found : s.calls[id]? = some before)
    (closing : before.closing = true) :
    s.deactivated = true ∧
      ∀ call ∈ s.calls.set id next, call = next ∨ call.closing = false := by
  have positive : 0 < s.calls.countP Call.closing :=
    List.countP_pos_iff.mpr ⟨before, List.mem_of_getElem? found, closing⟩
  have bound := inv.closing
  have deactivated : s.deactivated = true := by
    cases here : s.deactivated with
    | true => rfl
    | false =>
        rw [here] at bound
        simp only [Bool.false_eq_true, if_false] at bound
        omega
  refine ⟨deactivated, ?_⟩
  rw [deactivated] at bound
  have count := count_replaced Call.closing Call.returned found
  rw [closing] at count
  simp only [Call.closing, Bool.false_eq_true, if_false, if_true] at count bound
  have others : (s.calls.set id .returned).countP Call.closing = 0 := by omega
  intro call inside
  obtain ⟨index, looked⟩ := List.getElem?_of_mem inside
  obtain ⟨-, same⟩ | ⟨apart, there⟩ := get_set looked
  · exact .inl same
  · right
    have kept : (s.calls.set id .returned)[index]? = some call := by
      rw [List.getElem?_set_ne (Ne.symm apart)]
      exact there
    simpa using List.countP_eq_zero.mp others call (List.mem_of_getElem? kept)

theorem not_updating {call : Call} (open_ : call.closing = false) : call.updating = false := by
  cases here : call.updating with
  | false => rfl
  | true =>
      rw [updating_closing here] at open_
      cases open_

theorem not_unsent {call : Call} (open_ : call.closing = false) : call.unsent = false := by
  cases here : call.unsent with
  | false => rfl
  | true =>
      rw [updating_closing (unsent_updating here)] at open_
      cases open_

variable {nested : Bool}

theorem Invariant.begins (inv : Invariant s) {stage : Deactivation}
    (found : s.calls[id]? = some (.deactivate nested stage))
    (entering : stage = .entry ∨ stage = .waiting) (active : s.deactivated = false)
    (free : s.waitForActivate = false) :
    Invariant ((s.beginDeactivation nested).2.moved id (s.beginDeactivation nested).1) := by
  have present := inv.present active
  obtain ⟨unsent, undone, unerased⟩ := inv.recorded active
  have outside : (Call.deactivate nested stage).closing = false := by
    obtain same | same := entering <;> rw [same] <;> rfl
  -- What the section adds to the trace, with an entry of the router or without.
  have marks : ∃ marks, (s.beginDeactivation nested).2.trace = marks ++ s.trace ∧
      Mark.updateSent true ∉ marks ∧ Orderly (marks ++ s.trace) := by
    cases router : s.routerInfo with
    | true =>
        refine ⟨[.deactivated, .instanceUsed s.gone, .routerErased, .instanceUsed s.gone], ?_,
          by simp, trivial, present, ?_, present, inv.orderly⟩
        · simp [State.beginDeactivation, State.useInstance, State.mark, router]
        · change Mark.routerErased ∉ .instanceUsed s.gone :: s.trace
          simpa using unerased
    | false =>
        refine ⟨[.deactivated, .instanceUsed s.gone], ?_, by simp, trivial, present, inv.orderly⟩
        simp [State.beginDeactivation, State.useInstance, State.mark, router]
  obtain ⟨marks, traced, noUpdate, orderly⟩ := marks
  have calls : (s.beginDeactivation nested).2.calls = s.calls := by
    simp only [State.beginDeactivation]
    split <;> rfl
  have factories : (s.beginDeactivation nested).2.factories = s.factories := by
    simp only [State.beginDeactivation]
    split <;> rfl
  have gone : (s.beginDeactivation nested).2.gone = s.gone := by
    simp only [State.beginDeactivation]
    split <;> rfl
  have waiting : (s.beginDeactivation nested).2.waitForActivate = s.waitForActivate := by
    simp only [State.beginDeactivation]
    split <;> rfl
  have unstopped : ¬ s.isStopped := by
    intro stopped
    rw [(inv.stopped stopped).1] at active
    cases active
  have mem {call : Call} (inside : call ∈ ((s.beginDeactivation nested).2.moved id
      (s.beginDeactivation nested).1).calls) :
      call = (s.beginDeactivation nested).1 ∨ call ∈ s.calls := by
    rw [← calls]
    exact mem_moved inside
  constructor
  · change ((s.beginDeactivation nested).2.calls.set id _).countP Call.activating =
      if (s.beginDeactivation nested).2.waitForActivate then 1 else 0
    have count := count_replaced Call.activating (s.beginDeactivation nested).1 found
    have total := inv.activating
    rw [calls, waiting, ← total]
    simp only [State.beginDeactivation, Call.activating, Bool.false_eq_true, if_false] at count ⊢
    omega
  · intro activating
    change (s.beginDeactivation nested).2.waitForActivate = true at activating
    rw [waiting, free] at activating
    cases activating
  · change ((s.beginDeactivation nested).2.calls.set id _).countP Call.closing ≤ 1
    have count := count_replaced Call.closing (s.beginDeactivation nested).1 found
    have bound := inv.closing
    rw [active] at bound
    rw [outside] at count
    rw [calls]
    simp only [State.beginDeactivation, Call.closing, Bool.false_eq_true, if_false, if_true]
      at count bound ⊢
    omega
  · intro call _ _
    change Mark.updateSent true ∉ (s.beginDeactivation nested).2.trace
    rw [traced, List.mem_append]
    exact not_or.mpr ⟨noUpdate, unsent⟩
  · intro still
    cases still
  · intro null
    change (s.beginDeactivation nested).2.gone = true at null
    rw [gone, present] at null
    cases null
  · intro stopped
    change ∃ state ∈ (s.beginDeactivation nested).2.factories, _ at stopped
    rw [factories] at stopped
    exact absurd stopped unstopped
  · intro _ _ _
    rfl
  · intro _
    rfl
  · intro copies inside some
    obtain same | old := mem inside
    · cases same
    · exact absurd (inv.cleanUp copies old some) unstopped
  · change Orderly (s.beginDeactivation nested).2.trace
    rw [traced]
    exact orderly

variable {factories : List Nat}

theorem Invariant.clears (inv : Invariant s)
    (found : s.calls[id]? = some (.deactivate nested (.update factories work)))
    (sends : work.stage = .send) :
    Invariant ((s.mark (.updateSent true)).moved id
      (.deactivate nested (.update factories { work with stage := .reply }))) := by
  obtain ⟨deactivated, others⟩ := @Invariant.alone s id _
    (.deactivate nested (.update factories { work with stage := .reply })) inv found rfl
  have known := List.mem_of_getElem? found
  have pending : Call.unsent (.deactivate nested (.update factories work)) = true := by
    simp [Call.unsent, sends]
  have mem {call : Call} (inside : call ∈ ((s.mark (.updateSent true)).moved id
      (.deactivate nested (.update factories { work with stage := .reply }))).calls) :
      call = .deactivate nested (.update factories { work with stage := .reply }) ∨
        call ∈ s.calls := mem_moved inside
  have busy : ∀ none : ∀ call ∈ s.calls, call.updating = false, False := by
    intro none
    have quiet := none _ known
    cases quiet
  constructor
  · have count := count_replaced Call.activating
      (.deactivate nested (.update factories { work with stage := .reply })) found
    change (s.calls.set id _).countP Call.activating = _
    have total := inv.activating
    change _ = if s.waitForActivate then 1 else 0
    simp only [Call.activating, Bool.false_eq_true, if_false] at count
    omega
  · exact inv.apart
  · have count := count_replaced Call.closing
      (.deactivate nested (.update factories { work with stage := .reply })) found
    change (s.calls.set id _).countP Call.closing ≤ if s.deactivated then 1 else 0
    have bound := inv.closing
    simp only [Call.closing, if_true] at count
    omega
  · intro call inside now
    obtain same | other := others call inside
    · rw [same] at now
      simp [Call.unsent] at now
    · rw [not_unsent other] at now
      cases now
  · intro active
    change s.deactivated = false at active
    rw [deactivated] at active
    cases active
  · intro gone
    exact (busy (inv.gone gone).2).elim
  · intro stopped
    exact (busy (inv.stopped stopped).2).elim
  · intro _ _ _
    exact deactivated
  · intro _
    exact deactivated
  · intro copies inside some
    obtain same | old := mem inside
    · cases same
    · exact inv.cleanUp copies old some
  · exact ⟨inv.unsent _ known pending, inv.orderly⟩

theorem Invariant.dismantles (inv : Invariant s)
    (found : s.calls[id]? = some (.deactivate nested (.dismantle factories))) :
    Invariant ((s.setFactories factories fun _ => .closed).moved id (afterDeactivate nested)) := by
  obtain ⟨deactivated, others⟩ := @Invariant.alone s id _ (afterDeactivate nested) inv found rfl
  have roles : (afterDeactivate nested).activating = false ∧
      (afterDeactivate nested).closing = false ∧ (afterDeactivate nested).waited = false := by
    cases nested <;> exact ⟨rfl, rfl, rfl⟩
  have open_ : ∀ call ∈ s.calls.set id (afterDeactivate nested), call.closing = false := by
    intro call inside
    obtain same | other := others call inside
    · rw [same]
      exact roles.2.1
    · exact other
  have moved {call : Call} (inside : call ∈ s.calls.set id (afterDeactivate nested)) :
      call = afterDeactivate nested ∨ call ∈ s.calls := by
    obtain old | new := List.mem_or_eq_of_mem_set inside
    · exact .inr old
    · exact .inl new
  constructor
  · change (s.calls.set id _).countP Call.activating = if s.waitForActivate then 1 else 0
    have count := count_replaced Call.activating (afterDeactivate nested) found
    rw [roles.1] at count
    rw [← inv.activating]
    simp only [Call.activating, Bool.false_eq_true, if_false] at count
    omega
  · exact inv.apart
  · change (s.calls.set id _).countP Call.closing ≤ _
    have none : (s.calls.set id (afterDeactivate nested)).countP Call.closing = 0 :=
      List.countP_eq_zero.mpr fun call inside => by simp [open_ call inside]
    rw [none]
    exact Nat.zero_le _
  · intro call inside now
    rw [not_unsent (open_ call inside)] at now
    cases now
  · exact inv.recorded
  · intro _
    exact ⟨deactivated, fun call inside => not_updating (open_ call inside)⟩
  · intro _
    exact ⟨deactivated, fun call inside => not_updating (open_ call inside)⟩
  · intro _ _ _
    exact deactivated
  · intro _
    exact deactivated
  · intro copies inside some
    obtain same | old := moved inside
    · cases nested <;> cases same
    · obtain ⟨state, there, stopped⟩ := inv.cleanUp copies old some
      obtain ⟨index, bound, here⟩ := List.getElem_of_mem there
      refine ⟨_, List.mem_mapIdx.mpr ⟨index, bound, rfl⟩, ?_⟩
      split
      · rfl
      · rw [here]
        exact stopped
  · exact inv.orderly

theorem stopped_of_finished (finished : s.allFinished factories = true) (some : factories ≠ []) :
    s.isStopped := by
  obtain ⟨index, rest, rfl⟩ := List.exists_cons_of_ne_nil some
  have first : s.factories[index]? = Option.some .finished := by
    have every := List.all_eq_true.mp finished index List.mem_cons_self
    simpa using every
  exact ⟨.finished, List.mem_of_getElem? first, rfl⟩

theorem Invariant.deactivate (inv : Invariant s) {stage : Deactivation}
    (found : s.calls[id]? = some (.deactivate nested stage))
    (careful : (Event.run id outcome).careful s = true)
    (stepped : stage.step config outcome nested s = some (next, after)) :
    Invariant (after.moved id next) := by
  cases stage with
  | entry =>
      simp only [Deactivation.step] at stepped
      split at stepped
      · cases stepped
        cases nested <;>
          exact inv.aside found (.refl s) rfl rfl rfl nofun nofun nofun nofun nofun inv.orderly
      · next active =>
          split at stepped
          · cases stepped
            exact inv.aside found (.refl s) rfl rfl rfl nofun nofun nofun nofun nofun inv.orderly
          · next free =>
              cases stepped
              exact inv.begins found (.inl rfl) (by simpa using active) (by simpa using free)
  | waiting =>
      have active : s.deactivated = false := by
        simpa [Event.careful, found, Call.careful] using careful
      simp only [Deactivation.step] at stepped
      split at stepped
      · cases stepped
      · next free =>
          cases stepped
          exact inv.begins found (.inr rfl) active (by simpa using free)
  | update factories work =>
      have present : s.gone = false := by
        cases gone : s.gone with
        | false => rfl
        | true => cases (inv.gone gone).2 _ (List.mem_of_getElem? found)
      simp only [Deactivation.step] at stepped
      by_cases sends : work.stage = .send
      · rw [update_sends true sends] at stepped
        cases stepped
        exact inv.clears found sends
      · obtain ⟨marks, processId, made, every⟩ :=
          @update_marks config s outcome work true sends
        have goes {following : Update}
            (result : (work.step config true outcome s).1 = .goes following) :
            Call.unsent (.deactivate nested (.update factories following)) = true →
              Call.unsent (.deactivate nested (.update factories work)) = true := by
          intro unsent
          simp only [Call.unsent, Bool.or_eq_true, decide_eq_true_eq] at unsent ⊢
          exact .inl (update_goes result unsent)
        generalize work.step config true outcome s = result at stepped made goes
        obtain ⟨progress, reached⟩ := result
        dsimp only at made
        have steady : Steady s reached := by
          rw [made]
          exact steady_marks every
        have orderly : Orderly reached.trace := by
          rw [made]
          rw [present] at every
          exact orderly_marks inv.orderly every nofun
        have calls : reached.calls = s.calls := by rw [made]
        have waiting : reached.waitForActivate = s.waitForActivate := by rw [made]
        cases progress with
        | goes following =>
            cases stepped
            exact inv.aside found steady calls waiting rfl (fun _ => rfl) (fun _ => rfl)
              (goes rfl) nofun nofun orderly
        | returns =>
            cases stepped
            exact inv.aside found steady calls waiting rfl (fun _ => rfl) nofun nofun nofun nofun
              orderly
        | throws =>
            cases stepped
            exact inv.aside found steady calls waiting rfl (fun _ => rfl) nofun nofun nofun nofun
              orderly
  | dismantle factories =>
      cases stepped
      exact inv.dismantles found

theorem Invariant.waits (inv : Invariant s) {stage : Wait}
    (found : s.calls[id]? = some (.waitForDeactivate nested stage))
    (stepped : stage.step nested s = some (next, after)) : Invariant (after.moved id next) := by
  have quiet {call : Call} (activating : call.activating = false)
      (closing : call.closing = false)
      (waited : call.waited = true → s.deactivated = true)
      (cleanUp : ∀ factories, call = .cleanUp factories → factories ≠ [] → s.isStopped) :
      Invariant (s.moved id call) := by
    refine inv.aside found (.refl s) rfl rfl activating ?_ ?_ ?_ waited cleanUp inv.orderly
    · rw [closing]
      exact nofun
    · rw [not_updating closing]
      exact nofun
    · rw [not_unsent closing]
      exact nofun
  cases stage with
  | entry =>
      simp only [Wait.step] at stepped
      split at stepped
      · next destroyed =>
          cases stepped
          cases nested with
          | false => exact quiet rfl rfl nofun nofun
          | true =>
              refine quiet rfl rfl (fun _ => inv.destroyed destroyed) ?_
              intro factories same some
              cases same
              exact absurd rfl some
      · split at stepped
        · next done =>
            cases stepped
            exact quiet rfl rfl (fun _ => done.1) nofun
        · cases stepped
          exact quiet rfl rfl nofun nofun
  | waiting =>
      simp only [Wait.step] at stepped
      split at stepped
      · next done =>
          cases stepped
          exact quiet rfl rfl (fun _ => done.1) nofun
      · cases stepped
  | finishing factories =>
      have deactivated := inv.waited _ (List.mem_of_getElem? found) rfl
      simp only [Wait.step] at stepped
      split at stepped
      · next finished =>
          cases stepped
          cases nested with
          | false => exact quiet rfl rfl nofun nofun
          | true =>
              refine quiet rfl rfl (fun _ => deactivated) ?_
              intro copies same some
              cases same
              exact stopped_of_finished finished some
      · cases stepped

theorem Invariant.cleansUp (inv : Invariant s) (found : s.calls[id]? = some (.cleanUp factories))
    (careful : (Event.run id outcome).careful s = true)
    (stepped : Call.step config outcome s (.cleanUp factories) = some (next, after)) :
    Invariant (after.moved id next) := by
  have known := List.mem_of_getElem? found
  have deactivated := inv.waited _ known rfl
  have still : ∀ call ∈ s.calls, call.updating = false := by
    by_cases none : factories = []
    · rw [none] at found
      simpa [Event.careful, found, Call.careful] using careful
    · exact (inv.stopped (inv.cleanUp factories known none)).2
  cases stepped
  have moved {call : Call} (inside : call ∈ (s.calls.set id .returned)) :
      call = .returned ∨ call ∈ s.calls := by
    obtain old | new := List.mem_or_eq_of_mem_set inside
    · exact .inr old
    · exact .inl new
  have quiet : ∀ call ∈ s.calls.set id .returned, call.updating = false := by
    intro call inside
    obtain same | old := moved inside
    · rw [same]
      rfl
    · exact still call old
  constructor
  · change (s.calls.set id .returned).countP Call.activating = if s.waitForActivate then 1 else 0
    have count := count_replaced Call.activating Call.returned found
    rw [← inv.activating]
    simp only [Call.activating, Bool.false_eq_true, if_false] at count
    omega
  · exact inv.apart
  · change (s.calls.set id .returned).countP Call.closing ≤ if s.deactivated then 1 else 0
    have count := count_replaced Call.closing Call.returned found
    have bound := inv.closing
    simp only [Call.closing, Bool.false_eq_true, if_false] at count
    omega
  · intro call inside now
    obtain same | old := moved inside
    · rw [same] at now
      cases now
    · exact inv.unsent call old now
  · exact inv.recorded
  · intro _
    exact ⟨deactivated, quiet⟩
  · intro stopped
    exact ⟨deactivated, quiet⟩
  · intro _ _ _
    exact deactivated
  · intro _
    exact deactivated
  · intro copies inside some
    obtain same | old := moved inside
    · cases same
    · exact inv.cleanUp copies old some
  · exact inv.orderly

theorem Invariant.run (inv : Invariant s) {call : Call} (found : s.calls[id]? = some call)
    (careful : (Event.run id outcome).careful s = true)
    (stepped : call.step config outcome s = some (next, after)) :
    Invariant (after.moved id next) := by
  cases call with
  | activate stage =>
      have same := Option.some.inj stepped
      have made := @Invariant.activate config s id outcome inv stage found careful
      rw [same] at made
      exact made
  | deactivate nested stage => exact inv.deactivate found careful stepped
  | waitForDeactivate nested stage => exact inv.waits found stepped
  | destroy =>
      simp only [Call.step] at stepped
      split at stepped
      · cases stepped
      · split at stepped
        · cases stepped
          exact inv.aside found (.refl s) rfl rfl rfl nofun nofun nofun nofun nofun inv.orderly
        · cases stepped
          have destroying : Steady s { s with destroying := true } := { Steady.refl s with }
          exact inv.aside found destroying rfl rfl rfl nofun nofun nofun nofun nofun inv.orderly
  | cleanUp factories => exact inv.cleansUp found careful stepped
  | returned => cases stepped

theorem Invariant.call (inv : Invariant s) {call : Call} (activating : call.activating = false)
    (closing : call.closing = false) (waited : call.waited = false) :
    Invariant (s.call call) := by
  have mem {other : Call} (inside : other ∈ (s.call call).calls) :
      other ∈ s.calls ∨ other = call := by
    obtain old | new := List.mem_append.mp inside
    · exact .inl old
    · exact .inr (List.mem_singleton.mp new)
  have same : Steady s (s.call call) := { Steady.refl s with }
  refine inv.carry same ?_ inv.apart ?_ ?_ ?_ ?_ ?_ inv.orderly
  · change (s.calls ++ [call]).countP Call.activating = _
    rw [List.countP_append, List.countP_singleton, activating]
    exact inv.activating
  · change (s.calls ++ [call]).countP Call.closing ≤ _
    rw [List.countP_append, List.countP_singleton, closing]
    exact Nat.le_refl _
  · intro other inside now
    obtain old | new := mem inside
    · exact ⟨other, old, now⟩
    · rw [new, not_updating closing] at now
      cases now
  · intro other inside now
    obtain old | new := mem inside
    · exact ⟨other, old, now⟩
    · rw [new, not_unsent closing] at now
      cases now
  · intro other inside now
    obtain old | new := mem inside
    · exact inv.waited other old now
    · rw [new, waited] at now
      cases now
  · intro factories inside some
    obtain old | new := mem inside
    · exact inv.cleanUp factories old some
    · rw [← new] at waited
      cases waited

theorem Invariant.elsewhere (inv : Invariant s) (steady : Steady s after)
    (calls : after.calls = s.calls) (waiting : after.waitForActivate = s.waitForActivate)
    (trace : after.trace = s.trace) : Invariant after := by
  refine inv.carry steady ?_ ?_ ?_ ?_ ?_ ?_ ?_ ?_
  · rw [calls, waiting]
    exact inv.activating
  · rw [waiting]
    exact inv.apart
  · exact Nat.le_of_eq (congrArg (List.countP Call.closing) calls)
  · rw [calls]
    exact fun call inside now => ⟨call, inside, now⟩
  · rw [calls]
    exact fun call inside now => ⟨call, inside, now⟩
  · rw [calls]
    exact inv.waited
  · rw [calls]
    exact inv.cleanUp
  · rw [trace]
    exact inv.orderly

theorem Invariant.step (inv : Invariant s) {event : Event} (careful : event.careful s = true)
    (stepped : Adapters.step config event s = some after) : Invariant after := by
  cases event with
  | activate =>
      cases stepped
      exact inv.call rfl rfl rfl
  | deactivate =>
      cases stepped
      exact inv.call rfl rfl rfl
  | waitForDeactivate =>
      cases stepped
      exact inv.call rfl rfl rfl
  | destroy =>
      cases stepped
      exact inv.call rfl rfl rfl
  | run id outcome =>
      simp only [Adapters.step, Option.bind_eq_bind, Option.bind_eq_some_iff] at stepped
      obtain ⟨call, found, ⟨next, reached⟩, took, same⟩ := stepped
      cases same
      exact inv.run found careful took
  | hold =>
      cases stepped
      split
      · exact inv
      · have held : Steady s (s.setFactories s.incoming FactoryState.hold) :=
          { Steady.refl s with
            stopped := is_stopped_set _ fun state => by cases state <;> rfl }
        exact inv.elsewhere held rfl rfl rfl
  | incDirectCount =>
      cases stepped
      split
      · exact inv
      · exact inv.elsewhere { Steady.refl s with } rfl rfl rfl
  | decDirectCount =>
      simp only [Adapters.step] at stepped
      split at stepped
      · cases stepped
        exact inv.elsewhere { Steady.refl s with } rfl rfl rfl
      · cases stepped
  | finished factory =>
      simp only [Adapters.step] at stepped
      split at stepped
      · next closed =>
          cases stepped
          have stopped : s.isStopped := ⟨.closed, List.mem_of_getElem? closed, rfl⟩
          have still : State.isStopped { s with factories := s.factories.set factory .finished } :=
            ⟨.finished, List.mem_set (List.getElem?_eq_some_iff.mp closed).1 _, rfl⟩
          have finished : Steady s { s with factories := s.factories.set factory .finished } :=
            { Steady.refl s with stopped := ⟨fun _ => stopped, fun _ => still⟩ }
          exact inv.elsewhere finished rfl rfl rfl
      · cases stepped

/-- Every careful run leaves an orderly trace. -/
theorem life_cycle_orderly (config : Config) (locatorInfo routerInfo : Bool) (factories : Nat)
    (s : State)
    (reached : Reach (step config) (fun event s => event.careful s = true)
      (start locatorInfo routerInfo factories) s) : Orderly s.trace := by
  have inv : Invariant s :=
    reached.invariant (start_invariant locatorInfo routerInfo factories)
      fun _ _ _ inv careful stepped => inv.step careful stepped
  exact inv.orderly

def namedConfig : Config := ⟨false, true, false, false⟩

/-- One call of `activate` up to its return, then one of `deactivate`. -/
def activatedAndDeactivated : List Event :=
  [.activate, .run 0 .success, .run 0 .success, .run 0 .success, .run 0 .success,
    .run 0 .success, .run 0 .success, .deactivate, .run 1 .success, .run 1 .success,
    .run 1 .success, .run 1 .success, .run 1 .success]

theorem activated_and_deactivated :
    ∃ s, runAll (checked (step namedConfig) fun event s => event.careful s)
        activatedAndDeactivated (start true true 1) = some s ∧ Orderly s.trace := by
  have possible : (runAll (checked (step namedConfig) fun event s => event.careful s)
      activatedAndDeactivated (start true true 1)).isSome = true := by decide
  obtain ⟨s, ran⟩ := Option.isSome_iff_exists.mp possible
  exact ⟨s, ran, life_cycle_orderly namedConfig true true 1 s
    (reach_of_checked (fun _ _ passed => passed) ran)⟩

instance decidableOrderly : (trace : List Mark) → Decidable (Orderly trace)
  | [] => isTrue trivial
  | mark :: earlier =>
      have := decidableOrderly earlier
      inferInstanceAs (Decidable (mark.follows earlier ∧ Orderly earlier))

/-- The first activation returns and a `deactivate` follows while the second is still in its
initialisations. -/
def activatedTwice : List Event :=
  [.activate, .activate, .run 0 .nothing, .run 1 .nothing, .run 0 .nothing, .run 0 .nothing,
    .run 0 .nothing, .run 1 .nothing, .run 1 .nothing, .deactivate, .run 2 .nothing,
    .run 1 .nothing]

/-- Two calls of `deactivate` wait for an activation. -/
def deactivatedTwice : List Event :=
  [.activate, .run 0 .success, .deactivate, .deactivate, .run 1 .success, .run 2 .success,
    .run 0 .success, .run 0 .failure, .run 0 .success, .run 1 .success, .run 2 .success,
    .run 1 .success, .run 1 .success, .run 2 .success, .run 2 .success]

/-- `destroy` is done before the update of a `deactivate` is. -/
def destroyedEarly : List Event :=
  [.deactivate, .run 0 .success, .run 0 .success, .run 0 .success, .destroy, .run 1 .success,
    .run 1 .success, .run 1 .success, .run 1 .success, .run 1 .success, .run 0 .success]

theorem reach_traced {factories : Nat} {locatorInfo routerInfo : Bool} {events : List Event}
    {trace : List Mark}
    (ran : (runAll (step config) events (start locatorInfo routerInfo factories)).map
      State.trace = some trace) :
    ∃ s, Reach (step config) (fun _ _ => True) (start locatorInfo routerInfo factories) s ∧
      s.trace = trace := by
  obtain ⟨s, reached, same⟩ := Option.map_eq_some_iff.mp ran
  exact ⟨s, reach_of_run reached fun _ _ _ => trivial, same⟩

theorem life_cycles_disorderly :
    (∃ s, Reach (step namedConfig) (fun _ _ => True) (start false false 1) s ∧
      .asserted false ∈ s.trace ∧ ¬ Orderly s.trace) ∧
    (∃ s, Reach (step namedConfig) (fun _ _ => True) (start true true 1) s ∧
      s.trace.count (.updateSent true) = 2 ∧ s.trace.count .routerErased = 2 ∧
        ¬ Orderly s.trace) ∧
    (∃ s, Reach (step namedConfig) (fun _ _ => True) (start true true 0) s ∧
      .instanceUsed true ∈ s.trace ∧ ¬ Orderly s.trace) := by
  refine ⟨?_, ?_, ?_⟩
  · obtain ⟨s, reached, trace⟩ := @reach_traced namedConfig 1 false false activatedTwice
      [.factoriesActivated, .asserted false, .deactivated, .instanceUsed false,
        .instanceUsed false, .factoriesActivated, .asserted true, .instanceUsed false,
        .instanceUsed false, .instanceUsed false] (by decide)
    refine ⟨s, reached, ?_⟩
    rw [trace]
    decide
  · obtain ⟨s, reached, trace⟩ := @reach_traced namedConfig 1 true true deactivatedTwice
      [.updateSent true, .updateSent true, .deactivated, .instanceUsed false, .routerErased,
        .instanceUsed false, .deactivated, .instanceUsed false, .routerErased,
        .instanceUsed false, .instanceUsed false, .instanceUsed false] (by decide)
    refine ⟨s, reached, ?_⟩
    rw [trace]
    decide
  · obtain ⟨s, reached, trace⟩ := @reach_traced namedConfig 0 true true destroyedEarly
      [.instanceUsed true, .updateCompleted true, .updateSent true, .deactivated,
        .instanceUsed false, .routerErased, .instanceUsed false] (by decide)
    refine ⟨s, reached, ?_⟩
    rw [trace]
    decide

end IceTouch.Adapters
