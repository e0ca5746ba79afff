import IceTouch.Streams.Selector

/-!
# What a wrapper keeps of readiness

One lemma for each operation of a wrapper, on the operations that are registered: the stream is
scheduled, or the operation is recorded as ready, or it is accounted for outside of the wrapper.
-/

namespace IceTouch.Streams

def Wrapper.finds (wrapper : Wrapper) (answers : Answers) (stream : Stream) : Bool :=
  has wrapper.registered stream.operation && wrapper.native.finds answers stream

/-- If both streams are found ready, both operations are recorded as ready or neither is, and
then both are disabled or neither is. -/
def Wrapper.careful (wrapper : Wrapper) (answers : Answers) : Bool :=
  !(wrapper.finds answers .read && wrapper.finds answers .write) ||
    (has wrapper.ready operationRead == has wrapper.ready operationWrite &&
      (has wrapper.ready operationRead ||
        has wrapper.disabled operationRead == has wrapper.disabled operationWrite))

/-- The wrapper of a handler, given whether the handler is in the changes, which operations are
accounted for elsewhere, and whether it is in the ready handlers. -/
structure Wrapper.Sound (wrapper : Wrapper) (changed : Prop) (handed : Stream → Prop)
    (queued : Prop) : Prop where
  opened : wrapper.native.Open
  connected : has wrapper.registered operationConnect = false
  unconnected : has wrapper.ready operationConnect = false
  within : ∀ stream : Stream, has wrapper.ready stream.operation = true →
    has wrapper.registered stream.operation = true
  finished : wrapper.finish = true → wrapper.registered = 0
  kept : ∀ stream : Stream, has wrapper.registered stream.operation = true →
    (wrapper.native.stream stream).scheduled = true ∨
      has wrapper.ready stream.operation = true ∨ changed ∨ handed stream
  queued : ∀ stream : Stream, has wrapper.ready stream.operation = true →
    has wrapper.disabled stream.operation = false → queued

namespace Wrapper

variable {wrapper : Wrapper} {changed queued : Prop} {handed : Stream → Prop}
  {operation : SocketOperation} {error : Bool} {answers : Answers}

theorem Sound.mono {changed' queued' : Prop} {handed' : Stream → Prop}
    (sound : wrapper.Sound changed handed queued) (change : changed → changed')
    (hand : ∀ stream : Stream, has wrapper.registered stream.operation = true → handed stream →
      changed' ∨ handed' stream)
    (queue : queued → queued') : wrapper.Sound changed' handed' queued' where
  opened := sound.opened
  connected := sound.connected
  unconnected := sound.unconnected
  within := sound.within
  finished := sound.finished
  kept stream wanted := by
    obtain scheduled | ready | inside | given := sound.kept stream wanted
    · exact .inl scheduled
    · exact .inr (.inl ready)
    · exact .inr (.inr (.inl (change inside)))
    · exact .inr (.inr (hand stream wanted given))
  queued stream ready enabled := queue (sound.queued stream ready enabled)

def Uniform (wrapper : Wrapper) (operation : SocketOperation) : Prop :=
  ∀ stream other : Stream, has (wrapper.registered &&& operation) stream.operation = true →
    has (wrapper.registered &&& operation) other.operation = true →
    has wrapper.ready stream.operation = has wrapper.ready other.operation ∧
      (has wrapper.ready stream.operation = false →
        has wrapper.disabled stream.operation = has wrapper.disabled other.operation)

theorem meets_stream {set : SocketOperation}
    (connected : has operation operationConnect = false) (meets : has set operation = true) :
    ∃ stream : Stream, has set stream.operation = true ∧ has operation stream.operation = true := by
  rw [has_split set connected, Bool.or_eq_true, Bool.and_eq_true, Bool.and_eq_true] at meets
  cases meets with
  | inl read => exact ⟨.read, read⟩
  | inr write => exact ⟨.write, write⟩

theorem and_connected (connected : has wrapper.registered operationConnect = false) :
    has (wrapper.registered &&& operation) operationConnect = false := by
  generalize wrapper.registered = registered at connected ⊢
  revert registered operation
  decide

theorem Sound.leaves (sound : wrapper.Sound changed
      (fun stream => has operation stream.operation = true ∨ handed stream) queued)
    {stream : Stream} (wanted : has wrapper.registered stream.operation = true)
    (apart : has operation stream.operation = false) :
    ((wrapper.native.unregisterFromRunLoop operation error).2.stream stream).scheduled = true ∨
      has wrapper.ready stream.operation = true ∨ changed ∨ handed stream := by
  rw [Transceiver.unregister_stream sound.opened error stream, apart,
    StreamState.unregister_unasked]
  obtain scheduled | ready | inside | taken | given := sound.kept stream wanted
  · exact .inl scheduled
  · exact .inr (.inl ready)
  · exact .inr (.inr (.inl inside))
  · rw [apart] at taken
    cases taken
  · exact .inr (.inr (.inr given))

theorem Sound.makeReady (sound : wrapper.Sound changed
      (fun stream => has operation stream.operation = true ∨ handed stream) queued)
    (uniform : wrapper.Uniform operation) :
    (wrapper.makeReady operation error).1.Sound changed handed
      (queued ∨ (wrapper.makeReady operation error).2 = true) := by
  have same := @Transceiver.unregister_operation wrapper.native operation sound.opened error
  have opened := @Transceiver.unregister_open wrapper.native operation sound.opened error
  have connected := @and_connected wrapper operation sound.connected
  unfold Wrapper.makeReady
  simp only [same]
  split
  · next nothing =>
      refine ⟨opened, sound.connected, sound.unconnected, sound.within, sound.finished, ?_, ?_⟩
      · intro stream wanted
        cases taken : has operation stream.operation with
        | false => exact sound.leaves wanted taken
        | true =>
            -- The early return: another operation of the set is recorded, hence this one is.
            have inside : has (wrapper.registered &&& operation) stream.operation = true := by
              rw [has_and, wanted, taken]
              rfl
            have meets : has wrapper.ready (wrapper.registered &&& operation) = true := by
              rw [Bool.or_eq_true, decide_eq_true_eq] at nothing
              obtain none | meets := nothing
              · rw [none, has_zero] at inside
                cases inside
              · exact meets
            obtain ⟨other, recorded, also⟩ := meets_stream connected meets
            rw [← (uniform stream other inside also).1] at recorded
            exact .inr (.inl recorded)
      · intro stream recorded enabled
        exact .inl (sound.queued stream recorded enabled)
  · next some =>
      have fresh : has wrapper.ready (wrapper.registered &&& operation) = false := by
        rw [Bool.or_eq_true, not_or] at some
        exact Bool.eq_false_iff.mpr some.2
      refine ⟨opened, sound.connected, ?_, ?_, sound.finished, ?_, ?_⟩
      · rw [has_or, sound.unconnected, connected]
        rfl
      · intro stream recorded
        rw [has_or, Bool.or_eq_true, has_and, Bool.and_eq_true] at recorded
        obtain old | new := recorded
        · exact sound.within stream old
        · exact new.1
      · intro stream wanted
        cases taken : has operation stream.operation with
        | true =>
            right
            left
            rw [has_or, has_and, wanted, taken, Bool.and_self, Bool.or_true]
        | false =>
            obtain scheduled | ready | rest := @Sound.leaves _ _ _ _ _ error sound stream wanted taken
            · exact .inl scheduled
            · exact .inr (.inl (by rw [has_or, ready, Bool.true_or]))
            · exact .inr (.inr rest)
      · intro stream recorded enabled
        cases old : has wrapper.ready stream.operation with
        | true => exact .inl (sound.queued stream old enabled)
        | false =>
            right
            rw [has_or, old, Bool.false_or] at recorded
            -- No operation of the set is disabled, as this one is not.
            rw [Bool.not_eq_true']
            cases held : has wrapper.disabled (wrapper.registered &&& operation) with
            | false => rfl
            | true =>
                obtain ⟨other, disabled, also⟩ := meets_stream connected held
                rw [← (uniform stream other recorded also).2 old] at disabled
                exact absurd disabled (by simpa using enabled)

theorem Sound.reports (sound : wrapper.Sound changed handed queued) (stream : Stream)
    (report : Report) :
    (wrapper.makeReady (report.operation stream) error).1.Sound changed handed
      (queued ∨ (wrapper.makeReady (report.operation stream) error).2 = true) := by
  apply Sound.makeReady
  · exact sound.mono id (fun _ _ given => .inr (.inr given)) id
  · have alone (other : Stream)
        (inside : has (wrapper.registered &&& report.operation stream) other.operation = true) :
        other = stream := by
      rw [has_and, Bool.and_eq_true] at inside
      have named := inside.2
      cases report <;> cases stream <;> cases other <;> first | rfl | cases named
    intro first second one two
    rw [alone first one, alone second two]
    exact ⟨rfl, fun _ => rfl⟩

theorem Sound.withdraw (sound : wrapper.Sound changed handed queued) (stream : Stream) :
    (wrapper.withdraw stream.operation).Sound changed handed queued := by
  unfold Wrapper.withdraw
  split
  · next gone =>
      have opened :=
        @Transceiver.unregister_open wrapper.native stream.operation sound.opened false
      refine ⟨opened, sound.connected, sound.unconnected, sound.within, sound.finished, ?_,
        sound.queued⟩
      intro other wanted
      by_cases same : other = stream
      · rw [same] at wanted ⊢
        rw [Bool.or_eq_true, Bool.not_eq_true', has_comm, has_or, has_comm, wanted] at gone
        obtain never | ready := gone
        · cases never
        · exact .inr (.inl ready)
      · have apart : has stream.operation other.operation = false := by
          cases stream <;> cases other <;> first | rfl | exact absurd rfl same
        have accounted : wrapper.Sound changed
            (fun stream' => has stream.operation stream'.operation = true ∨ handed stream')
            queued := sound.mono id (fun _ _ given => .inr (.inr given)) id
        exact accounted.leaves wanted apart
  · exact sound

@[simp]
theorem withdraw_registered : (wrapper.withdraw operation).registered = wrapper.registered := by
  unfold Wrapper.withdraw
  split <;> rfl

@[simp]
theorem withdraw_ready : (wrapper.withdraw operation).ready = wrapper.ready := by
  unfold Wrapper.withdraw
  split <;> rfl

@[simp]
theorem withdraw_disabled : (wrapper.withdraw operation).disabled = wrapper.disabled := by
  unfold Wrapper.withdraw
  split <;> rfl

theorem uniform_of_careful (connected : has wrapper.registered operationConnect = false)
    (careful : wrapper.careful answers = true) :
    wrapper.Uniform (wrapper.native.registerWithRunLoop answers wrapper.registered).1 := by
  intro stream other one two
  rw [has_and, Transceiver.register_ready connected, Bool.and_eq_true, Bool.and_eq_true] at one two
  by_cases same : stream = other
  · rw [same]
    exact ⟨rfl, fun _ => rfl⟩
  · have both : wrapper.finds answers .read = true ∧ wrapper.finds answers .write = true := by
      have found (kind : Stream) (found : has wrapper.registered kind.operation = true ∧
          wrapper.native.finds answers kind = true) : wrapper.finds answers kind = true := by
        rw [finds, found.1, found.2]
        rfl
      cases stream <;> cases other <;> first | exact absurd rfl same | skip
      · exact ⟨found .read one.2, found .write two.2⟩
      · exact ⟨found .read two.2, found .write one.2⟩
    rw [Wrapper.careful, both.1, both.2] at careful
    simp only [Bool.and_self, Bool.not_true, Bool.false_or, Bool.and_eq_true, Bool.or_eq_true,
      beq_iff_eq] at careful
    obtain ⟨ready, disabled⟩ := careful
    cases stream <;> cases other <;> first | exact absurd rfl same | skip
    · refine ⟨ready, fun fresh => ?_⟩
      obtain already | disabled := disabled
      · exact absurd already (by simpa [Stream.operation] using fresh)
      · exact disabled
    · refine ⟨ready.symm, fun fresh => ?_⟩
      obtain already | disabled := disabled
      · exact absurd (ready ▸ already) (by simpa [Stream.operation] using fresh)
      · exact disabled.symm

section

variable (sound : wrapper.Sound changed handed queued)

include sound

theorem Sound.close :
    Sound { wrapper with native := wrapper.native.closeStreams } changed handed queued := by
  have same (stream : Stream) :
      wrapper.native.closeStreams.stream stream = wrapper.native.stream stream := by
    cases stream <;> rfl
  refine ⟨⟨sound.opened.settled, ?_⟩, sound.connected, sound.unconnected, sound.within,
    sound.finished, ?_, sound.queued⟩
  · intro stream
    rw [same]
    exact sound.opened.told stream
  · intro stream wanted
    rw [same]
    exact sound.kept stream wanted

theorem Sound.updateRunLoop (careful : wrapper.careful answers = true) :
    (wrapper.updateRunLoop answers).1.Sound False (fun _ => False)
      (queued ∨ (wrapper.updateRunLoop answers).2 = true) := by
  have registered : Sound { wrapper with
      native := (wrapper.native.registerWithRunLoop answers wrapper.registered).2 } False
      (fun stream =>
        has (wrapper.native.registerWithRunLoop answers wrapper.registered).1 stream.operation =
          true ∨ False) queued := by
    refine ⟨Transceiver.register_open sound.opened sound.connected, sound.connected,
      sound.unconnected, sound.within, sound.finished, ?_, sound.queued⟩
    intro stream wanted
    cases found : wrapper.native.finds answers stream with
    | false =>
        exact .inl (Transceiver.register_scheduled sound.opened sound.connected wanted found)
    | true =>
        right
        right
        right
        left
        rw [Transceiver.register_ready sound.connected, wanted, found]
        rfl
  have withdrawn := (registered.withdraw .write).withdraw .read
  have uniform := uniform_of_careful sound.connected careful
  unfold Wrapper.updateRunLoop
  dsimp only
  generalize (wrapper.native.registerWithRunLoop answers wrapper.registered).1 = operation
    at withdrawn uniform
  generalize unchanged : ({ wrapper with
    native := (wrapper.native.registerWithRunLoop answers wrapper.registered).2 } : Wrapper) = fresh
    at withdrawn
  have made : (if operation = 0 then ((fresh.withdraw operationWrite).withdraw operationRead, false)
      else ((fresh.withdraw operationWrite).withdraw operationRead).makeReady operation false).1.Sound
        False (fun _ => False) (queued ∨
          (if operation = 0 then ((fresh.withdraw operationWrite).withdraw operationRead, false)
            else ((fresh.withdraw operationWrite).withdraw operationRead).makeReady operation
              false).2 = true) := by
    split
    · next none =>
        apply withdrawn.mono id _ .inl
        intro stream _ given
        obtain taken | given := given
        · rw [none, has_zero] at taken
          cases taken
        · exact given.elim
    · apply withdrawn.makeReady
      intro stream other one two
      simp only [withdraw_registered, withdraw_ready, withdraw_disabled, ← unchanged]
        at one two ⊢
      exact uniform stream other one two
  split
  · exact made.close
  · exact made

theorem Sound.register {remove add : SocketOperation} (open_ : wrapper.finish = false)
    (connected : has add operationConnect = false) :
    (wrapper.register remove add).Sound True handed queued := by
  refine ⟨sound.opened, ?_, ?_, ?_, ?_, ?_, ?_⟩
  · have old := sound.connected
    change has ((wrapper.registered &&& ~~~remove) ||| add) operationConnect = false
    rw [has_or, connected, Bool.or_false]
    generalize wrapper.registered = registered at old
    revert registered remove
    decide
  · have old := sound.unconnected
    change has (wrapper.ready &&& ((wrapper.registered &&& ~~~remove) ||| add)) operationConnect =
      false
    generalize wrapper.ready = ready at old
    generalize (wrapper.registered &&& ~~~remove) ||| add = registered
    revert ready registered
    decide
  · intro stream ready
    rw [Wrapper.register, has_and, Bool.and_eq_true] at ready
    exact ready.2
  · intro finish
    rw [Wrapper.register, open_] at finish
    cases finish
  · intro _ _
    exact .inr (.inr (.inl trivial))
  · intro stream ready
    rw [Wrapper.register, has_and, Bool.and_eq_true] at ready
    exact sound.queued stream ready.1

theorem Sound.finishes : wrapper.finished.Sound changed handed queued := by
  have none (stream : Stream) : has operationNone stream.operation = false := has_zero _
  refine ⟨sound.opened, has_zero _, has_zero _, ?_, fun _ => rfl, ?_, ?_⟩
  · intro stream ready
    exact absurd ready (by simp [Wrapper.finished, none])
  · intro stream wanted
    exact absurd wanted (by simp [Wrapper.finished, none])
  · intro stream ready
    exact absurd ready (by simp [Wrapper.finished, none])

theorem Sound.disables :
    Sound { wrapper with disabled := wrapper.disabled ||| operation } changed handed queued := by
  refine ⟨sound.opened, sound.connected, sound.unconnected, sound.within, sound.finished,
    sound.kept, ?_⟩
  intro stream ready enabled
  rw [has_or, Bool.or_eq_false_iff] at enabled
  exact sound.queued stream ready enabled.1

/-- An operation that is recorded as ready is registered, hence it is checked when enabled. -/
theorem Sound.enables :
    Sound { wrapper with disabled := wrapper.disabled &&& ~~~operation } changed handed
      (queued ∨ (has wrapper.registered operation && wrapper.checkReady) = true) := by
  refine ⟨sound.opened, sound.connected, sound.unconnected, sound.within, sound.finished,
    sound.kept, ?_⟩
  intro stream ready enabled
  have registered := sound.within stream ready
  cases old : has wrapper.disabled stream.operation with
  | false => exact .inl (sound.queued stream ready old)
  | true =>
      right
      rw [has_and_not, old, Bool.true_and, Bool.not_eq_false'] at enabled
      have shares {set other : SocketOperation} (one : has set stream.operation = true)
          (two : has other stream.operation = true) : has set other = true := by
        cases stream <;> revert set other <;> decide
      rw [Bool.and_eq_true, Wrapper.checkReady]
      exact ⟨shares registered enabled, shares ready registered⟩

theorem Sound.taken :
    wrapper.readyOp.2.Sound changed
      (fun stream => handed stream ∨ has wrapper.readyOp.1 stream.operation = true) False := by
  refine ⟨sound.opened, sound.connected, ?_, ?_, sound.finished, ?_, ?_⟩
  · have old := sound.unconnected
    change has (~~~(~~~wrapper.disabled &&& wrapper.ready) &&& wrapper.ready) operationConnect =
      false
    generalize wrapper.ready = ready at old
    generalize wrapper.disabled = disabled
    revert ready disabled
    decide
  · intro stream ready
    rw [Wrapper.readyOp, has_not_and, Bool.and_eq_true] at ready
    exact sound.within stream ready.1
  · intro stream wanted
    obtain scheduled | ready | inside | given := sound.kept stream wanted
    · exact .inl scheduled
    · cases taken : has wrapper.readyOp.1 stream.operation with
      | true => exact .inr (.inr (.inr (.inr rfl)))
      | false =>
          right
          left
          rw [Wrapper.readyOp] at taken ⊢
          rw [has_not_and, ready, taken]
          rfl
    · exact .inr (.inr (.inl inside))
    · exact .inr (.inr (.inr (.inl given)))
  · intro stream ready enabled
    rw [Wrapper.readyOp, has_not_and, has_not_and, Bool.and_eq_true] at ready
    change has wrapper.disabled stream.operation = false at enabled
    rw [ready.1, enabled] at ready
    cases ready.2

end

end Wrapper

end IceTouch.Streams
