import IceTouch.Selecting.EventHandler

/-!
# The selector over kqueue

Changes are collected while no thread selects and applied in order. A queue has a note for
each descriptor and filter; a change of a note that is not there fails, and with it the rest of
the change list.
-/

namespace IceTouch.Selecting

open Machine

inductive Filter where
  | read
  | write
deriving DecidableEq

/-- What a `struct kevent` asks for. -/
inductive Action where
  /-- `EV_ADD`, with `EV_DISABLE` or without. -/
  | add (disabled : Bool)
  | delete
  | enable
  | disable
deriving DecidableEq

structure Kevent (η : Type) where
  socket : Socket
  filter : Filter
  action : Action
  handler : η
deriving DecidableEq

structure Note (η : Type) where
  enabled : Bool
  handler : η
deriving DecidableEq

/-- The notes of `_queueFd`. -/
abbrev Notes (η : Type) := Socket → Filter → Option (Note η)

structure KqueueSelector (η : Type) where
  flags : η → Flags
  notes : Notes η
  changes : List (Kevent η)
  selecting : Bool

variable {η : Type}

def Filter.operation : Filter → SocketOperation
  | .read => operationRead
  | .write => operationWrite

def Notes.put (notes : Notes η) (socket : Socket) (filter : Filter) (note : Option (Note η)) :
    Notes η :=
  fun other kind => if other = socket ∧ kind = filter then note else notes other kind

/-- One change. There is no note to delete, enable or disable where this fails. -/
def Kevent.apply (event : Kevent η) (notes : Notes η) : Option (Notes η) :=
  match event.action, notes event.socket event.filter with
  | .add disabled, _ =>
      some (notes.put event.socket event.filter (some ⟨!disabled, event.handler⟩))
  | .delete, some _ => some (notes.put event.socket event.filter none)
  | .enable, some _ => some (notes.put event.socket event.filter (some ⟨true, event.handler⟩))
  | .disable, some _ => some (notes.put event.socket event.filter (some ⟨false, event.handler⟩))
  | _, none => none

/-- `kevent` without room for events: it returns at the first change that fails. -/
def kevent : List (Kevent η) → Notes η → Notes η
  | [], notes => notes
  | event :: events, notes =>
      match event.apply notes with
      | some after => kevent events after
      | none => notes

namespace KqueueSelector

def start : KqueueSelector η where
  flags := fun _ => Flags.none
  notes := fun _ _ => none
  changes := []
  selecting := false

def updateSelector (s : KqueueSelector η) : KqueueSelector η :=
  { s with notes := kevent s.changes s.notes, changes := [] }

def push (s : KqueueSelector η) (events : List (Kevent η)) : KqueueSelector η :=
  let queued := { s with changes := s.changes ++ events }
  if s.selecting then queued.updateSelector else queued

variable [DecidableEq η]

def setFlags (s : KqueueSelector η) (handler : η) (flags : Flags) : KqueueSelector η :=
  { s with flags := Function.update s.flags handler flags }

/-- `status == SocketOperationRead ? EVFILT_READ : EVFILT_WRITE` -/
def filterOf (operation : SocketOperation) : Filter :=
  if operation = operationRead then .read else .write

section calls

variable (fd : η → Socket)

/-- The change of one filter that `update` queues where the operation is in the set. -/
def changeOf (set : SocketOperation) (filter : Filter) (action : Action) (handler : η) :
    List (Kevent η) :=
  if has set filter.operation then [⟨fd handler, filter, action, handler⟩] else []

def update (s : KqueueSelector η) (handler : η) (remove add : SocketOperation) :
    KqueueSelector η :=
  let flags := s.flags handler
  let after := flags.register remove add
  let changed := s.setFlags handler after
  if flags.registered = after.registered then changed
  else
    changed.push
      (changeOf fd remove .read .delete handler ++ (changeOf fd remove .write .delete handler ++
        (changeOf fd add .read (.add (has flags.disabled operationRead)) handler ++
          changeOf fd add .write (.add (has flags.disabled operationWrite)) handler)))

def enable (s : KqueueSelector η) (handler : η) (operation : SocketOperation) :
    KqueueSelector η :=
  let flags := s.flags handler
  if has flags.disabled operation then
    let changed := s.setFlags handler (flags.enable operation)
    if has flags.registered operation then
      changed.push [⟨fd handler, filterOf operation, .enable, handler⟩]
    else changed
  else s

def disable (s : KqueueSelector η) (handler : η) (operation : SocketOperation) :
    KqueueSelector η :=
  let flags := s.flags handler
  if has flags.disabled operation then s
  else
    let changed := s.setFlags handler (flags.disable operation)
    if has flags.registered operation then
      changed.push [⟨fd handler, filterOf operation, .disable, handler⟩]
    else changed

def finish (s : KqueueSelector η) (handler : η) : KqueueSelector η :=
  if (s.flags handler).registered ≠ 0 then
    s.update fd handler (s.flags handler).registered operationNone
  else s

def startSelect (s : KqueueSelector η) : KqueueSelector η :=
  let selecting := { s with selecting := true }
  if s.changes ≠ [] then selecting.updateSelector else selecting

def step : Event η → KqueueSelector η → Option (KqueueSelector η)
  | .update handler remove add, s => some (s.update fd handler remove add)
  | .enable handler operation, s => some (s.enable fd handler operation)
  | .disable handler operation, s => some (s.disable fd handler operation)
  | .finish handler, s => some (s.finish fd handler)
  | .startSelect, s => some s.startSelect
  | .finishSelect, s => some { s with selecting := false }

def watches (s : KqueueSelector η) (handler : η) (filter : Filter) : Bool :=
  match s.notes (fd handler) filter with
  | some note => note.enabled
  | none => false

/-- The operations that are watched for a handler. -/
def asked (s : KqueueSelector η) (handler : η) : Option SocketOperation :=
  let watched :=
    (if s.watches fd handler .read then operationRead else 0) |||
      if s.watches fd handler .write then operationWrite else 0
  if watched = 0 then none else some watched

end calls

/-- The filter that `enable` and `disable` change must be registered, and there must be nothing
to change for the other one. -/
def careful (s : KqueueSelector η) : Event η → Prop
  | .enable handler operation =>
      let flags := s.flags handler
      let operationOf := (filterOf operation).operation
      has flags.disabled operation → has flags.registered operation →
        has flags.registered operationOf ∧
          flags.registered &&& flags.disabled &&& operation &&& ~~~operationOf = 0
  | .disable handler operation =>
      let flags := s.flags handler
      let operationOf := (filterOf operation).operation
      has flags.disabled operation = false → has flags.registered operation →
        has flags.registered operationOf ∧ flags.registered &&& operation &&& ~~~operationOf = 0
  | _ => True

def allowed (event : Event η) (s : KqueueSelector η) : Prop :=
  event.proper s.flags ∧ s.careful event

instance (s : KqueueSelector η) : (event : Event η) → Decidable (s.careful event)
  | .update _ _ _ => isTrue trivial
  | .enable _ _ => by unfold careful; infer_instance
  | .disable _ _ => by unfold careful; infer_instance
  | .finish _ => isTrue trivial
  | .startSelect => isTrue trivial
  | .finishSelect => isTrue trivial

instance (event : Event η) (s : KqueueSelector η) : Decidable (allowed event s) :=
  inferInstanceAs (Decidable (event.proper s.flags ∧ s.careful event))

def noteOf (flags : Flags) (handler : η) (filter : Filter) : Option (Note η) :=
  if has flags.registered filter.operation then
    some ⟨!has flags.disabled filter.operation, handler⟩
  else none

def Agrees (fd : η → Socket) (flags : η → Flags) (notes : Notes η) : Prop :=
  ∀ handler filter, notes (fd handler) filter = noteOf (flags handler) handler filter

def Settles (fd : η → Socket) (s : KqueueSelector η) : Prop :=
  ∃ notes, s.changes.foldlM (fun notes event => event.apply notes) s.notes = some notes ∧
    Agrees fd s.flags notes

variable {fd : η → Socket} {s : KqueueSelector η} {handler : η}

variable {events : List (Kevent η)} {new : Flags} {add : SocketOperation}

omit [DecidableEq η] in
theorem kevent_eq {before after : Notes η}
    (applied : events.foldlM (fun notes event => event.apply notes) before = some after) :
    kevent events before = after := by
  induction events generalizing before with
  | nil =>
      cases applied
      rfl
  | cons event events ih =>
      rw [List.foldlM_cons] at applied
      cases first : event.apply before with
      | none =>
          rw [first] at applied
          cases applied
      | some middle =>
          rw [first] at applied
          simp only [kevent, first]
          exact ih applied

omit [DecidableEq η] in
theorem Settles.updateSelector (settles : Settles fd s) : Settles fd s.updateSelector := by
  obtain ⟨notes, applied, agrees⟩ := settles
  refine ⟨notes, ?_, agrees⟩
  simp only [KqueueSelector.updateSelector, kevent_eq applied]
  rfl

omit [DecidableEq η] in
theorem settles_push {before : Notes η} (after : Notes η)
    (applied : s.changes.foldlM (fun notes event => event.apply notes) s.notes = some before)
    (further : events.foldlM (fun notes event => event.apply notes) before = some after)
    (agrees : Agrees fd s.flags after) : Settles fd (s.push events) := by
  have queued : Settles fd { s with changes := s.changes ++ events } := by
    refine ⟨after, ?_, agrees⟩
    rw [List.foldlM_append, applied]
    exact further
  unfold push
  split
  · exact queued.updateSelector
  · exact queued

theorem Agrees.set {flags : η → Flags} {notes after : Notes η} (agrees : Agrees fd flags notes)
    (distinct : Function.Injective fd)
    (here : ∀ filter, after (fd handler) filter = noteOf new handler filter)
    (elsewhere : ∀ socket filter, socket ≠ fd handler → after socket filter = notes socket filter) :
    Agrees fd (Function.update flags handler new) after := by
  intro other filter
  by_cases same : other = handler
  · rw [same, Function.update_self]
    exact here filter
  · rw [Function.update_of_ne same, elsewhere _ _ (distinct.ne same)]
    exact agrees other filter

theorem Settles.keep (settles : Settles fd s)
    (same : ∀ filter, noteOf new handler filter = noteOf (s.flags handler) handler filter) :
    Settles fd (s.setFlags handler new) := by
  obtain ⟨notes, applied, agrees⟩ := settles
  refine ⟨notes, applied, ?_⟩
  intro other filter
  simp only [setFlags]
  by_cases here : other = handler
  · rw [here, Function.update_self, same]
    exact agrees handler filter
  · rw [Function.update_of_ne here]
    exact agrees other filter

variable {filter : Filter} {flags : Flags} {operation : SocketOperation}

theorem Settles.change (settles : Settles fd s) (distinct : Function.Injective fd) {enabled : Bool}
    (registered : has (s.flags handler).registered filter.operation = true)
    (noted : noteOf new handler filter = some ⟨enabled, handler⟩)
    (others : ∀ other, other ≠ filter →
      noteOf new handler other = noteOf (s.flags handler) handler other) :
    Settles fd ((s.setFlags handler new).push
      [⟨fd handler, filter, if enabled then .enable else .disable, handler⟩]) := by
  obtain ⟨notes, applied, agrees⟩ := settles
  have stored := agrees handler filter
  rw [noteOf, if_pos registered] at stored
  refine settles_push (notes.put (fd handler) filter (some ⟨enabled, handler⟩)) applied ?_ ?_
  · rw [List.foldlM_cons]
    cases enabled <;> simp [Kevent.apply, stored]
  · apply agrees.set distinct
    · intro other
      by_cases same : other = filter
      · rw [same, noted]
        simp [Notes.put]
      · rw [others other same, ← agrees handler other]
        simp [Notes.put, same]
    · intro socket other differ
      simp [Notes.put, differ]

omit [DecidableEq η] in
theorem note_same {before after : Flags} (registered : after.registered = before.registered)
    (same : has before.registered filter.operation = true →
      has after.disabled filter.operation = has before.disabled filter.operation) :
    noteOf after handler filter = noteOf before handler filter := by
  rw [noteOf, noteOf, registered]
  by_cases inside : has before.registered filter.operation = true
  · rw [if_pos inside, if_pos inside, same inside]
  · rw [if_neg inside, if_neg inside]

theorem enable_filter (disabled : has flags.disabled operation = true) :
    has (flags.enable operation).disabled (filterOf operation).operation = false := by
  obtain ⟨registered, set⟩ := flags
  revert registered set operation
  decide

theorem disable_filter (inside : has flags.registered operation = true) :
    has (flags.disable operation).disabled (filterOf operation).operation = true := by
  obtain ⟨registered, set⟩ := flags
  revert registered set operation
  decide

theorem enable_apart (other : filter ≠ filterOf operation)
    (apart : flags.registered &&& flags.disabled &&& operation &&&
      ~~~(filterOf operation).operation = 0)
    (inside : has flags.registered filter.operation = true) :
    has (flags.enable operation).disabled filter.operation =
      has flags.disabled filter.operation := by
  obtain ⟨registered, disabled⟩ := flags
  revert registered disabled operation
  cases filter <;> decide

theorem disable_apart (other : filter ≠ filterOf operation)
    (apart : flags.registered &&& operation &&& ~~~(filterOf operation).operation = 0)
    (inside : has flags.registered filter.operation = true) :
    has (flags.disable operation).disabled filter.operation =
      has flags.disabled filter.operation := by
  obtain ⟨registered, disabled⟩ := flags
  revert registered disabled operation
  cases filter <;> decide

theorem toggle_outside (outside : ¬ has flags.registered operation = true)
    (inside : has flags.registered filter.operation = true) :
    has (flags.enable operation).disabled filter.operation =
        has flags.disabled filter.operation ∧
      has (flags.disable operation).disabled filter.operation =
        has flags.disabled filter.operation := by
  obtain ⟨registered, disabled⟩ := flags
  revert registered disabled operation
  cases filter <;> decide

theorem Settles.enable (settles : Settles fd s) (distinct : Function.Injective fd)
    (careful : s.careful (.enable handler operation)) :
    Settles fd (s.enable fd handler operation) := by
  simp only [KqueueSelector.enable]
  by_cases disabled : has (s.flags handler).disabled operation = true
  · rw [if_pos disabled]
    by_cases registered : has (s.flags handler).registered operation = true
    · rw [if_pos registered]
      obtain ⟨known, apart⟩ := careful disabled registered
      have noted : noteOf ((s.flags handler).enable operation) handler (filterOf operation) =
          some ⟨true, handler⟩ := by
        rw [noteOf, enable_filter disabled]
        exact if_pos known
      exact settles.change distinct known noted fun other differ =>
        note_same rfl (enable_apart differ apart)
    · rw [if_neg registered]
      exact settles.keep fun filter =>
        note_same rfl fun inside => (toggle_outside registered inside).1
  · rw [if_neg disabled]
    exact settles

theorem Settles.disable (settles : Settles fd s) (distinct : Function.Injective fd)
    (careful : s.careful (.disable handler operation)) :
    Settles fd (s.disable fd handler operation) := by
  simp only [KqueueSelector.disable]
  by_cases disabled : has (s.flags handler).disabled operation = true
  · rw [if_pos disabled]
    exact settles
  · rw [if_neg disabled]
    by_cases registered : has (s.flags handler).registered operation = true
    · rw [if_pos registered]
      obtain ⟨known, apart⟩ := careful (by simpa using disabled) registered
      have noted : noteOf ((s.flags handler).disable operation) handler (filterOf operation) =
          some ⟨false, handler⟩ := by
        rw [noteOf, disable_filter registered]
        exact if_pos known
      exact settles.change distinct known noted fun other differ =>
        note_same rfl (disable_apart differ apart)
    · rw [if_neg registered]
      exact settles.keep fun filter =>
          note_same rfl fun inside => (toggle_outside registered inside).2

omit [DecidableEq η] in
theorem change_of_applied (fd : η → Socket) (handler : η) (set : SocketOperation)
    (filter : Filter) (action : Action) (notes : Notes η) (note : Option (Note η))
    (applies : has set filter.operation = true →
      Kevent.apply ⟨fd handler, filter, action, handler⟩ notes =
        some (notes.put (fd handler) filter note)) :
    ∃ after,
      (changeOf fd set filter action handler).foldlM (fun notes event => event.apply notes)
        notes = some after ∧
      after (fd handler) filter =
        (if has set filter.operation then note else notes (fd handler) filter) ∧
      ∀ socket other, socket ≠ fd handler ∨ other ≠ filter →
        after socket other = notes socket other := by
  unfold changeOf
  by_cases inside : has set filter.operation = true
  · rw [if_pos inside, if_pos inside]
    refine ⟨notes.put (fd handler) filter note, ?_, by simp [Notes.put], ?_⟩
    · rw [List.foldlM_cons, applies inside]
      rfl
    · intro socket other apart
      simp only [Notes.put, ite_eq_right_iff]
      intro same
      exact absurd same (by tauto)
  · rw [if_neg inside, if_neg inside]
    exact ⟨notes, rfl, rfl, fun _ _ _ => rfl⟩

variable {remove : SocketOperation}

theorem removed_registered (proper : remove &&& flags.registered = remove)
    (inside : has remove filter.operation = true) :
    has flags.registered filter.operation = true := by
  obtain ⟨registered, disabled⟩ := flags
  revert registered disabled remove
  cases filter <;> decide

theorem register_filter (flags : Flags) (remove add : SocketOperation) (filter : Filter) :
    has (flags.register remove add).registered filter.operation =
      (has add filter.operation ||
        (has flags.registered filter.operation && !has remove filter.operation)) := by
  obtain ⟨registered, disabled⟩ := flags
  revert registered disabled remove add
  cases filter <;> decide

/-- The note of a filter after the changes that `update` queues. -/
def updated (flags : Flags) (handler : η) (remove add : SocketOperation) (filter : Filter)
    (note : Option (Note η)) : Option (Note η) :=
  if has add filter.operation then some ⟨!has flags.disabled filter.operation, handler⟩
  else if has remove filter.operation then none
  else note

omit [DecidableEq η] in
theorem updated_eq (flags : Flags) (remove add : SocketOperation) (filter : Filter) :
    updated flags handler remove add filter (noteOf flags handler filter) =
      noteOf (flags.register remove add) handler filter := by
  rw [updated, noteOf, noteOf, register_filter]
  cases has add filter.operation <;> cases has remove filter.operation <;>
    cases has flags.registered filter.operation <;> rfl

omit [DecidableEq η] in
theorem changes_applied (flags : Flags) {notes : Notes η}
    (noted : ∀ filter : Filter, has remove filter.operation = true →
      ∃ note, notes (fd handler) filter = some note) :
    ∃ after,
      (changeOf fd remove .read .delete handler ++ (changeOf fd remove .write .delete handler ++
        (changeOf fd add .read (.add (has flags.disabled operationRead)) handler ++
          changeOf fd add .write (.add (has flags.disabled operationWrite)) handler))).foldlM
        (fun notes event => event.apply notes) notes = some after ∧
      (∀ filter, after (fd handler) filter =
        updated flags handler remove add filter (notes (fd handler) filter)) ∧
      ∀ socket filter, socket ≠ fd handler → after socket filter = notes socket filter := by
  have apart : Filter.read ≠ Filter.write := by decide
  obtain ⟨one, first, oneHere, oneElse⟩ :=
    change_of_applied fd handler remove .read .delete notes none fun inside => by
        obtain ⟨note, stored⟩ := noted .read inside
        simp [Kevent.apply, stored]
  obtain ⟨two, second, twoHere, twoElse⟩ :=
    change_of_applied fd handler remove .write .delete one none fun inside => by
        obtain ⟨note, stored⟩ := noted .write inside
        rw [← oneElse (fd handler) .write (.inr apart.symm)] at stored
        simp [Kevent.apply, stored]
  obtain ⟨three, third, threeHere, threeElse⟩ :=
    change_of_applied fd handler add .read (.add (has flags.disabled operationRead)) two _
      fun _ => rfl
  obtain ⟨four, fourth, fourHere, fourElse⟩ :=
    change_of_applied fd handler add .write (.add (has flags.disabled operationWrite)) three _
      fun _ => rfl
  refine ⟨four, ?_, ?_, ?_⟩
  · rw [List.foldlM_append, first]
    change List.foldlM _ one _ = _
    rw [List.foldlM_append, second]
    change List.foldlM _ two _ = _
    rw [List.foldlM_append, third]
    exact fourth
  · intro filter
    cases filter with
    | read =>
        rw [fourElse _ _ (.inr apart), threeHere, twoElse _ _ (.inr apart), oneHere]
        rfl
    | write =>
        rw [fourHere, threeElse _ _ (.inr apart.symm), twoHere, oneElse _ _ (.inr apart.symm)]
        rfl
  · intro socket filter differ
    rw [fourElse _ _ (.inl differ), threeElse _ _ (.inl differ), twoElse _ _ (.inl differ),
      oneElse _ _ (.inl differ)]

theorem Settles.update (settles : Settles fd s) (distinct : Function.Injective fd)
    (proper : remove &&& (s.flags handler).registered = remove) :
    Settles fd (s.update fd handler remove add) := by
  simp only [KqueueSelector.update]
  by_cases same : (s.flags handler).registered = ((s.flags handler).register remove add).registered
  · rw [if_pos same]
    exact settles.keep fun filter => note_same same.symm fun _ => rfl
  · rw [if_neg same]
    obtain ⟨notes, applied, agrees⟩ := settles
    have noted (filter : Filter) (inside : has remove filter.operation = true) :
        ∃ note, notes (fd handler) filter = some note := by
      rw [agrees handler filter, noteOf, if_pos (removed_registered proper inside)]
      exact ⟨_, rfl⟩
    obtain ⟨after, further, here, elsewhere⟩ := changes_applied (s.flags handler) noted
    refine settles_push after applied further (agrees.set distinct ?_ elsewhere)
    intro filter
    rw [here filter, agrees handler filter, updated_eq]

theorem Settles.step (settles : Settles fd s) (distinct : Function.Injective fd)
    {event : Event η} {after : KqueueSelector η} (admitted : allowed event s)
    (stepped : KqueueSelector.step fd event s = some after) : Settles fd after := by
  obtain ⟨proper, careful⟩ := admitted
  cases event with
  | update handler remove add =>
      cases stepped
      exact settles.update distinct proper
  | enable handler operation =>
      cases stepped
      exact settles.enable distinct careful
  | disable handler operation =>
      cases stepped
      exact settles.disable distinct careful
  | finish handler =>
      cases stepped
      unfold KqueueSelector.finish
      split
      · exact settles.update distinct (BitVec.and_self)
      · exact settles
  | startSelect =>
      cases stepped
      have selecting : Settles fd { s with selecting := true } := settles
      unfold KqueueSelector.startSelect
      split
      · exact selecting.updateSelector
      · exact selecting
  | finishSelect =>
      cases stepped
      exact settles

omit [DecidableEq η] in
theorem start_settles : Settles fd (start : KqueueSelector η) := by
  refine ⟨fun _ _ => none, rfl, ?_⟩
  intro handler filter
  have outside : ¬ has Flags.none.registered filter.operation = true := by
    cases filter <;> decide
  exact (if_neg outside).symm

omit [DecidableEq η] in
theorem watches_eq {s : KqueueSelector η} (agrees : Agrees fd s.flags s.notes) (handler : η)
    (filter : Filter) :
    s.watches fd handler filter = has (s.flags handler).status filter.operation := by
  have bits (flags : Flags) : has flags.status filter.operation =
      (has flags.registered filter.operation && !has flags.disabled filter.operation) := by
    obtain ⟨registered, disabled⟩ := flags
    revert registered disabled
    cases filter <;> decide
  rw [watches, agrees handler filter, noteOf, bits]
  split
  · next note found =>
      by_cases inside : has (s.flags handler).registered filter.operation = true
      · rw [if_pos inside] at found
        cases found
        rw [inside, Bool.true_and]
      · rw [if_neg inside] at found
        cases found
  · next found =>
      by_cases inside : has (s.flags handler).registered filter.operation = true
      · rw [if_pos inside] at found
        cases found
      · simp [inside]

theorem asked_eq_told (distinct : Function.Injective fd)
    (reached : Reach (step fd) allowed start s) (settled : s.changes = []) (handler : η) :
    s.asked fd handler = (s.flags handler).told := by
  have settles : Settles fd s :=
    reached.invariant start_settles fun _ _ _ settles admitted stepped =>
      settles.step distinct admitted stepped
  obtain ⟨notes, applied, agrees⟩ := settles
  rw [settled] at applied
  cases applied
  have bits (status : SocketOperation) :
      (if has status operationRead then operationRead else 0) |||
        (if has status operationWrite then operationWrite else 0) = status := by
    revert status
    decide
  simp only [asked, watches_eq agrees, Filter.operation, bits]
  rfl

end KqueueSelector

end IceTouch.Selecting
