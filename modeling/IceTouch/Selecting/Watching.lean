import IceTouch.Selecting.Epoll
import IceTouch.Selecting.Kqueue
import IceTouch.Selecting.Poll
import IceTouch.Selecting.Select

/-!
# Selectors watch what they were told to

For the four selectors, whenever no change is pending, what is watched for a handler is what is
registered without what is disabled. Over epoll and kqueue this takes care with a set of
operations: `enable` and `disable` are written for one of them.
-/

namespace IceTouch.Selecting

open Machine

variable {η : Type} [DecidableEq η]

/-- Exactly the operations that are registered and not disabled are watched for each handler. -/
theorem selectors_watch_registered (fd : η → Socket) (distinct : Function.Injective fd)
    (fdIntrRead : Socket) (apart : ∀ handler, fd handler ≠ fdIntrRead) :
    (∀ s, Reach (EpollSelector.step fd) EpollSelector.allowed EpollSelector.start s →
      ∀ handler, s.asked fd handler = (s.flags handler).told) ∧
    (∀ s, Reach (KqueueSelector.step fd) KqueueSelector.allowed KqueueSelector.start s →
      s.changes = [] → ∀ handler, s.asked fd handler = (s.flags handler).told) ∧
    (∀ s, Reach (SetSelector.step (PollSets.store fd)) (SetSelector.allowed fun _ => True)
        (SetSelector.start (PollSets.start fdIntrRead)) s →
      s.changes = [] → ∀ handler, entriesOf (fd handler) s.sets.pollFdSet =
        (s.flags handler).told.toList.map fun status => ⟨fd handler, status⟩) ∧
    ∀ (used : Finset η) (fdSetSize : Nat), used.card < fdSetSize →
      ∀ s, Reach (SetSelector.step (SelectSets.store fdSetSize fd))
          (SetSelector.allowed fun handler => handler ∈ used)
          (SetSelector.start (SelectSets.start fdIntrRead)) s →
        s.changes = [] → ∀ handler,
          (fd handler ∈ s.sets.readFdSet ↔
            has (s.flags handler).status operationRead = true) ∧
          (fd handler ∈ s.sets.writeFdSet ↔
            has (s.flags handler).status operationWrite = true) ∧
          (fd handler ∈ s.sets.errorFdSet ↔
            has (s.flags handler).status operationConnect = true) := by
  refine ⟨?_, ?_, ?_, ?_⟩
  · intro s reached
    exact EpollSelector.asked_eq_told distinct reached
  · intro s reached settled
    exact KqueueSelector.asked_eq_told distinct reached settled
  · intro s reached settled handler
    have agrees := SetSelector.agrees_of_reach (PollSets.stores distinct)
      (PollSets.start_agrees apart) reached settled
    rw [agrees.entries handler, Flags.told, SetSelector.statuses]
    split <;> rfl
  · intro used fdSetSize enough s reached settled handler
    have agrees := SetSelector.agrees_of_reach (SelectSets.stores distinct enough)
      (SelectSets.start_agrees apart) reached settled
    exact ⟨agrees.read.mem_iff handler, agrees.write.mem_iff handler,
      agrees.error.mem_iff handler⟩

def socketOf (handler : Nat) : Socket := handler + 1

def both : SocketOperation := operationRead ||| operationWrite

def epollRun : List (Event Nat) :=
  [.update 0 operationNone both, .disable 0 operationRead, .disable 0 operationWrite,
    .enable 0 both]

/-- Changes are listed before a select and between two, and made at once during one. -/
def kqueueRun : List (Event Nat) :=
  [.update 0 operationNone both, .update 1 operationNone operationRead,
    .disable 0 operationWrite, .startSelect, .disable 0 operationRead, .enable 0 operationWrite,
    .finishSelect, .enable 0 operationRead, .startSelect]

theorem two_operations_watched :
    (∃ s, runAll (EpollSelector.step socketOf) epollRun EpollSelector.start = some s ∧
      s.asked socketOf 0 = some both) ∧
    ∃ s, runAll (KqueueSelector.step socketOf) kqueueRun KqueueSelector.start = some s ∧
      s.asked socketOf 0 = some both ∧ s.asked socketOf 1 = some operationRead := by
  have watched := selectors_watch_registered socketOf (fun _ _ same => Nat.succ.inj same) 0
    fun handler => Nat.succ_ne_zero handler
  constructor
  · let s := (runAll (EpollSelector.step socketOf) epollRun EpollSelector.start).getD .start
    have ran : runAll (checked (EpollSelector.step socketOf) fun event s =>
        decide (EpollSelector.allowed event s)) epollRun EpollSelector.start = some s := rfl
    refine ⟨s, rfl, ?_⟩
    rw [watched.1 s (reach_of_checked (fun _ _ passed => of_decide_eq_true passed) ran)]
    decide
  · let s := (runAll (KqueueSelector.step socketOf) kqueueRun KqueueSelector.start).getD .start
    have ran : runAll (checked (KqueueSelector.step socketOf) fun event s =>
        decide (KqueueSelector.allowed event s)) kqueueRun KqueueSelector.start = some s := rfl
    have settled := watched.2.1 s
      (reach_of_checked (fun _ _ passed => of_decide_eq_true passed) ran) rfl
    refine ⟨s, rfl, ?_, ?_⟩
    · rw [settled]
      decide
    · rw [settled]
      decide

/-- Reading and writing are disabled together over kqueue, and reading goes on. Reading is
disabled over epoll, both are enabled together, and reading is not watched. -/
theorem composite_operation_not_watched :
    (∃ s, Reach (KqueueSelector.step fun _ : Unit => 1) (fun event s => event.proper s.flags)
        KqueueSelector.start s ∧ s.changes = [] ∧
      s.asked (fun _ => 1) () = some operationRead ∧ (s.flags ()).told = none) ∧
    ∃ s, Reach (EpollSelector.step fun _ : Unit => 1) (fun event s => event.proper s.flags)
        EpollSelector.start s ∧
      s.asked (fun _ => 1) () = some operationWrite ∧
      (s.flags ()).told = some (operationRead ||| operationWrite) := by
  let both : SocketOperation := operationRead ||| operationWrite
  let register : Event Unit := .update () operationNone both
  constructor
  · let registered := KqueueSelector.start.update (fun _ : Unit => 1) () operationNone both
    let selecting := registered.startSelect
    let disabled := selecting.disable (fun _ => 1) () both
    have one : KqueueSelector.step (fun _ => 1) register KqueueSelector.start =
      some registered := rfl
    have two : KqueueSelector.step (fun _ => 1) .startSelect registered = some selecting := rfl
    have three : KqueueSelector.step (fun _ => 1) (.disable () both) selecting =
      some disabled := rfl
    refine ⟨disabled, ?_, by decide, by decide, by decide⟩
    exact .next (.next (.next .here (by decide) one) (by decide) two) (by decide) three
  · let registered := EpollSelector.start.update (fun _ : Unit => 1) () operationNone both
    let disabled := registered.disable (fun _ => 1) () operationRead
    let enabled := disabled.enable (fun _ => 1) () both
    have one : EpollSelector.step (fun _ => 1) register EpollSelector.start =
      some registered := rfl
    have two : EpollSelector.step (fun _ => 1) (.disable () operationRead) registered =
      some disabled := rfl
    have three : EpollSelector.step (fun _ => 1) (.enable () both) disabled = some enabled := rfl
    refine ⟨enabled, ?_, by decide, by decide⟩
    exact .next (.next (.next .here (by decide) one) (by decide) two) (by decide) three

end IceTouch.Selecting
