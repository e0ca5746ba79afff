import Mathlib.Logic.Function.Basic
import IceTouch.Library.Machine

/-!
# Event handlers as a selector sees them

The two sets of operations that a selector keeps in a handler, and what is left of the first
without the second. On the platforms of these selectors connecting and writing are one
operation. The handlers are of any type `η` and stand for their pointers.
-/

namespace IceTouch.Selecting

abbrev SocketOperation := BitVec 2

def operationNone : SocketOperation := 0

def operationRead : SocketOperation := 1

def operationWrite : SocketOperation := 2

def operationConnect : SocketOperation := 2

/-- `set & operation`, as a condition. -/
def has (set operation : SocketOperation) : Bool := set &&& operation != 0

abbrev Socket := Nat

/-- `_registered` and `_disabled` of a handler. -/
structure Flags where
  registered : SocketOperation
  disabled : SocketOperation
deriving DecidableEq

def Flags.none : Flags := ⟨operationNone, operationNone⟩

/-- `_registered & ~_disabled` -/
def Flags.status (flags : Flags) : SocketOperation := flags.registered &&& ~~~flags.disabled

def Flags.register (flags : Flags) (remove add : SocketOperation) : Flags :=
  { flags with registered := (flags.registered &&& ~~~remove) ||| add }

def Flags.enable (flags : Flags) (operation : SocketOperation) : Flags :=
  { flags with disabled := flags.disabled &&& ~~~operation }

def Flags.disable (flags : Flags) (operation : SocketOperation) : Flags :=
  { flags with disabled := flags.disabled ||| operation }

/-- What the selector is told to watch for a handler, if anything. -/
def Flags.told (flags : Flags) : Option SocketOperation :=
  if flags.status = 0 then .none else some flags.status

inductive Event (η : Type) where
  | update (handler : η) (remove add : SocketOperation)
  | enable (handler : η) (operation : SocketOperation)
  | disable (handler : η) (operation : SocketOperation)
  | finish (handler : η)
  | startSelect
  | finishSelect
deriving DecidableEq

variable {η : Type}

def Event.proper (flags : η → Flags) : Event η → Prop
  | .update handler remove _ => remove &&& (flags handler).registered = remove
  | _ => True

instance (flags : η → Flags) : (event : Event η) → Decidable (event.proper flags)
  | .update handler remove _ =>
      inferInstanceAs (Decidable (remove &&& (flags handler).registered = remove))
  | .enable _ _ => isTrue trivial
  | .disable _ _ => isTrue trivial
  | .finish _ => isTrue trivial
  | .startSelect => isTrue trivial
  | .finishSelect => isTrue trivial

variable {flags : Flags} {operation : SocketOperation}

theorem status_enable_unregistered (unregistered : has flags.registered operation = false) :
    (flags.enable operation).status = flags.status := by
  obtain ⟨registered, disabled⟩ := flags
  revert registered disabled operation
  decide

theorem status_disable_unregistered (unregistered : has flags.registered operation = false) :
    (flags.disable operation).status = flags.status := by
  obtain ⟨registered, disabled⟩ := flags
  revert registered disabled operation
  decide

theorem status_none : Flags.none.status = 0 := by decide

theorem told_none (nothing : flags.status = 0) : flags.told = .none :=
  if_pos nothing

theorem told_some (something : flags.status ≠ 0) : flags.told = some flags.status :=
  if_neg something

end IceTouch.Selecting
