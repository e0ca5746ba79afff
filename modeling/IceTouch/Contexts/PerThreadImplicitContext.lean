import IceTouch.Contexts.SharedImplicitContext
import IceTouch.Library.Machine
import Mathlib.Data.List.DropRight
import Mathlib.Logic.Function.Basic

/-!
# The contexts of each thread

`PerThreadImplicitContext`, the static data its instances share, and the slot vector of each
thread. Instances are known by the order of their creation. The counter of the ids is a `long`;
what its overflow does is not defined, and is a fault here.
-/

namespace IceTouch.Contexts

open ByteOrder WireTypes OrderedMap

/-- A slot of a `SlotVector`; `context` is a pointer that may be null. -/
structure Slot where
  context : Option Context
  owner : Int
deriving DecidableEq, Repr

/-- `Slot()`. -/
def Slot.empty : Slot := ⟨none, -1⟩

structure PerThreadImplicitContext where
  index : Nat
  id : Nat
deriving DecidableEq, Repr

inductive Fault where
  /-- There is no such instance, or none any more. -/
  | notLive
  /-- A null context is used. -/
  | nullContext
  /-- `_nextId` is the largest `long`. -/
  | idOverflow
deriving DecidableEq, Repr

structure Process (θ : Type) where
  indexInUse : Option (List Bool)
  nextId : Nat
  instances : List (Option PerThreadImplicitContext)
  slotVectors : θ → Option (List Slot)

inductive Operation (θ : Type) where
  | create
  | destroy (number : Nat)
  | call (thread : θ) (number : Nat) (call : Call)
  /-- The thread ends. -/
  | exit (thread : θ)
deriving DecidableEq, Repr

/-- `resize` of a `SlotVector`. -/
def resize (size : Nat) (slots : List Slot) : List Slot :=
  slots.take size ++ List.replicate (size - slots.length) .empty

namespace PerThreadImplicitContext

/-- The second half of `getThreadContext`, which looks at the slot. -/
def useSlot (this : PerThreadImplicitContext) (allocate : Bool) (slots : List Slot) :
    Option Context × Option (List Slot) :=
  let slot := slots.getD this.index .empty
  match slot.context with
  | some context =>
      -- "Reuse the slot from another (dead) communicator"
      if slot.owner ≠ this.id then (some [], some (slots.set this.index ⟨some [], this.id⟩))
      else (some context, some slots)
  | none =>
      if allocate then (some [], some (slots.set this.index ⟨some [], this.id⟩))
      else (none, some slots)

def getThreadContext (this : PerThreadImplicitContext) (allocate : Bool) :
    Option (List Slot) → Option Context × Option (List Slot)
  | none =>
      if !allocate then (none, none)
      else useSlot this allocate (List.replicate (this.index + 1) .empty)
  | some slots =>
      if slots.length ≤ this.index then
        if !allocate then (none, some slots)
        else useSlot this allocate (resize (this.index + 1) slots)
      else useSlot this allocate slots

/-- A change of the context through the pointer from `getThreadContext`. -/
def assignContext (this : PerThreadImplicitContext) (context : Context) :
    Option (List Slot) → Option (List Slot)
  | none => none
  | some slots =>
      some (slots.set this.index { slots.getD this.index .empty with context := some context })

def clearThreadContext (this : PerThreadImplicitContext) :
    Option (List Slot) → Option (List Slot)
  | none => none
  | some slots =>
      if this.index < slots.length then
        let cleared :=
          slots.set this.index { slots.getD this.index .empty with context := none }
        -- "Trim tailing empty contexts."
        let trimmed := cleared.rdropWhile fun slot => slot.context.isNone
        if trimmed.isEmpty then none else some trimmed
      else some slots

/-- What `write` writes and `combine` assigns. -/
def combined (proxyCtx : Context) : Option Context → Context
  | none => proxyCtx
  | some threadCtx =>
      if threadCtx.isEmpty then proxyCtx
      else if proxyCtx.isEmpty then threadCtx
      else insertAll threadCtx proxyCtx

def setContext (this : PerThreadImplicitContext) (newContext : Context)
    (vector : Option (List Slot)) : Except Fault (Result × Option (List Slot)) :=
  if newContext.isEmpty then .ok (.done, clearThreadContext this vector)
  else
    let found := getThreadContext this true vector
    match found.1 with
    | none => .error .nullContext
    | some _ => .ok (.done, assignContext this newContext found.2)

def put (this : PerThreadImplicitContext) (key value : Str) (vector : Option (List Slot)) :
    Except Fault (Result × Option (List Slot)) :=
  let found := getThreadContext this true vector
  match found.1 with
  | none => .error .nullContext
  | some context =>
      .ok (.value ((find key context).getD []),
        assignContext this (assign key value context) found.2)

def remove (this : PerThreadImplicitContext) (key : Str) (vector : Option (List Slot)) :
    Result × Option (List Slot) :=
  let found := getThreadContext this false vector
  match found.1 with
  | none => (.value [], found.2)
  | some context =>
      match find key context with
      | none => (.value [], found.2)
      | some oldVal =>
          let erased := erase key context
          let assigned := assignContext this erased found.2
          (.value oldVal, if erased.isEmpty then clearThreadContext this assigned else assigned)

def call (this : PerThreadImplicitContext) (vector : Option (List Slot)) :
    Call → Except Fault (Result × Option (List Slot))
  | .getContext =>
      let found := getThreadContext this false vector
      .ok (.context (found.1.getD []), found.2)
  | .setContext newContext => setContext this newContext vector
  | .containsKey key =>
      let found := getThreadContext this false vector
      match found.1 with
      | none => .ok (.present false, found.2)
      | some context => .ok (.present (find key context).isSome, found.2)
  | .get key =>
      let found := getThreadContext this false vector
      match found.1 with
      | none => .ok (.value [], found.2)
      | some context => .ok (.value ((find key context).getD []), found.2)
  | .put key value => put this key value vector
  | .remove key => .ok (remove this key vector)
  | .write proxyCtx =>
      let found := getThreadContext this false vector
      .ok (.written (combined proxyCtx found.1), found.2)
  | .combine proxyCtx =>
      let found := getThreadContext this false vector
      .ok (.context (combined proxyCtx found.1), found.2)

end PerThreadImplicitContext

namespace Process

variable {θ : Type} [DecidableEq θ]

def initial : Process θ := ⟨none, 0, [], fun _ => none⟩

def create (process : Process θ) : Process θ :=
  let inUse := process.indexInUse.getD [false]
  let index := (inUse.takeWhile id).length
  let grown := if index = inUse.length then inUse ++ [false] else inUse
  { process with
    nextId := process.nextId + 1
    indexInUse := some (grown.set index true)
    instances := process.instances ++ [some ⟨index, process.nextId⟩] }

def destroy (number : Nat) (this : PerThreadImplicitContext) (process : Process θ) : Process θ :=
  let inUse := (process.indexInUse.getD []).set this.index false
  { process with
    indexInUse := if inUse.contains true then some inUse else none
    instances := process.instances.set number none }

def step (longMax : Nat) : Operation θ → Process θ → Except Fault (Result × Process θ)
  | .create, process =>
      if process.nextId < longMax then .ok (.done, process.create) else .error .idOverflow
  | .destroy number, process =>
      match process.instances[number]? with
      | some (some this) => .ok (.done, process.destroy number this)
      | _ => .error .notLive
  | .call thread number call, process =>
      match process.instances[number]? with
      | some (some this) =>
          (this.call (process.slotVectors thread) call).map fun result =>
            (result.1, { process with
              slotVectors := Function.update process.slotVectors thread result.2 })
      | _ => .error .notLive
  -- `iceImplicitContextThreadDestructor` deletes the contexts and the vector.
  | .exit thread, process =>
      .ok (.done, { process with slotVectors := Function.update process.slotVectors thread none })

end Process

end IceTouch.Contexts
