import IceTouch.Library.ByteOrder
import IceTouch.Library.OrderedMap
import IceTouch.WireTypes
import Mathlib.Logic.Function.Basic

/-!
# `MetricsMapT`

The metrics objects of one map, and the queue of those that no observer holds any more. An
entry is its number; a node of `_detachedQueue` has a number of its own, and `_detachedPos` is
the node it points to, or `none` where it is `end()`.
-/

namespace IceTouch.Metrics

open ByteOrder WireTypes OrderedMap

/-- The values of the attributes; `none` is an attribute that throws. -/
abbrev Helper := Str → Option Str

structure RegExp where
  attr : Str
  regex : Str → Bool

def RegExp.match_ (rule : RegExp) (helper : Helper) (reject : Bool) : Bool :=
  match helper rule.attr with
  | none => !reject
  | some value => rule.regex value

/-- What a map takes from the properties when it is constructed. -/
structure Settings where
  accept : List RegExp
  reject : List RegExp
  groupByAttributes : List Str
  groupBySeparators : List Str
  retain : Int

def Settings.accepts (settings : Settings) (helper : Helper) : Bool :=
  settings.accept.all (fun rule => rule.match_ helper false) &&
    !settings.reject.any (fun rule => rule.match_ helper true)

/-- Values and separators in turn, until the attributes end. -/
def grouped (helper : Helper) : List Str → List Str → Option Str
  | [], _ => some []
  | attr :: attributes, separators =>
      match helper attr, grouped helper attributes separators.tail with
      | some value, some rest => some (value ++ separators.headD [] ++ rest)
      | _, _ => none

def Settings.key (settings : Settings) (helper : Helper) : Option Str :=
  match settings.groupByAttributes with
  | [attr] => helper attr
  | attributes => grouped helper attributes settings.groupBySeparators

structure Entry where
  id : Str
  total : Int
  current : Int
  totalLifetime : Int
  detachedPos : Option Nat
deriving DecidableEq

def Entry.isDetached (entry : Entry) : Bool :=
  entry.current = 0

def Entry.attach (entry : Entry) : Entry :=
  { entry with total := entry.total + 1, current := entry.current + 1 }

def Entry.detach (lifetime : Int) (entry : Entry) : Entry :=
  { entry with
    totalLifetime := entry.totalLifetime + lifetime
    current := entry.current - 1 }

/-- The object is constructed with its key, and its position at the end of the queue. -/
def Entry.new (key : Str) : Entry :=
  { id := key, total := 0, current := 0, totalLifetime := 0, detachedPos := none }

structure Node where
  pos : Nat
  entry : Nat
deriving DecidableEq

structure MetricsMap where
  settings : Settings
  destroyed : Bool
  objects : List (Str × Nat)
  entries : Nat → Entry
  created : Nat
  detachedQueue : List Node
  nextPos : Nat

inductive Fault where
  | assertion
  /-- The position is that of a node which is no longer in the queue. -/
  | dangling
deriving DecidableEq

namespace MetricsMap

def new (settings : Settings) : MetricsMap :=
  { settings
    destroyed := false
    objects := []
    entries := fun _ => Entry.new []
    created := 0
    detachedQueue := []
    nextPos := 0 }

def destroy (map : MetricsMap) : MetricsMap :=
  { map with destroyed := true, objects := [], detachedQueue := [] }

def change (id : Nat) (entry : Entry) (map : MetricsMap) : MetricsMap :=
  { map with entries := Function.update map.entries id entry }

@[simp]
theorem change_self (id : Nat) (entry : Entry) (map : MetricsMap) :
    (map.change id entry).entries id = entry := by
  simp [change]

theorem change_other {id other : Nat} (different : other ≠ id) (entry : Entry) (map : MetricsMap) :
    (map.change id entry).entries other = map.entries other := by
  simp [change, different]

def stored (key : Str) (map : MetricsMap) : Nat × MetricsMap :=
  match find key map.objects with
  | some id => (id, map)
  | none =>
      (map.created,
        { map with
          objects := insert key map.created map.objects
          entries := Function.update map.entries map.created (Entry.new key)
          created := map.created + 1 })

def attached (key : Str) (map : MetricsMap) : Nat × MetricsMap :=
  let found := map.stored key
  (found.1, found.2.change found.1 (found.2.entries found.1).attach)

/-- The part of `getMatching` that holds the lock. -/
def lookup (key : Str) (previous : Option Nat) (map : MetricsMap) :
    Except Fault (Option Nat × MetricsMap) :=
  if map.destroyed then
    .ok (none, map)
  else
    match previous.filter fun id => (map.entries id).id = key with
    | some id => if find key map.objects = some id then .ok (some id, map) else .error .assertion
    | none => .ok (some (map.attached key).1, (map.attached key).2)

def getMatching (helper : Helper) (previous : Option Nat) (map : MetricsMap) :
    Except Fault (Option Nat × MetricsMap) :=
  if map.settings.accepts helper then
    match map.settings.key helper with
    | none => .ok (none, map)
    | some key => map.lookup key previous
  else
    .ok (none, map)

def full (map : MetricsMap) : Bool :=
  (map.detachedQueue.length : Int) = map.settings.retain

def compressed (entries : Nat → Entry) : List Node → (Nat → Entry) × List Node
  | [] => (entries, [])
  | node :: rest =>
      if (entries node.entry).isDetached then
        let result := compressed entries rest
        (result.1, node :: result.2)
      else
        compressed
          (Function.update entries node.entry { entries node.entry with detachedPos := none }) rest

def compress (map : MetricsMap) : MetricsMap :=
  if map.full then
    let result := compressed map.entries map.detachedQueue
    { map with entries := result.1, detachedQueue := result.2 }
  else
    map

def makeRoom (map : MetricsMap) : MetricsMap :=
  if map.full then
    match map.detachedQueue with
    | [] => map
    | oldest :: rest =>
        { map with
          objects := erase (map.entries oldest.entry).id map.objects
          detachedQueue := rest }
  else
    map

def enqueue (id : Nat) (map : MetricsMap) : MetricsMap :=
  { map with
    entries := Function.update map.entries id
      { map.entries id with detachedPos := some map.nextPos }
    detachedQueue := map.detachedQueue ++ [{ pos := map.nextPos, entry := id }]
    nextPos := map.nextPos + 1 }

/-- `splice` moves the node itself, so its position stays that of the entry. -/
def moveToBack (pos : Nat) (map : MetricsMap) : Except Fault MetricsMap :=
  match map.detachedQueue.find? fun node => node.pos = pos with
  | none => .error .dangling
  | some node =>
      if map.detachedQueue.getLast? = some node then
        .ok map
      else
        .ok { map with detachedQueue := map.detachedQueue.filter (· ≠ node) ++ [node] }

def detached (id : Nat) (map : MetricsMap) : Except Fault MetricsMap :=
  if map.settings.retain = 0 ∨ map.destroyed then
    .ok map
  else if map.settings.retain < map.detachedQueue.length then
    .error .assertion
  else
    match (map.entries id).detachedPos with
    | some pos => map.moveToBack pos
    | none => .ok (map.compress.makeRoom.enqueue id)

/-- `EntryT::detach`. -/
def detach (id : Nat) (lifetime : Int) (map : MetricsMap) : Except Fault MetricsMap :=
  let after := map.change id ((map.entries id).detach lifetime)
  if (after.entries id).isDetached then after.detached id else .ok after

end MetricsMap

end IceTouch.Metrics
