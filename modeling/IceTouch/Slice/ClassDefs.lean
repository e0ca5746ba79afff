import IceTouch.Strings.Escape
import Mathlib.Data.List.Dedup

/-!
# Classes and interfaces in the Slice parser

The definitions of a unit with their bases and contents, and the checks that the parser makes
when it creates them: `checkBasesAreLegal`, `createOperation` and `createDataMember`. A definition
is identified by its scoped name, and its bases are defined before it.
-/

namespace IceTouch.Slice.Classes

open Bytes WireTypes Escape

/-- `::tolower`. -/
def tolower (char : Byte) : Byte := if 65 ≤ char ∧ char ≤ 90 then char + 32 else char

/-- `IceUtilInternal::toLower`. -/
def toLower (s : Str) : Str := s.map tolower

/-- `CICompare`. -/
def ciCompare : Str → Str → Bool
  | [], [] => false
  | [], _ :: _ => true
  | _ :: _, [] => false
  | p1 :: s1, p2 :: s2 =>
      if tolower p1 = tolower p2 then ciCompare s1 s2 else decide (tolower p1 < tolower p2)

theorem ci_compare_neither (s1 s2 : Str) :
    (ciCompare s1 s2 = false ∧ ciCompare s2 s1 = false) ↔ toLower s1 = toLower s2 := by
  induction s1 generalizing s2 with
  | nil => cases s2 <;> simp [ciCompare, toLower]
  | cons p1 s1 ih =>
      cases s2 with
      | nil => simp [ciCompare, toLower]
      | cons p2 s2 =>
          have split : toLower (p1 :: s1) = toLower (p2 :: s2) ↔
              tolower p1 = tolower p2 ∧ toLower s1 = toLower s2 := by
            simp [toLower]
          rw [split, ciCompare, ciCompare]
          by_cases same : tolower p1 = tolower p2
          · rw [if_pos same, if_pos same.symm, ih]
            exact ⟨fun both => ⟨same, both⟩, And.right⟩
          · rw [if_neg same, if_neg (Ne.symm same)]
            constructor
            · rintro ⟨notLess, notGreater⟩
              have upper := of_decide_eq_false notLess
              have lower := of_decide_eq_false notGreater
              exact absurd (UInt8.le_antisymm (UInt8.not_lt.mp lower) (UInt8.not_lt.mp upper)) same
            · exact fun both => absurd both.1 same

inductive Kind where
  | operation
  | dataMember
deriving DecidableEq, Repr

structure Contained where
  kind : Kind
  name : Str
deriving DecidableEq, Repr

/-- The definitions of a unit. `order` is their order in it. A class has at most one base class,
which comes first, and the bases of an interface are interfaces. -/
structure Definitions (ι : Type) where
  name : ι → Str
  isInterface : ι → Bool
  isLocal : ι → Bool
  bases : ι → List ι
  contents : ι → List Contained
  order : ι → Nat
  ordered : ∀ definition, ∀ base ∈ bases definition, order base < order definition
  extended : ∀ definition, isInterface definition = true →
    ∀ base ∈ bases definition, isInterface base = true
  implemented : ∀ definition, ∀ base ∈ (bases definition).tail, isInterface base = true

section Definitions

variable {ι : Type} [DecidableEq ι] (unit : Definitions ι)

def operations (definition : ι) : List Contained :=
  (unit.contents definition).filter fun contained => contained.kind = .operation

def dataMembers (definition : ι) : List Contained :=
  (unit.contents definition).filter fun contained => contained.kind = .dataMember

/-- The operations of a definition and of its bases to some depth, each once. The parser keeps
them sorted by their scoped names, which decides on the order of the errors only. -/
def operationsTo : Nat → ι → List (ι × Contained)
  | 0, _ => []
  | depth + 1, definition =>
      ((operations unit definition).map (Prod.mk definition) ++
        (unit.bases definition).flatMap (operationsTo depth)).dedup

def dataMembersTo : Nat → ι → List Contained
  | 0, _ => []
  | depth + 1, definition =>
      (match (unit.bases definition).head? with
        | some base => if unit.isInterface base then [] else dataMembersTo depth base
        | none => []) ++ dataMembers unit definition

def allOperations (definition : ι) : List (ι × Contained) :=
  operationsTo unit (unit.order definition + 1) definition

def allDataMembers (definition : ι) : List Contained :=
  dataMembersTo unit (unit.order definition + 1) definition

end Definitions

inductive SliceError where
  | other (message : Str)
  | assertion
  | differs (kind : Kind) (name : Str) (otherKind : Kind) (other : Str)
  | redefinition (otherKind : Kind) (other : Str) (kind : Kind) (name : Str)
  | enclosing (isInterface : Bool) (name : Str) (kind : Kind)
  | differsFromEnclosing (kind : Kind) (name : Str) (isInterface : Bool) (other : Str)
  | inherited (kind : Kind) (name : Str) (otherKind : Kind)
  | differsFromInherited (kind : Kind) (name : Str) (otherKind : Kind) (other : Str)
  | localBase (isLocal isInterface : Bool) (name : Str) (baseIsInterface : Bool) (base : Str)
  | ambiguous (name operation : Str)
  | ambiguousDiffers (name first second : Str)
deriving DecidableEq, Repr

def Kind.kindOf : Kind → Str
  | .operation => text "operation"
  | .dataMember => text "data member"

def interfaceOrClass (isInterface : Bool) : Str :=
  if isInterface then text "interface" else text "class"

def localOrNot (isLocal : Bool) : Str := if isLocal then text "local" else text "non-local"

def SliceError.text : SliceError → Str
  | .other message => message
  | .assertion => []
  | .differs kind name otherKind previous =>
      kind.kindOf ++ Escape.text " `" ++ name ++ Escape.text "' differs only in capitalization from " ++
        otherKind.kindOf ++ Escape.text " `" ++ previous ++ Escape.text "'"
  | .redefinition otherKind previous kind name =>
      Escape.text "redefinition of " ++ otherKind.kindOf ++ Escape.text " `" ++ previous ++
        Escape.text "' as " ++ kind.kindOf ++ Escape.text " `" ++ name ++ Escape.text "'"
  | .enclosing isInterface name kind =>
      interfaceOrClass isInterface ++ Escape.text " name `" ++ name ++
        Escape.text "' cannot be used as " ++ kind.kindOf ++ Escape.text " name"
  | .differsFromEnclosing kind name isInterface scope =>
      kind.kindOf ++ Escape.text " `" ++ name ++
        Escape.text "' differs only in capitalization from enclosing " ++ interfaceOrClass isInterface ++
        Escape.text " name `" ++ scope ++ Escape.text "'"
  | .inherited kind name otherKind =>
      kind.kindOf ++ Escape.text " `" ++ name ++ Escape.text "' is already defined as a" ++
        (if otherKind = .operation then Escape.text "n " else Escape.text " ") ++ otherKind.kindOf ++
        Escape.text " in a base interface or class"
  | .differsFromInherited kind name otherKind previous =>
      kind.kindOf ++ Escape.text " `" ++ name ++ Escape.text "' differs only in capitalization from " ++
        otherKind.kindOf ++ Escape.text " `" ++ previous ++
        Escape.text "', which is defined in a base interface or class"
  | .localBase isLocal isInterface name baseIsInterface base =>
      localOrNot isLocal ++ Escape.text " " ++ interfaceOrClass isInterface ++ Escape.text " `" ++ name ++
        Escape.text "' cannot have " ++ localOrNot (!isLocal) ++ Escape.text " base " ++
        interfaceOrClass baseIsInterface ++ Escape.text " `" ++ base ++ Escape.text "'"
  | .ambiguous name operation =>
      Escape.text "ambiguous multiple inheritance: `" ++ name ++ Escape.text "' inherits operation `" ++
        operation ++ Escape.text "' from two or more unrelated base interfaces"
  | .ambiguousDiffers name first second =>
      Escape.text "ambiguous multiple inheritance: `" ++ name ++ Escape.text "' inherits operations `" ++
        first ++ Escape.text "' and `" ++ second ++
        Escape.text "', which differ only in capitalization, from unrelated base interfaces"

def SliceError.isAmbiguity : SliceError → Bool
  | .ambiguous _ _ => true
  | .ambiguousDiffers _ _ _ => true
  | _ => false

section Partitions

variable {ι : Type} [DecidableEq ι] (unit : Definitions ι)

def isInList (gpl : List (List ι)) (cdp : ι) : Bool := gpl.any fun partition => partition.contains cdp

/-- `tail->push_back(base)`: `tail` is the last partition whenever it is used. -/
def pushBack : List (List ι) → ι → List (List ι)
  | [], _ => []
  | [tail], base => [tail ++ [base]]
  | partition :: rest, base => partition :: pushBack rest base

/-- `addPartition` to some depth. Each grand base but the first gets a partition of its own. -/
def addPartition : Nat → List (List ι) → ι → List (List ι)
  | 0, gpl, _ => gpl
  | depth + 1, gpl, base =>
      if isInList gpl base then
        gpl
      else
        let gpl := pushBack gpl base
        match unit.bases base with
        | [] => gpl
        | first :: grandBases =>
            grandBases.foldl (fun gpl grandBase => addPartition depth (gpl ++ [[]]) grandBase)
              (addPartition depth gpl first)

def partitions (bases : List ι) : List (List ι) :=
  bases.foldl (fun gpl base => addPartition unit (unit.order base + 1) (gpl ++ [[]]) base) []

def toStringPartitionList (gpl : List (List ι)) : List (List Str) :=
  gpl.map fun partition => partition.flatMap fun definition =>
    (operations unit definition).map Contained.name

end Partitions

/-- One round of the innermost loop, with `reported` and the errors so far. -/
def checkPair (name : Str) (found : List Str × List SliceError) (pair : Str × Str) :
    List Str × List SliceError :=
  if pair.1 = pair.2 ∧ ¬ found.1.contains pair.1 then
    (pair.1 :: found.1, found.2 ++ [.ambiguous name pair.1])
  else if ciCompare pair.1 pair.2 = false ∧ ciCompare pair.2 pair.1 = false ∧
      ¬ found.1.contains pair.1 ∧ ¬ found.1.contains pair.2 then
    (pair.2 :: pair.1 :: found.1, found.2 ++ [.ambiguousDiffers name pair.1 pair.2])
  else
    found

def pairs : List (List Str) → List (Str × Str)
  | [] => []
  | i :: rest => rest.flatMap (fun j => i.flatMap fun s1 => j.map fun s2 => (s1, s2)) ++ pairs rest

def checkPairIntersections (l : List (List Str)) (name : Str) : List SliceError :=
  ((pairs l).foldl (checkPair name) ([], [])).2

section Legal

variable {ι : Type} [DecidableEq ι] (unit : Definitions ι)

def checkBasesAreLegal (name : Str) (isInterface isLocal : Bool) (bases : List ι) : List SliceError :=
  (bases.filter fun base => isLocal ≠ unit.isLocal base).map (fun base =>
      .localBase isLocal isInterface name (unit.isInterface base) (unit.name base)) ++
    if 1 < bases.length then
      checkPairIntersections (toStringPartitionList unit (partitions unit bases)) name
    else
      []

/-- What the parser asks for, with what the checks report that look at its name or its types
alone. `excluded` is the error for a value object in the IceE profile. -/
structure Request where
  kind : Kind
  name : Str
  excluded : Option Str
  identifier : List Str
  types : List Str

abbrev Checked := List SliceError × Bool

def Checked.andThen (first next : Checked) : Checked :=
  if first.2 then first else (first.1 ++ next.1, next.2)

def matching (before : List Contained) (name : Str) : Option Contained :=
  before.find? fun contained => toLower contained.name = toLower name

def checkOperation (ignRedefs : Bool) (before : List Contained) (name : Str) : Checked :=
  match matching before name with
  | none => ([], false)
  | some first =>
      if first.kind = .operation ∧ ignRedefs then
        ([], true)
      else
        ((if first.name ≠ name then [.differs .operation name first.kind first.name] else []) ++
          [.redefinition first.kind first.name .operation name], true)

def checkDataMember (ignRedefs : Bool) (before : List Contained) (name : Str) : Checked :=
  match matching before name with
  | none => ([], false)
  | some first =>
      if first.kind = .dataMember ∧ ignRedefs then
        ([], true)
      else if first.name ≠ name then
        ([.differs .dataMember name first.kind first.name], false)
      else
        ([.redefinition first.kind first.name .dataMember name], true)

def checkEnclosing (isInterface : Bool) (enclosing : Str) (kind : Kind) (name : Str) : Checked :=
  if name = enclosing then
    ([.enclosing isInterface name kind], true)
  else if toLower name = toLower enclosing then
    ([.differsFromEnclosing kind name isInterface enclosing], false)
  else
    ([], false)

def checkInherited (kind : Kind) (name : Str) : List Contained → Checked
  | [] => ([], false)
  | q :: rest =>
      if q.name = name then
        ([.inherited kind name q.kind], true)
      else if toLower q.name = toLower name then
        Checked.andThen ([.differsFromInherited kind name q.kind q.name], false)
          (checkInherited kind name rest)
      else
        checkInherited kind name rest

def inherited (definition : ι) : List Contained :=
  (unit.bases definition).flatMap fun base =>
    (allOperations unit base).map Prod.snd ++ allDataMembers unit base

def checkNames (definition : ι) (request : Request) : Checked :=
  (checkEnclosing (unit.isInterface definition) (unit.name definition) request.kind request.name).andThen
    ((checkInherited request.kind request.name (inherited unit definition)).andThen
      (request.types.map .other, false))

/-- The contents are appended to unless the checks return. -/
def created (before : List Contained) (request : Request) (checked : Checked) :
    List SliceError × List Contained :=
  (checked.1, if checked.2 then before else before ++ [⟨request.kind, request.name⟩])

def createOperation (ignRedefs : Bool) (definition : ι) (before : List Contained) (request : Request) :
    List SliceError × List Contained :=
  created before request <|
    Checked.andThen (request.identifier.map .other, false) <|
      (checkOperation ignRedefs before request.name).andThen (checkNames unit definition request)

def createDataMember (ignRedefs : Bool) (definition : ι) (before : List Contained) (request : Request) :
    List SliceError × List Contained :=
  created before request <|
    Checked.andThen (request.identifier.map .other, false) <|
      match request.excluded with
      | some message => ([.other message], true)
      | none =>
          if unit.isInterface definition then
            ([.assertion], true)
          else
            (checkDataMember ignRedefs before request.name).andThen (checkNames unit definition request)

def create (ignRedefs : Bool) (definition : ι) (before : List Contained) (request : Request) :
    List SliceError × List Contained :=
  match request.kind with
  | .operation => createOperation unit ignRedefs definition before request
  | .dataMember => createDataMember unit ignRedefs definition before request

def createAll (ignRedefs : Bool) (definition : ι) :
    List Contained → List Request → List SliceError × List Contained
  | before, [] => ([], before)
  | before, request :: rest =>
      let (errors, contents) := create unit ignRedefs definition before request
      let (others, final) := createAll ignRedefs definition contents rest
      (errors ++ others, final)

/-- A definition for which no check reported anything, and whose bases are accepted. -/
inductive Accepted (ignRedefs : Bool) : ι → Prop
  | defined (definition : ι) (requests : List Request)
      (bases : ∀ base ∈ unit.bases definition, Accepted ignRedefs base)
      (legal : checkBasesAreLegal unit (unit.name definition) (unit.isInterface definition)
        (unit.isLocal definition) (unit.bases definition) = [])
      (contents : createAll unit ignRedefs definition [] requests = ([], unit.contents definition)) :
      Accepted ignRedefs definition

end Legal

end IceTouch.Slice.Classes
