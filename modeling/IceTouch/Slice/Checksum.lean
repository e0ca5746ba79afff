import IceTouch.Slice.Names
import IceTouch.Slice.Types
import Mathlib.Data.List.Sort

/-!
# Slice checksums

The text that `ChecksumVisitor` makes of a class, an interface or an exception before it hashes
it. Only non-local definitions have one, in which the parser allows no local type; the built-in
types are therefore those without `LocalObject`.
-/

namespace IceTouch.Slice.Checksum

open Bytes WireTypes Escape Scanning

inductive TypeRef where
  | builtin (kind : Builtin.Kind)
  | proxy (definition : Scoped)
  | contained (name : Scoped)
deriving DecidableEq

def builtinTable : Builtin.Kind → Str
  | .byte => text "byte"
  | .bool => text "boolean"
  | .short => text "short"
  | .int => text "int"
  | .long => text "long"
  | .float => text "float"
  | .double => text "double"
  | .string => text "string"
  | .object => text "Object"
  | .objectProxy => text "Object*"

/-- A null type is `void`. -/
def typeToString : Option TypeRef → Str
  | none => text "void"
  | some (.builtin kind) => builtinTable kind
  | some (.proxy definition) => definition.name ++ text "*"
  | some (.contained name) => name.name

structure DataMember where
  type : TypeRef
  name : Identifier
  tag : Option Nat
deriving DecidableEq

structure ParamDecl where
  isOutParam : Bool
  type : TypeRef
  name : Identifier
  tag : Option Nat
deriving DecidableEq

/-- The parser refuses a tag that another parameter has. -/
structure Operation where
  returnType : Option TypeRef
  returnTag : Option Nat
  name : Identifier
  parameters : List ParamDecl
  throws : List Scoped
  distinct : (parameters.filterMap ParamDecl.tag).Nodup

structure Base where
  scopedName : Scoped
  isInterface : Bool
deriving DecidableEq

/-- `compactId` is -1 for a definition without one. Only the first base of a class may be a
class. -/
structure ClassDef where
  isInterface : Bool
  name : Identifier
  compactId : Int
  bases : List Base
  dataMembers : List DataMember
  operations : List Operation
  identified : -1 ≤ compactId
  extended : isInterface = true → ∀ base ∈ bases, base.isInterface = true
  implemented : ∀ base ∈ bases.tail, base.isInterface = true
  distinct : (dataMembers.filterMap DataMember.tag).Nodup

structure Exception where
  name : Identifier
  base : Option Scoped
  dataMembers : List DataMember
  distinct : (dataMembers.filterMap DataMember.tag).Nodup

inductive Definition where
  | classDef (p : ClassDef)
  | exception (p : Exception)

def endl : Str := [10]

def commaSeparated : List Scoped → Str
  | [] => []
  | first :: rest => first.name ++ rest.flatMap fun next => text ", " ++ next.name

/-- `optionals.sort(SortFn::compare)`, a stable sort by tag. -/
def sortedOptionals {α : Type} (tag : α → Option Nat) (items : List α) : List α :=
  (items.filter fun item => (tag item).isSome).insertionSort fun lhs rhs =>
    (tag lhs).getD 0 ≤ (tag rhs).getD 0

/-- `ostr << tag << ' '`, where there is a tag. -/
def tagText : Option Nat → Str
  | none => []
  | some tag => decimal tag ++ text " "

def requiredMembers : List DataMember → Str
  | [] => []
  | q :: rest =>
      match q.tag with
      | some _ => requiredMembers rest
      | none => typeToString (some q.type) ++ text " " ++ q.name.name ++ endl ++ requiredMembers rest

/-- Nothing ends an optional data member. -/
def optionalMembers (optionals : List DataMember) : Str :=
  optionals.flatMap fun q => typeToString (some q.type) ++ text " " ++ tagText q.tag ++ q.name.name

def membersText (members : List DataMember) : Str :=
  requiredMembers members ++ optionalMembers (sortedOptionals DataMember.tag members)

def outText (isOutParam : Bool) : Str := if isOutParam then text "out " else []

/-- The loop over the parameters. `begin` is true at the first of all parameters. -/
def requiredParams (begin : Bool) : List ParamDecl → Str
  | [] => []
  | r :: rest =>
      match r.tag with
      | some _ => requiredParams false rest
      | none =>
          (if begin then [] else text ", ") ++ outText r.isOutParam ++ typeToString (some r.type) ++
            text " " ++ r.name.name ++ requiredParams false rest

/-- The loop over the optional parameters. `more` is true when there are required ones. -/
def optionalParams (more begin : Bool) : List ParamDecl → Str
  | [] => []
  | r :: rest =>
      (if !begin || more then text ", " else []) ++ outText r.isOutParam ++
        typeToString (some r.type) ++ text " " ++ tagText r.tag ++ r.name.name ++
        optionalParams more false rest

def paramsText (params : List ParamDecl) : Str :=
  let optionals := sortedOptionals ParamDecl.tag params
  requiredParams true params ++
    optionalParams (decide (optionals.length < params.length)) true optionals

def throwsText (ex : List Scoped) : Str :=
  if ex = [] then [] else text " throws " ++ commaSeparated ex

def operationText (q : Operation) : Str :=
  typeToString q.returnType ++ text " " ++ tagText q.returnTag ++ q.name.name ++ text "(" ++
    paramsText q.parameters ++ text ")" ++ throwsText q.throws ++ endl

def basesText (isInterface : Bool) (bases : List Base) : Str :=
  match bases with
  | [] => []
  | front :: rest =>
      if front.isInterface then
        (if isInterface then text " extends " else text " implements ") ++
          commaSeparated (bases.map Base.scopedName)
      else
        text " extends " ++ front.scopedName.name ++
          if rest = [] then
            []
          else
            (if isInterface then text " extends " else text " implements ") ++
              commaSeparated (rest.map Base.scopedName)

def compactIdText (compactId : Int) : Str :=
  if 0 ≤ compactId then text "(" ++ printInt compactId ++ text ")" else []

def visitClassDefStart (p : ClassDef) : Str :=
  (if p.isInterface then text "interface " else text "class ") ++ p.name.name ++
    compactIdText p.compactId ++ basesText p.isInterface p.bases ++ endl ++
    membersText p.dataMembers ++ p.operations.flatMap operationText

def visitExceptionStart (p : Exception) : Str :=
  text "exception " ++ p.name.name ++
    (match p.base with
      | some base => text " extends " ++ base.name
      | none => []) ++
    endl ++ membersText p.dataMembers

def checksumText : Definition → Str
  | .classDef p => visitClassDefStart p
  | .exception p => visitExceptionStart p

def required {α : Type} (tag : α → Option Nat) (items : List α) : List α :=
  items.filter fun item => (tag item).isNone

structure SameItems {α : Type} (tag : α → Option Nat) (first second : List α) : Prop where
  required : required tag first = required tag second
  optional : ∀ item, (tag item).isSome = true → (item ∈ first ↔ item ∈ second)

structure SameOperation (first second : Operation) : Prop where
  name : first.name = second.name
  returnType : first.returnType = second.returnType
  returnTag : first.returnTag = second.returnTag
  throws : first.throws = second.throws
  parameters : SameItems ParamDecl.tag first.parameters second.parameters

structure SameClass (first second : ClassDef) : Prop where
  isInterface : first.isInterface = second.isInterface
  name : first.name = second.name
  compactId : first.compactId = second.compactId
  bases : first.bases = second.bases
  dataMembers : SameItems DataMember.tag first.dataMembers second.dataMembers
  operations : List.Forall₂ SameOperation first.operations second.operations

structure SameException (first second : Exception) : Prop where
  name : first.name = second.name
  base : first.base = second.base
  dataMembers : SameItems DataMember.tag first.dataMembers second.dataMembers

/-- The contract that the parties to a definition agree on. -/
def SameContract : Definition → Definition → Prop
  | .classDef first, .classDef second => SameClass first second
  | .exception first, .exception second => SameException first second
  | _, _ => False

def optionalLeads (q : Operation) : Bool :=
  (q.parameters.head?.any fun r => r.tag.isSome) && q.parameters.any fun r => r.tag.isNone

/-- The operations in which an optional parameter leads, as a list of flags. -/
def leads : Definition → List Bool
  | .classDef p => p.operations.map optionalLeads
  | .exception _ => []

end IceTouch.Slice.Checksum
