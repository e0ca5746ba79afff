import IceTouch.Metrics.MetricsMap
import IceTouch.Properties.PropertiesI
import IceTouch.Ssl.RFC2253

/-!
# The configuration of metrics maps

What a metrics map takes from the properties under its prefix. Constructing a map clears the
properties that are not known. The compiler of regular expressions is a parameter.
-/

namespace IceTouch.Metrics

open Bytes ByteOrder WireTypes Escape OrderedMap
open Scanning Properties
open Proxies (dot byte)
open Ssl (isAlpha)

def isSpace (char : Byte) : Bool := char = 32 || (9 ≤ char && char ≤ 13)

/-- `operator>>` for an `Int` that reads the whole stream. -/
def readInt (value : Str) : Option Int :=
  let rest := value.dropWhile isSpace
  let negative : Bool := rest.head? = some (byte '-')
  let digits := if negative ∨ rest.head? = some (byte '+') then rest.tail else rest
  if digits ≠ [] ∧ digits.all isDigit then
    let absolute : Nat := digits.foldl (fun number char => 10 * number + (char.toNat - 48)) 0
    let number : Int := if negative then -absolute else absolute
    if -2 ^ 31 ≤ number ∧ number < 2 ^ 31 then some number else none
  else
    none

section Properties

variable {names : PropertyNames}

def getPropertyAsIntWithDefault (key : Str) (value : Int) (properties : PropertiesI names) : Int :=
  match find key properties.properties with
  | none => value
  | some set => (readInt set).getD value

def clear (key : Str) (properties : PropertiesI names) : PropertiesI names where
  properties := erase key properties.properties
  sorted := sorted_erase key properties.sorted
  accepted := fun entry inside => properties.accepted entry (List.mem_of_mem_filter inside)
  nonempty := fun entry inside => properties.nonempty entry (List.mem_of_mem_filter inside)

def suffixes : List Str :=
  [text "Disabled", text "GroupBy", text "Accept.*", text "Reject.*", text "RetainDetached",
    text "Map.*"]

def isValid (before key : Str) : Bool :=
  suffixes.any fun suffix => matches_ key (before ++ suffix)

def unknownProps (before : Str) (properties : PropertiesI names) : List Str :=
  ((properties.getPropertiesForPrefix before).map Prod.fst).filter fun key => !isValid before key

def warns (properties : PropertiesI names) : Bool :=
  0 < getPropertyAsIntWithDefault (text "Ice.Warn.UnknownProperties") 1 properties

def validateProperties (before : Str) (properties : PropertiesI names) : PropertiesI names :=
  let unknown := unknownProps before properties
  if unknown ≠ [] ∧ warns properties then
    unknown.foldl (fun properties key => clear key properties) properties
  else
    properties

end Properties

/-- What goes by the name of a regular expression, where it compiles. -/
abbrev Compiler := Str → Option (Str → Bool)

section Maps

variable {names : PropertyNames} (compile : Compiler)

/-- The rules in the order of the properties, or the message about the first that is invalid. -/
def compileRules (name : Str) : List (Str × Str) → Except Str (List RegExp)
  | [] => .ok []
  | (key, value) :: rest =>
      match compile value with
      | none =>
          .error (text "invalid regular expression " ++ [96] ++ value ++ text "' for " ++ [96] ++
            key ++ text "'")
      | some regex =>
          match compileRules name rest with
          | .error message => .error message
          | .ok rules => .ok ({ attr := key.drop (name.length + 1), regex := regex } :: rules)

def parseRule (properties : PropertiesI names) (name : Str) : Except Str (List RegExp) :=
  compileRules compile name (properties.getPropertiesForPrefix (name ++ [dot]))

/-- The loop over the characters: `v` is an attribute or a separator so far. -/
def splitGroupBy (isAttribute : Bool) (v : Str) (attributes separators : List Str) :
    Str → List Str × List Str
  | [] => if isAttribute then (attributes ++ [v], separators) else (attributes, separators ++ [v])
  | char :: rest =>
      let isAlphaNum := isAlpha char || isDigit char || char = dot
      if isAttribute && !isAlphaNum then
        splitGroupBy false [char] (attributes ++ [v]) separators rest
      else if !isAttribute && isAlphaNum then
        splitGroupBy true [char] attributes (separators ++ [v]) rest
      else
        splitGroupBy isAttribute (v ++ [char]) attributes separators rest

def parseGroupBy (groupBy : Str) : List Str × List Str :=
  match groupBy with
  | [] => ([], [])
  | first :: _ =>
      let isAttribute := isAlpha first || isDigit first
      splitGroupBy isAttribute [] (if isAttribute then [] else [[]]) [] groupBy

structure MetricsMapI where
  properties : List (Str × Str)
  settings : Settings

/-- The constructor of `MetricsMapI`, with the properties that it leaves. -/
def construct (mapPrefix : Str) (properties : PropertiesI names) :
    Except Str MetricsMapI × PropertiesI names :=
  match parseRule compile properties (mapPrefix ++ text "Accept") with
  | .error message => (.error message, properties)
  | .ok accept =>
      match parseRule compile properties (mapPrefix ++ text "Reject") with
      | .error message => (.error message, properties)
      | .ok reject =>
          let validated := validateProperties mapPrefix properties
          let groupBy := parseGroupBy
            ((find (mapPrefix ++ text "GroupBy") validated.properties).getD (text "id"))
          (.ok
            { properties := properties.getPropertiesForPrefix mapPrefix
              settings :=
                { accept
                  reject
                  groupByAttributes := groupBy.1
                  groupBySeparators := groupBy.2
                  retain := getPropertyAsIntWithDefault (mapPrefix ++ text "RetainDetached") 10
                    properties } },
            validated)

/-- The prefix of a sub-map: that of the map itself where no sub-map has a configuration. -/
def subMapPrefix (mapPrefix subMap : Str) (properties : PropertiesI names) : Option Str :=
  let subMapsPrefix := mapPrefix ++ text "Map."
  if (properties.getPropertiesForPrefix (subMapsPrefix ++ subMap ++ [dot])).isEmpty then
    if (properties.getPropertiesForPrefix subMapsPrefix).isEmpty then some mapPrefix else none
  else
    some (subMapsPrefix ++ subMap ++ [dot])

def createSubMaps (mapPrefix : Str) :
    List Str → PropertiesI names → Except Str (List (Str × MetricsMapI)) × PropertiesI names
  | [], properties => (.ok [], properties)
  | subMap :: rest, properties =>
      match subMapPrefix mapPrefix subMap properties with
      | none => createSubMaps mapPrefix rest properties
      | some before =>
          match construct compile before properties with
          | (.error message, left) => (.error message, left)
          | (.ok map, left) =>
              let others := createSubMaps mapPrefix rest left
              (others.1.map fun maps => (subMap, map) :: maps, others.2)

structure MetricsMapFactory where
  subMaps : List Str

structure MapObject where
  serial : Nat
  map : MetricsMapI
  subMaps : List (Str × MetricsMapI)

def MetricsMapFactory.create (serial : Nat) (mapPrefix : Str) (properties : PropertiesI names)
    (factory : MetricsMapFactory) : Except Str MapObject × PropertiesI names :=
  match construct compile mapPrefix properties with
  | (.error message, left) => (.error message, left)
  | (.ok map, left) =>
      let subMaps := createSubMaps compile mapPrefix factory.subMaps left
      (subMaps.1.map fun subMaps => { serial, map, subMaps }, subMaps.2)

end Maps

end IceTouch.Metrics
