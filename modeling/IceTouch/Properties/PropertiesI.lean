import IceTouch.Library.ByteOrder
import IceTouch.Library.OrderedMap
import IceTouch.Library.Results
import IceTouch.Strings.ProxyStrings
import Mathlib.Data.List.DropRight

/-!
# Properties

`PropertiesI`, with the reading and writing of command-line options. The table of the property
names is a parameter, of which the replacements of deprecated names matter. Nothing is
converted between character sets, and the warnings of the logger are left out.
-/

namespace IceTouch.Properties

open Bytes ByteOrder WireTypes Escape OrderedMap
open Proxies (space star dot byte isBlank)

abbrev hash : Byte := 35
abbrev equals : Byte := 61

/-- `IceUtilInternal::trim`. -/
def trim (s : Str) : Str := (s.dropWhile isBlank).rdropWhile isBlank

/-- `IceUtilInternal::toUpper`. -/
def toUpper (s : Str) : Str :=
  s.map fun char => if byte 'a' ≤ char ∧ char ≤ byte 'z' then char - 32 else char

/-- `IceUtilInternal::match`: a star stands for any sequence that is not empty. -/
def matches_ (s pat : Str) : Bool :=
  match pat.idxOf? star with
  | none => s = pat
  | some beginIndex =>
      let endLength := pat.length - beginIndex - 1
      let endIndex := s.length - endLength
      beginIndex ≤ s.length && s.take beginIndex = pat.take beginIndex &&
        endLength ≤ s.length && beginIndex < endIndex &&
        s.drop endIndex = pat.drop (beginIndex + 1)

structure Property where
  pattern : Str
  deprecated : Bool
  deprecatedBy : Option Str
deriving DecidableEq

def topLevel (key : Str) : Str := key.takeWhile fun char => char ≠ dot

def renamed (currentKey : Str) : List Property → Str
  | [] => currentKey
  | prop :: rest =>
      if matches_ currentKey prop.pattern then
        if prop.deprecated then prop.deprecatedBy.getD currentKey else currentKey
      else if matches_ (toUpper currentKey) (toUpper prop.pattern) then
        currentKey
      else
        renamed currentKey rest

def Covers (properties : List Property) (key : Str) : Prop :=
  ∃ first ∈ properties.head?, toUpper (topLevel first.pattern) = toUpper (topLevel key)

instance decidableCovers (properties : List Property) (key : Str) :
    Decidable (Covers properties key) :=
  inferInstanceAs (Decidable (∃ first ∈ properties.head?, _))

structure BareKey (key : Str) : Prop where
  nonempty : key ≠ []
  trimmed : trim key = key
  characters : ∀ char ∈ key, char ≠ backslash ∧ char ≠ hash ∧ char ≠ equals

instance decidableBareKey (key : Str) : Decidable (BareKey key) :=
  decidable_of_iff (key ≠ [] ∧ trim key = key ∧
      ∀ char ∈ key, char ≠ backslash ∧ char ≠ hash ∧ char ≠ equals)
    ⟨fun bare => ⟨bare.1, bare.2.1, bare.2.2⟩,
      fun bare => ⟨bare.nonempty, bare.trimmed, bare.characters⟩⟩

/-- The table of the property names. What replaces a deprecated name is a bare key, and no
name with its prefix is replaced again. -/
structure PropertyNames where
  validProps : List (List Property)
  replacements : ∀ properties ∈ validProps, ∀ prop ∈ properties,
    ∀ replacement ∈ prop.deprecatedBy, BareKey replacement ∧
      ∀ others ∈ validProps, Covers others replacement →
        ∀ other ∈ others, other.deprecatedBy = none

def renameIn (key currentKey : Str) : List (List Property) → Str
  | [] => currentKey
  | properties :: rest =>
      renameIn key
        (if Covers properties key then renamed currentKey properties else currentKey) rest

def PropertyNames.rename (names : PropertyNames) (key : Str) : Str :=
  if dot ∈ key then renameIn key key names.validProps else key

/-- The keys under which properties are set. -/
structure PropertyNames.Accepted (names : PropertyNames) (key : Str) : Prop where
  nonempty : key ≠ []
  trimmed : trim key = key
  named : names.rename key = key

theorem trim_idempotent (s : Str) : trim (trim s) = trim s := by
  have starts : (trim s).dropWhile isBlank = trim s := by
    rw [List.dropWhile_eq_self_iff]
    intro some
    have front : trim s <+: s.dropWhile isBlank := List.rdropWhile_prefix isBlank _
    have longer : 0 < (s.dropWhile isBlank).length := lt_of_lt_of_le some front.length_le
    have head : (trim s)[0] = (s.dropWhile isBlank)[0] := front.getElem some
    rw [head]
    exact List.dropWhile_get_zero_not isBlank s longer
  rw [trim, starts, trim, List.rdropWhile_idempotent]

theorem renamed_cases (currentKey : Str) (properties : List Property) :
    renamed currentKey properties = currentKey ∨
      ∃ prop ∈ properties, prop.deprecatedBy = some (renamed currentKey properties) := by
  induction properties with
  | nil => exact .inl rfl
  | cons prop rest ih =>
      rw [renamed]
      by_cases found : matches_ currentKey prop.pattern = true
      · rw [if_pos found]
        by_cases deprecated : prop.deprecated = true
        · rw [if_pos deprecated]
          cases replaced : prop.deprecatedBy with
          | none => exact .inl rfl
          | some replacement => exact .inr ⟨prop, List.mem_cons_self, replaced⟩
        · rw [if_neg deprecated]
          exact .inl rfl
      · rw [if_neg found]
        by_cases mismatch : matches_ (toUpper currentKey) (toUpper prop.pattern) = true
        · rw [if_pos mismatch]
          exact .inl rfl
        · rw [if_neg mismatch]
          obtain same | ⟨other, inside, replaced⟩ := ih
          · exact .inl same
          · exact .inr ⟨other, List.mem_cons_of_mem prop inside, replaced⟩

section Names

variable (names : PropertyNames)

theorem rename_in_cases (key currentKey : Str) (arrays : List (List Property)) :
    renameIn key currentKey arrays = currentKey ∨ ∃ properties ∈ arrays, ∃ prop ∈ properties,
      prop.deprecatedBy = some (renameIn key currentKey arrays) := by
  induction arrays generalizing currentKey with
  | nil => exact .inl rfl
  | cons properties rest ih =>
      rw [renameIn]
      by_cases covers : Covers properties key
      · rw [if_pos covers]
        obtain kept | ⟨others, inside, found⟩ := ih (renamed currentKey properties)
        · rw [kept]
          obtain same | found := renamed_cases currentKey properties
          · exact .inl same
          · exact .inr ⟨properties, List.mem_cons_self, found⟩
        · exact .inr ⟨others, List.mem_cons_of_mem properties inside, found⟩
      · rw [if_neg covers]
        obtain kept | ⟨others, inside, found⟩ := ih currentKey
        · exact .inl kept
        · exact .inr ⟨others, List.mem_cons_of_mem properties inside, found⟩

theorem rename_cases (key : Str) :
    names.rename key = key ∨ ∃ properties ∈ names.validProps, ∃ prop ∈ properties,
      prop.deprecatedBy = some (names.rename key) := by
  unfold PropertyNames.rename
  by_cases dotted : dot ∈ key
  · rw [if_pos dotted]
    exact rename_in_cases key key names.validProps
  · rw [if_neg dotted]
    exact .inl rfl

variable {properties : List Property}

theorem renamed_final (final : ∀ prop ∈ properties, prop.deprecatedBy = none) (key : Str) :
    renamed key properties = key := by
  obtain same | ⟨prop, inside, replaced⟩ := renamed_cases key properties
  · exact same
  · rw [final prop inside] at replaced
    cases replaced

theorem rename_in_final {key : Str} {arrays : List (List Property)}
    (final : ∀ properties ∈ arrays, Covers properties key →
      ∀ prop ∈ properties, prop.deprecatedBy = none) : renameIn key key arrays = key := by
  induction arrays with
  | nil => rfl
  | cons properties rest ih =>
      have later := ih fun other inside => final other (List.mem_cons_of_mem properties inside)
      rw [renameIn]
      by_cases covers : Covers properties key
      · rw [if_pos covers, renamed_final (final properties List.mem_cons_self covers), later]
      · rw [if_neg covers, later]

theorem replacement_accepted {prop : Property} {replacement : Str}
    (known : properties ∈ names.validProps) (inside : prop ∈ properties)
    (replaced : prop.deprecatedBy = some replacement) : names.Accepted replacement := by
  obtain ⟨plain, final⟩ := names.replacements properties known prop inside replacement replaced
  refine ⟨plain.nonempty, plain.trimmed, ?_⟩
  unfold PropertyNames.rename
  by_cases dotted : dot ∈ replacement
  · rw [if_pos dotted]
    exact rename_in_final final
  · rw [if_neg dotted]

theorem rename_accepted {key : Str} (nonempty : key ≠ []) (trimmed : trim key = key) :
    names.Accepted (names.rename key) := by
  obtain same | ⟨properties, known, prop, inside, replaced⟩ := rename_cases names key
  · rw [same]
    exact ⟨nonempty, trimmed, same⟩
  · exact replacement_accepted names known inside replaced

end Names

/-- The properties in the order of their keys. Whether they are used is left out. -/
structure PropertiesI (names : PropertyNames) where
  properties : List (Str × Str)
  sorted : Sorted properties
  accepted : ∀ entry ∈ properties, names.Accepted entry.1
  nonempty : ∀ entry ∈ properties, entry.2 ≠ []

inductive PropertyException where
  | initialization (reason : Str)
deriving DecidableEq

section Properties

variable {names : PropertyNames}

def PropertiesI.empty : PropertiesI names where
  properties := []
  sorted := sorted_nil
  accepted _ inside := nomatch inside
  nonempty _ inside := nomatch inside

theorem properties_ext {first second : PropertiesI names}
    (same : first.properties = second.properties) : first = second := by
  cases first
  cases second
  cases same
  rfl

def PropertiesI.getProperty (properties : PropertiesI names) (key : Str) : Str :=
  (find key properties.properties).getD []

def PropertiesI.getPropertiesForPrefix (properties : PropertiesI names) (before : Str) :
    List (Str × Str) :=
  properties.properties.filter fun entry => before.isPrefixOf entry.1

def PropertiesI.setProperty (properties : PropertiesI names) (key value : Str) :
    Except PropertyException (PropertiesI names) :=
  if nonempty : trim key = [] then
    .error (.initialization (text "Attempt to set property with empty key"))
  else if some : value ≠ [] then
    .ok
      { properties := assign (names.rename (trim key)) value properties.properties
        sorted := assign_sorted _ _ properties.sorted
        accepted := by
          intro entry inside
          obtain rfl | old := mem_assign inside
          · exact rename_accepted names nonempty (trim_idempotent key)
          · exact properties.accepted entry old
        nonempty := by
          intro entry inside
          obtain rfl | old := mem_assign inside
          · exact some
          · exact properties.nonempty entry old }
  else
    .ok
      { properties := erase (names.rename (trim key)) properties.properties
        sorted := sorted_erase _ properties.sorted
        accepted := fun entry inside => properties.accepted entry (List.mem_of_mem_filter inside)
        nonempty := fun entry inside => properties.nonempty entry (List.mem_of_mem_filter inside) }

end Properties

def isEscaped (char : Byte) : Bool := char = backslash || char = hash || char = equals

/-- The blanks in front of the next character: of those before a value only the escaped ones. -/
def blanksBefore (value whitespace escapedspace : Str) : Str :=
  if value = [] then escapedspace else whitespace

/-- The loop in its state `Value`, with the `escapedspace` that is added behind it. -/
def parseValue (value whitespace escapedspace : Str) : Str → Str
  | [] => value ++ escapedspace
  | char :: rest =>
      if char = backslash then
        match rest with
        | [] => value ++ blanksBefore value whitespace escapedspace ++ [char] ++ escapedspace
        | next :: more =>
            if isEscaped next then
              parseValue (value ++ blanksBefore value whitespace escapedspace ++ [next]) [] [] more
            else if next = space then
              parseValue value (whitespace ++ [next]) (escapedspace ++ [next]) more
            else
              parseValue (value ++ blanksBefore value whitespace escapedspace ++ [char, next])
                [] [] more
      else if isBlank char then
        parseValue value (if value = [] then whitespace else whitespace ++ [char]) escapedspace rest
      else if char = hash then
        value ++ escapedspace ++ escapedspace
      else
        parseValue (value ++ blanksBefore value whitespace escapedspace ++ [char]) [] [] rest

/-- The loop in its state `Key`: the key and, if an equals sign ends it, what is behind. -/
def parseKey (key whitespace : Str) : Str → Str × Option Str
  | [] => (key, none)
  | char :: rest =>
      if char = backslash then
        match rest with
        | [] => (key ++ whitespace ++ [char], none)
        | next :: more =>
            if isEscaped next then
              parseKey (key ++ whitespace ++ [next]) [] more
            else if next = space then
              parseKey key (if key = [] then whitespace else whitespace ++ [next]) more
            else
              parseKey (key ++ whitespace ++ [char, next]) [] more
      else if isBlank char then
        parseKey key (if key = [] then whitespace else whitespace ++ [char]) rest
      else if char = equals then
        (key, some rest)
      else if char = hash then
        (key, none)
      else
        parseKey (key ++ whitespace ++ [char]) [] rest

/-- The key and the value of a line, unless it is empty or not valid. -/
def lineEntry (line : Str) : Option (Str × Str) :=
  match parseKey [] [] line with
  | (key, some rest) => if key = [] then none else some (key, parseValue [] [] [] rest)
  | (_, none) => none

section Options

variable {names : PropertyNames}

/-- A line that is not valid is only warned about. -/
def PropertiesI.parseLine (properties : PropertiesI names) (line : Str) :
    Except PropertyException (PropertiesI names) :=
  match lineEntry line with
  | some (key, value) => properties.setProperty key value
  | none => .ok properties

def PropertiesI.getCommandLineOptions (properties : PropertiesI names) : List Str :=
  properties.properties.map fun entry => text "--" ++ entry.1 ++ text "=" ++ entry.2

def optionPrefix (before : Str) : Str :=
  text "--" ++ if before ≠ [] ∧ before.getLast? ≠ some dot then before ++ [dot] else before

/-- The properties, and the options that are not theirs. -/
def PropertiesI.parseCommandLineOptions (properties : PropertiesI names) (before : Str) :
    List Str → Except PropertyException (PropertiesI names × List Str)
  | [] => .ok (properties, [])
  | opt :: options =>
      if (optionPrefix before).isPrefixOf opt then do
        let line := (if equals ∈ opt then opt else opt ++ text "=1").drop 2
        let parsed ← properties.parseLine line
        parsed.parseCommandLineOptions before options
      else do
        let (parsed, result) ← properties.parseCommandLineOptions before options
        .ok (parsed, opt :: result)

end Options

end IceTouch.Properties
