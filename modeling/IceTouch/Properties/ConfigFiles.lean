import IceTouch.Properties.CommandLine

/-!
# Configuration files

What a line of a configuration file sets: every key and value can be written in one, and a
comment behind a line may double the escaped spaces that the value ends in.
-/

namespace IceTouch.Properties

open Bytes WireTypes Escape Proxies

inductive Piece where
  | plain (char : Byte)
  | escaped (char : Byte)
deriving DecidableEq

namespace Piece

def isBlank : Piece → Bool
  | plain char => Proxies.isBlank char
  | escaped char => char = space

def written : Piece → Str
  | plain char => [char]
  | escaped char => [backslash, char]

end Piece

/-- The line is read from the left; a backslash without a character behind it is a piece. -/
def pieces : Str → List Piece
  | [] => []
  | [char] => [.plain char]
  | char :: next :: rest =>
      if char = backslash then .escaped next :: pieces rest
      else .plain char :: pieces (next :: rest)

def render (pieces : List Piece) : Str := pieces.flatMap Piece.written

@[simp] theorem render_nil : render [] = [] := rfl

@[simp] theorem render_plain (char : Byte) (rest : List Piece) :
    render (.plain char :: rest) = char :: render rest := rfl

@[simp] theorem render_escaped (char : Byte) (rest : List Piece) :
    render (.escaped char :: rest) = backslash :: char :: render rest := rfl

theorem render_pieces (line : Str) : render (pieces line) = line := by
  fun_induction pieces line with
  | case1 => rfl
  | case2 char => rfl
  | case3 next rest ih => rw [render_escaped, ih]
  | case4 char next rest notBackslash ih => rw [render_plain, ih]

variable {char : Byte}

theorem parse_value_char (notBackslash : char ≠ backslash)
    (value whitespace escapedspace rest : Str) :
    parseValue value whitespace escapedspace (char :: rest) =
      if isBlank char then
        parseValue value (if value = [] then whitespace else whitespace ++ [char]) escapedspace rest
      else if char = hash then value ++ escapedspace ++ escapedspace
      else parseValue (value ++ blanksBefore value whitespace escapedspace ++ [char]) [] [] rest := by
  rw [parseValue.eq_def]
  dsimp only
  rw [if_neg notBackslash]

theorem parse_value_escape (char : Byte) (value whitespace escapedspace rest : Str) :
    parseValue value whitespace escapedspace (backslash :: char :: rest) =
      if isEscaped char then
        parseValue (value ++ blanksBefore value whitespace escapedspace ++ [char]) [] [] rest
      else if char = space then
        parseValue value (whitespace ++ [char]) (escapedspace ++ [char]) rest
      else
        parseValue (value ++ blanksBefore value whitespace escapedspace ++ [backslash, char])
          [] [] rest := by
  rw [parseValue.eq_def]
  dsimp only
  rw [if_pos rfl]

theorem parse_key_escape (char : Byte) (key whitespace rest : Str) :
    parseKey key whitespace (backslash :: char :: rest) =
      if isEscaped char then parseKey (key ++ whitespace ++ [char]) [] rest
      else if char = space then
        parseKey key (if key = [] then whitespace else whitespace ++ [char]) rest
      else parseKey (key ++ whitespace ++ [backslash, char]) [] rest := by
  rw [parseKey.eq_def]
  dsimp only
  rw [if_pos rfl]

theorem space_not_escaped : isEscaped space = false := by decide

theorem escaped_not_space (isEscaped_ : isEscaped char = true) : char ≠ space := by
  intro same
  rw [same, space_not_escaped] at isEscaped_
  cases isEscaped_

def writeChar (char : Byte) : Piece :=
  if isEscaped char || char = space then .escaped char else .plain char

def writeText (s : Str) : Str := render (s.map writeChar)

/-- The line for a property. -/
def configLine (key value : Str) : Str := writeText key ++ equals :: writeText value

/-- No tabulator, no carriage return and no newline: only the space can be escaped. -/
def SpacesOnly (s : Str) : Prop := ∀ char ∈ s, isBlank char = true → char = space

instance decidableSpacesOnly (s : Str) : Decidable (SpacesOnly s) :=
  inferInstanceAs (Decidable (∀ char ∈ s, _))

theorem spaces_only_cons {rest : Str} (spaces : SpacesOnly (char :: rest)) :
    (isBlank char = true → char = space) ∧ SpacesOnly rest :=
  ⟨spaces char List.mem_cons_self,
    fun other inside => spaces other (List.mem_cons_of_mem char inside)⟩

theorem write_text_cons (char : Byte) (rest : Str) :
    writeText (char :: rest) = (writeChar char).written ++ writeText rest := rfl

theorem blanks_before_same (value blanks : Str) : blanksBefore value blanks blanks = blanks := by
  unfold blanksBefore
  split <;> rfl

theorem write_char_cases (spaces : isBlank char = true → char = space) :
    (isEscaped char = true ∧ (writeChar char).written = [backslash, char]) ∨
      (char = space ∧ (writeChar char).written = [backslash, char]) ∨
      (isEscaped char = false ∧ isBlank char = false ∧ (writeChar char).written = [char]) := by
  by_cases special : isEscaped char = true
  · refine .inl ⟨special, ?_⟩
    simp [writeChar, special, Piece.written]
  · rw [Bool.not_eq_true] at special
    by_cases blank : char = space
    · refine .inr (.inl ⟨blank, ?_⟩)
      simp [writeChar, blank, Piece.written]
    · refine .inr (.inr ⟨special, ?_, ?_⟩)
      · by_contra isBlank_
        exact blank (spaces (by simpa using isBlank_))
      · simp [writeChar, special, blank, Piece.written]

theorem unescaped_other (special : isEscaped char = false) :
    char ≠ backslash ∧ char ≠ hash ∧ char ≠ equals := by
  simpa [isEscaped, not_or, and_assoc] using special

/-- The spaces that are not in the value yet are all escaped, so that both buffers agree. -/
theorem parse_value_written (value blanks rest : Str) (spaces : SpacesOnly rest) :
    parseValue value blanks blanks (writeText rest) = value ++ blanks ++ rest := by
  induction rest generalizing value blanks with
  | nil =>
      change parseValue value blanks blanks [] = _
      rw [parseValue, List.append_nil]
  | cons char rest ih =>
      obtain ⟨first, later⟩ := spaces_only_cons spaces
      rw [write_text_cons]
      obtain ⟨special, written⟩ | ⟨blank, written⟩ | ⟨special, notBlank, written⟩ :=
        write_char_cases first
      · rw [written, List.cons_append, List.cons_append, List.nil_append, parse_value_escape,
          if_pos special, blanks_before_same, ih _ [] later]
        simp
      · rw [written, List.cons_append, List.cons_append, List.nil_append, parse_value_escape,
          blank, if_neg (by decide), if_pos rfl, ih _ _ later]
        simp
      · obtain ⟨notBackslash, notHash, _⟩ := unescaped_other special
        rw [written, List.singleton_append, parse_value_char notBackslash, notBlank,
          if_neg Bool.false_ne_true, if_neg notHash, blanks_before_same, ih _ [] later]
        simp

/-- Blanks are only kept behind the start of a key and in front of another character of it. -/
theorem parse_key_written (key whitespace rest value : Str) (spaces : SpacesOnly rest)
    (starts : key = [] → whitespace = [] ∧ ∀ char, rest.head? = some char → isBlank char = false)
    (blanks : ∀ char ∈ whitespace, isBlank char = true)
    (ends : ∀ char, (whitespace ++ rest).getLast? = some char → isBlank char = false) :
    parseKey key whitespace (writeText rest ++ equals :: value) =
      (key ++ whitespace ++ rest, some value) := by
  induction rest generalizing key whitespace with
  | nil =>
      have none : whitespace = [] := by
        by_contra some
        have blank := blanks _ (List.getLast_mem some)
        rw [ends _ (by rw [List.append_nil, List.getLast?_eq_some_getLast some])] at blank
        cases blank
      change parseKey key whitespace (equals :: value) = _
      rw [parse_key_char (by decide), if_neg (by decide), if_pos rfl, none, List.append_nil,
        List.append_nil]
  | cons char rest ih =>
      obtain ⟨first, later⟩ := spaces_only_cons spaces
      have endsLater : ∀ last, ([] ++ rest).getLast? = some last → isBlank last = false := by
        intro last isLast
        refine ends last ?_
        cases rest with
        | nil => cases isLast
        | cons second others => simpa using isLast
      rw [write_text_cons, List.append_assoc]
      obtain ⟨special, written⟩ | ⟨blank, written⟩ | ⟨special, notBlank, written⟩ :=
        write_char_cases first
      · have parsed := ih (key ++ whitespace ++ [char]) [] later (by simp) (List.forall_mem_nil _)
          endsLater
        rw [written, List.cons_append, List.cons_append, List.nil_append,
          parse_key_escape, if_pos special, parsed]
        simp
      · have begun : key ≠ [] := by
          intro empty
          have other := (starts empty).2 char rfl
          rw [blank] at other
          cases other
        have parsed := ih key (whitespace ++ [space]) later (fun empty => absurd empty begun) (by
          intro other inside
          obtain old | new := List.mem_append.mp inside
          · exact blanks other old
          · rw [List.mem_singleton.mp new]
            rfl) (by simpa [blank] using ends)
        rw [written, List.cons_append, List.cons_append, List.nil_append,
          parse_key_escape, blank, if_neg (by decide), if_pos rfl, if_neg begun, parsed]
        simp
      · obtain ⟨notBackslash, notHash, notEquals⟩ := unescaped_other special
        have parsed := ih (key ++ whitespace ++ [char]) [] later (by simp) (List.forall_mem_nil _)
          endsLater
        rw [written, List.singleton_append, parse_key_char notBackslash,
          notBlank, if_neg Bool.false_ne_true, if_neg notEquals, if_neg notHash, parsed]
        simp

/-- A text does not start or end in a blank. -/
structure Bounded (s : Str) : Prop where
  starts : ∀ char, s.head? = some char → isBlank char = false
  ends : ∀ char, s.getLast? = some char → isBlank char = false

theorem line_entry_written {key value : Str} (nonempty : key ≠ []) (bounded : Bounded key)
    (keySpaces : SpacesOnly key) (valueSpaces : SpacesOnly value) :
    lineEntry (configLine key value) = some (key, value) := by
  have parsedKey := parse_key_written [] [] key (writeText value) keySpaces
    (fun _ => ⟨rfl, bounded.starts⟩) (List.forall_mem_nil _) bounded.ends
  have parsedValue := parse_value_written [] [] value valueSpaces
  unfold lineEntry configLine
  rw [parsedKey]
  dsimp only [List.nil_append, List.append_nil] at parsedValue ⊢
  rw [if_neg nonempty, parsedValue]

/-- Every property can be written in a file. -/
theorem property_written {names : PropertyNames} (properties : PropertiesI names)
    {key value : Str} (nonempty : key ≠ []) (bounded : Bounded key)
    (keySpaces : SpacesOnly key) (valueSpaces : SpacesOnly value) :
    lineEntry (configLine key value) = some (key, value) ∧
      properties.parseLine (configLine key value) = properties.setProperty key value := by
  have entry := line_entry_written nonempty bounded keySpaces valueSpaces
  refine ⟨entry, ?_⟩
  unfold PropertiesI.parseLine
  rw [entry]

/-- The key `a b` with the value ` =\ `, which starts and ends in spaces. -/
theorem property_written_spaces :
    lineEntry (configLine (text "a b") [space, equals, backslash, space]) =
        some (text "a b", [space, equals, backslash, space]) ∧
      (PropertiesI.empty : PropertiesI icePatch2Names).parseLine
          (configLine (text "a b") [space, equals, backslash, space]) =
        PropertiesI.empty.setProperty (text "a b") [space, equals, backslash, space] :=
  property_written _ (by decide) ⟨by decide, by decide⟩ (by decide) (by decide)

/-- No hash of the line starts a comment, and no backslash at its end lacks a character. -/
def Uncommented (line : Str) : Prop :=
  ∀ piece ∈ pieces line, piece ≠ .plain hash ∧ piece ≠ .plain backslash

instance decidableUncommented (line : Str) : Decidable (Uncommented line) :=
  inferInstanceAs (Decidable (∀ piece ∈ pieces line, _))

def EscapedEnd (value : List Piece) : Prop :=
  ∃ front back, value = front ++ .escaped space :: back ∧ ∀ piece ∈ back, piece.isBlank = true

/-- The line has a key and, behind the first equals sign, a value that ends in escaped spaces. -/
def EndsEscaped (line : Str) : Prop :=
  ∃ key value, pieces line = key ++ .plain equals :: value ∧ .plain equals ∉ key ∧
    (∃ piece ∈ key, piece.isBlank = false) ∧ EscapedEnd value

def trailing (escapedspace : Str) : List Piece → Str
  | [] => escapedspace
  | piece :: rest =>
      if piece = .escaped space then trailing (escapedspace ++ [space]) rest
      else if piece.isBlank then trailing escapedspace rest
      else trailing [] rest

theorem trailing_plain (escapedspace : Str) (char : Byte) (rest : List Piece) :
    trailing escapedspace (.plain char :: rest) =
      if isBlank char then trailing escapedspace rest else trailing [] rest := rfl

theorem trailing_escaped (escapedspace : Str) (char : Byte) (rest : List Piece) :
    trailing escapedspace (.escaped char :: rest) =
      if char = space then trailing (escapedspace ++ [space]) rest else trailing [] rest := by
  rw [trailing]
  by_cases blank : char = space
  · rw [if_pos (by rw [blank]), if_pos blank]
  · rw [if_neg (by simpa using blank), if_neg (by simpa [Piece.isBlank] using blank),
      if_neg blank]

theorem escaped_end_cons (piece : Piece) (rest : List Piece) :
    EscapedEnd (piece :: rest) ↔
      (piece = .escaped space ∧ ∀ other ∈ rest, other.isBlank = true) ∨ EscapedEnd rest := by
  constructor
  · rintro ⟨front, back, same, blanks⟩
    cases front with
    | nil =>
        cases same
        exact .inl ⟨rfl, blanks⟩
    | cons first others =>
        cases same
        exact .inr ⟨others, back, rfl, blanks⟩
  · rintro (⟨rfl, blanks⟩ | ⟨front, back, rfl, blanks⟩)
    · exact ⟨[], rest, rfl, blanks⟩
    · exact ⟨piece :: front, back, rfl, blanks⟩

theorem not_escaped_end_nil : ¬EscapedEnd [] := by
  rintro ⟨front, back, same, _⟩
  cases front <;> cases same

theorem trailing_nonempty (escapedspace : Str) (value : List Piece) :
    trailing escapedspace value ≠ [] ↔
      (escapedspace ≠ [] ∧ ∀ piece ∈ value, piece.isBlank = true) ∨ EscapedEnd value := by
  induction value generalizing escapedspace with
  | nil => simp [trailing, not_escaped_end_nil]
  | cons piece rest ih =>
      rw [trailing, escaped_end_cons]
      by_cases space_ : piece = .escaped space
      · rw [if_pos space_, ih]
        simp [space_, Piece.isBlank]
        tauto
      · rw [if_neg space_]
        by_cases blank : piece.isBlank = true
        · rw [if_pos blank, ih]
          simp [space_, blank]
        · rw [if_neg blank, ih]
          simp [space_, blank]

theorem parse_value_comment (value whitespace escapedspace : Str) (comment : Str)
    (rest : List Piece) (plain : ∀ piece ∈ rest, piece ≠ .plain hash ∧ piece ≠ .plain backslash) :
    parseValue value whitespace escapedspace (render rest ++ hash :: comment) =
      parseValue value whitespace escapedspace (render rest) ++ trailing escapedspace rest := by
  induction rest generalizing value whitespace escapedspace with
  | nil =>
      rw [render_nil, List.nil_append, parse_value_char hash_not_backslash, if_neg (by decide),
        if_pos rfl, parseValue, trailing]
  | cons piece rest ih =>
      have here := plain piece List.mem_cons_self
      have later value whitespace escapedspace := ih value whitespace escapedspace
        (fun other inside => plain other (List.mem_cons_of_mem piece inside))
      cases piece with
      | plain char =>
          have notBackslash : char ≠ backslash := fun same => here.2 (by rw [same])
          have notHash : char ≠ hash := fun same => here.1 (by rw [same])
          rw [render_plain, List.cons_append, parse_value_char notBackslash,
            parse_value_char notBackslash, trailing_plain]
          by_cases blank : isBlank char = true
          · rw [if_pos blank, if_pos blank, if_pos blank, later]
          · rw [if_neg blank, if_neg blank, if_neg blank, if_neg notHash, if_neg notHash, later]
      | escaped char =>
          rw [render_escaped, List.cons_append, List.cons_append, parse_value_escape,
            parse_value_escape, trailing_escaped]
          by_cases special : isEscaped char = true
          · have notSpace := escaped_not_space special
            rw [if_pos special, if_pos special, if_neg notSpace, later]
          · rw [if_neg special, if_neg special]
            by_cases blank : char = space
            · rw [if_pos blank, if_pos blank, if_pos blank, later, blank]
            · rw [if_neg blank, if_neg blank, if_neg blank, later]

theorem parse_key_comment (key whitespace : Str) (comment : Str) (rest : List Piece)
    (plain : ∀ piece ∈ rest, piece ≠ .plain hash ∧ piece ≠ .plain backslash)
    (noEquals : .plain equals ∉ rest) :
    (parseKey key whitespace (render rest)).2 = none ∧
      (parseKey key whitespace (render rest ++ hash :: comment)).2 = none := by
  induction rest generalizing key whitespace with
  | nil =>
      rw [render_nil, List.nil_append, parse_key_char hash_not_backslash, if_neg (by decide),
        if_neg (by decide), if_pos rfl, parseKey]
      exact ⟨rfl, rfl⟩
  | cons piece rest ih =>
      have here := plain piece List.mem_cons_self
      have later key whitespace := ih key whitespace
        (fun other inside => plain other (List.mem_cons_of_mem piece inside))
        (fun inside => noEquals (List.mem_cons_of_mem piece inside))
      cases piece with
      | plain char =>
          have notBackslash : char ≠ backslash := fun same => here.2 (by rw [same])
          have notHash : char ≠ hash := fun same => here.1 (by rw [same])
          have notEquals : char ≠ equals := by
            intro same
            exact noEquals (by rw [same]; exact List.mem_cons_self)
          rw [render_plain, List.cons_append, parse_key_char notBackslash,
            parse_key_char notBackslash, if_neg notEquals, if_neg notEquals, if_neg notHash,
            if_neg notHash]
          split <;> exact later _ _
      | escaped char =>
          rw [render_escaped, List.cons_append, List.cons_append, parse_key_escape,
            parse_key_escape]
          split
          · exact later _ _
          · split <;> exact later _ _

theorem parse_key_found (key whitespace : Str) (rest value : List Piece)
    (plain : ∀ piece ∈ rest, piece ≠ .plain hash ∧ piece ≠ .plain backslash)
    (noEquals : .plain equals ∉ rest) :
    ∃ found, (found = [] ↔ key = [] ∧ ∀ piece ∈ rest, piece.isBlank = true) ∧
      ∀ more, parseKey key whitespace (render (rest ++ .plain equals :: value) ++ more) =
        (found, some (render value ++ more)) := by
  induction rest generalizing key whitespace with
  | nil =>
      refine ⟨key, by simp, fun more => ?_⟩
      rw [List.nil_append, render_plain, List.cons_append, parse_key_char equals_not_backslash,
        if_neg (by decide), if_pos rfl]
  | cons piece rest ih =>
      have here := plain piece List.mem_cons_self
      have later key whitespace := ih key whitespace
        (fun other inside => plain other (List.mem_cons_of_mem piece inside))
        (fun inside => noEquals (List.mem_cons_of_mem piece inside))
      -- A piece that is blank leaves the key as it is, another one makes it start.
      cases piece with
      | plain char =>
          have notBackslash : char ≠ backslash := fun same => here.2 (by rw [same])
          have notHash : char ≠ hash := fun same => here.1 (by rw [same])
          have notEquals : char ≠ equals := by
            intro same
            exact noEquals (by rw [same]; exact List.mem_cons_self)
          simp only [List.cons_append, render_plain, parse_key_char notBackslash,
            if_neg notEquals, if_neg notHash]
          by_cases blank : isBlank char = true
          · simp only [if_pos blank]
            obtain ⟨found, started, parsed⟩ := later key _
            exact ⟨found, by simpa [Piece.isBlank, blank] using started, parsed⟩
          · simp only [if_neg blank]
            obtain ⟨found, started, parsed⟩ := later (key ++ whitespace ++ [char]) []
            exact ⟨found, by simpa [Piece.isBlank, blank] using started, parsed⟩
      | escaped char =>
          simp only [List.cons_append, render_escaped, parse_key_escape]
          by_cases special : isEscaped char = true
          · have notSpace := escaped_not_space special
            simp only [if_pos special]
            obtain ⟨found, started, parsed⟩ := later (key ++ whitespace ++ [char]) []
            exact ⟨found, by simpa [Piece.isBlank, notSpace] using started, parsed⟩
          · simp only [if_neg special]
            by_cases blank : char = space
            · simp only [if_pos blank]
              obtain ⟨found, started, parsed⟩ := later key _
              exact ⟨found, by simpa [Piece.isBlank, blank] using started, parsed⟩
            · simp only [if_neg blank]
              obtain ⟨found, started, parsed⟩ := later (key ++ whitespace ++ [backslash, char]) []
              exact ⟨found, by simpa [Piece.isBlank, blank] using started, parsed⟩

variable {line : Str}

theorem line_entry_found {found rest : Str} (parsed : parseKey [] [] line = (found, some rest)) :
    lineEntry line = if found = [] then none else some (found, parseValue [] [] [] rest) := by
  unfold lineEntry
  rw [parsed]

theorem line_entry_comment {comment : Str} {key value : List Piece} (uncommented : Uncommented line)
    (same : pieces line = key ++ .plain equals :: value) (noEquals : .plain equals ∉ key) :
    lineEntry (line ++ hash :: comment) = lineEntry line ↔
      (∀ piece ∈ key, piece.isBlank = true) ∨ ¬EscapedEnd value := by
  unfold Uncommented at uncommented
  rw [same] at uncommented
  have keyPlain : ∀ piece ∈ key, piece ≠ .plain hash ∧ piece ≠ .plain backslash :=
    fun piece inside => uncommented piece (List.mem_append_left _ inside)
  have valuePlain : ∀ piece ∈ value, piece ≠ .plain hash ∧ piece ≠ .plain backslash :=
    fun piece inside =>
      uncommented piece (List.mem_append_right _ (List.mem_cons_of_mem _ inside))
  have written : render (key ++ .plain equals :: value) = line := by
    rw [← same, render_pieces]
  obtain ⟨found, started, parsed⟩ := parse_key_found [] [] key value keyPlain noEquals
  have alone := parsed []
  have behind := parsed (hash :: comment)
  rw [List.append_nil, List.append_nil, written] at alone
  rw [written] at behind
  rw [line_entry_found alone, line_entry_found behind,
    parse_value_comment [] [] [] comment value valuePlain]
  have empty : found = [] ↔ ∀ piece ∈ key, piece.isBlank = true := by simpa using started
  have ended : trailing [] value = [] ↔ ¬EscapedEnd value := by
    have nonempty := trailing_nonempty [] value
    tauto
  by_cases none : found = []
  · rw [if_pos none, if_pos none]
    exact iff_of_true rfl (.inl (empty.mp none))
  · rw [if_neg none, if_neg none, ← empty, ← ended]
    simp [none]

theorem key_unique {key other value others : List Piece}
    (same : key ++ .plain equals :: value = other ++ .plain equals :: others)
    (noEquals : .plain equals ∉ key) (noEqualsOther : .plain equals ∉ other) :
    key = other ∧ value = others := by
  induction key generalizing other with
  | nil =>
      cases other with
      | nil => exact ⟨rfl, by simpa using same⟩
      | cons first rest =>
          cases same
          exact absurd List.mem_cons_self noEqualsOther
  | cons first rest ih =>
      cases other with
      | nil =>
          cases same
          exact absurd List.mem_cons_self noEquals
      | cons otherFirst otherRest =>
          rw [List.cons_append, List.cons_append, List.cons.injEq] at same
          obtain ⟨here, later⟩ := same
          obtain ⟨sameRest, sameValue⟩ := ih later
            (fun inside => noEquals (List.mem_cons_of_mem first inside))
            (fun inside => noEqualsOther (List.mem_cons_of_mem otherFirst inside))
          exact ⟨by rw [here, sameRest], sameValue⟩

theorem line_entry_none (noValue : (parseKey [] [] line).2 = none) : lineEntry line = none := by
  unfold lineEntry
  split
  · next parsed =>
      rw [parsed] at noValue
      cases noValue
  · rfl

/-- A comment behind a line is without effect exactly when the line has no value that ends in
escaped spaces. -/
theorem comment_inert (line comment : Str) (uncommented : Uncommented line) :
    lineEntry (line ++ hash :: comment) = lineEntry line ↔ ¬EndsEscaped line := by
  by_cases inside : .plain equals ∈ pieces line
  · obtain ⟨key, value, same, noEquals⟩ := List.eq_append_cons_of_mem inside
    rw [line_entry_comment uncommented same noEquals]
    constructor
    · rintro inert ⟨other, others, sameOther, noEqualsOther, ⟨piece, isIn, notBlank⟩, ended⟩
      obtain ⟨rfl, rfl⟩ := key_unique (same.symm.trans sameOther) noEquals noEqualsOther
      obtain blanks | notEnded := inert
      · rw [blanks piece isIn] at notBlank
        cases notBlank
      · exact notEnded ended
    · intro notEnded
      by_contra other
      push Not at other
      obtain ⟨⟨piece, isIn, notBlank⟩, ended⟩ := other
      exact notEnded ⟨key, value, same, noEquals, ⟨piece, isIn, by simpa using notBlank⟩, ended⟩
  · obtain ⟨alone, behind⟩ := parse_key_comment [] [] comment (pieces line) uncommented inside
    rw [render_pieces] at alone behind
    rw [line_entry_none alone, line_entry_none behind]
    refine iff_of_true rfl ?_
    rintro ⟨key, value, same, _⟩
    rw [same] at inside
    exact inside (List.mem_append_right _ List.mem_cons_self)

/-- The line `A=v` with a comment behind it. -/
theorem comment_inert_plain :
    lineEntry (text "A=v" ++ hash :: text " inert") = lineEntry (text "A=v") :=
  (comment_inert (text "A=v") (text " inert") (by decide)).mpr (by
    rintro ⟨key, value, same, _, _, front, back, ended, _⟩
    have inside : Piece.escaped space ∈ pieces (text "A=v") := by
      rw [same, ended]
      simp
    exact absurd inside (by decide))

/-- Behind an escaped space at the end of the value, a comment doubles it. -/
theorem comment_doubles_space :
    ¬∀ line comment : Str, Uncommented line →
      lineEntry (line ++ hash :: comment) = lineEntry line := by
  intro inert
  have same := inert (text "A=v" ++ [backslash, space]) [] (by decide)
  have alone : lineEntry (text "A=v" ++ [backslash, space]) = some (text "A", text "v ") := rfl
  have doubled : lineEntry (text "A=v" ++ [backslash, space] ++ [hash]) =
      some (text "A", text "v  ") := rfl
  rw [alone, doubled] at same
  exact absurd same (by decide)

end IceTouch.Properties
