import IceTouch.Ssl.DistinguishedNames

/-!
# The text form of a distinguished name

A name that is written by the grammar is always parsed, into its types and the copies of its
values. Which values come out depends on how they are written: hex pairs, hex strings and pairs
between quotes are not unescaped as the grammar means them.
-/

namespace IceTouch.Ssl

open Bytes WireTypes Escape Scanning Results
open Proxies (space dot byte)

/-- A component of a name, in a way that the grammar allows. -/
structure Component where
  type : Str
  writing : Writing
  valid : AttributeType type
  grammatical : writing.Grammatical
  nonempty : writing.value ≠ []

def Component.text (component : Component) : Str :=
  component.type ++ equals :: component.writing.text

def nameText : List Component → Str
  | [] => []
  | [component] => component.text
  | component :: next :: rest => component.text ++ comma :: nameText (next :: rest)

def denoted (components : List Component) : List Rdn :=
  components.map fun component => (component.type, component.writing.value)

variable {rest : Str} {pieces : List Piece}

theorem parse_joined_ends (ends : Ends rest) (rounds : Nat) (final : Rdn) :
    parseJoined rounds final rest = .ok (final, rest) := by
  obtain rfl | ⟨more, rfl⟩ := ends
  · cases rounds <;> rfl
  · cases rounds <;> rfl

theorem parse_component (component : Component) (ends : Ends rest) :
    parseNameComponent (component.text ++ rest) =
      .ok ((component.type, component.writing.copied), rest) := by
  have type := parse_attribute_type component.valid (component.writing.text ++ rest)
  have value := parse_attribute_value component.grammatical ends
  have eaten (more : Str) : eatWhite (equals :: more) = equals :: more := rfl
  rw [Component.text, List.append_assoc, List.cons_append, parseNameComponent,
    parseAttributeTypeAndValue, type]
  simp only [bind, Except.bind, eaten, ne_eq, not_true_eq_false, if_false, value,
    parse_joined_ends ends]

theorem component_text_cons (component : Component) :
    ∃ first rest, component.text = first :: rest := by
  cases shape : component.type with
  | nil => exact ⟨equals, _, by rw [Component.text, shape]; rfl⟩
  | cons first rest => exact ⟨first, _, by rw [Component.text, shape]; rfl⟩

theorem parse_components (components : List Component) (rounds : Nat)
    (enough : components.length ≤ rounds) :
    parseComponents rounds (nameText components) =
      .ok (components.map fun component => (component.type, component.writing.copied)) := by
  induction components generalizing rounds with
  | nil => cases rounds <;> rfl
  | cons component rest ih =>
      obtain ⟨less, rfl⟩ : ∃ less, rounds = less + 1 := ⟨rounds - 1, by
        simp only [List.length_cons] at enough
        omega⟩
      obtain ⟨first, others, shape⟩ := component_text_cons component
      cases rest with
      | nil =>
          have parsed := parse_component component (.inl rfl)
          rw [List.append_nil, shape] at parsed
          rw [nameText, shape, parseComponents, parsed]
          rfl
      | cons next rest =>
          have later := ih less (Nat.le_of_succ_le_succ enough)
          have parsed := parse_component component (.inr ⟨nameText (next :: rest), rfl⟩)
          have eaten : eatWhite (comma :: nameText (next :: rest)) =
            comma :: nameText (next :: rest) := rfl
          rw [shape, List.cons_append] at parsed
          rw [nameText, shape, List.cons_append, parseComponents, parsed]
          simp only [bind, Except.bind, eaten, true_or, if_true, later, List.map_cons]

theorem name_text_long (components : List Component) :
    components.length ≤ (nameText components).length := by
  induction components with
  | nil => exact Nat.le_refl 0
  | cons component rest ih =>
      obtain ⟨first, others, shape⟩ := component_text_cons component
      cases rest with
      | nil =>
          rw [nameText, shape]
          simp
      | cons next rest =>
          rw [nameText, List.length_append, List.length_cons (a := component),
            List.length_cons (a := comma)]
          omega

theorem parse_strict (components : List Component) :
    parseStrict (nameText components) =
      .ok (components.map fun component => (component.type, component.writing.copied)) :=
  parse_components components _ (name_text_long components)

/-- What a piece outside of quotes is unescaped to. -/
def Piece.unescaped : Piece → Str
  | .char value => [value]
  | .escaped value => [value]
  | .hexpair high low => [high, low]

theorem unescape_char {char : Byte} (other : char ≠ backslash) {result : Str}
    (read : unescapePairs rest = .ok result) :
    unescapePairs (char :: rest) = .ok (char :: result) := by
  rw [unescapePairs.eq_def]
  simp only [if_pos other, read]
  rfl

theorem unescape_pair (char : Byte) {result : Str} (read : unescapePairs rest = .ok result) :
    unescapePairs (backslash :: char :: rest) = .ok (char :: result) := by
  have every : char ∈ special ∨ char ≠ backslash ∨ char ≠ doubleQuote := by
    by_cases same : char = backslash
    · subst same
      decide
    · exact .inr (.inl same)
  rw [unescapePairs.eq_def]
  simp only [ne_eq, not_true_eq_false, if_false]
  rw [if_pos every, read]
  rfl

theorem unescape_pieces (plain : ∀ piece ∈ pieces, piece.Plain) :
    unescapePairs (pieces.flatMap Piece.text) = .ok (pieces.flatMap Piece.unescaped) := by
  induction pieces with
  | nil => rfl
  | cons piece pieces ih =>
      have here := plain piece List.mem_cons_self
      have later := ih fun other inside => plain other (List.mem_cons_of_mem piece inside)
      rw [List.flatMap_cons, List.flatMap_cons]
      cases piece with
      | char value => exact unescape_char here.2.1 later
      | escaped value => exact unescape_pair value later
      | hexpair high low => exact unescape_pair high (unescape_char (hex_plain here.2).2.1 later)

theorem unescape_plain (plain : ∀ piece ∈ pieces, piece.Plain) :
    unescape (Writing.plain pieces).copied = .ok ((trimmed pieces).flatMap Piece.unescaped) := by
  have left := trimmed_plain plain
  have read := unescape_pieces left
  rw [copied_plain plain]
  cases shape : trimmed pieces with
  | nil => rfl
  | cons piece rest =>
      rw [shape] at left read
      obtain ⟨first, more, text, notHash, notQuote, _⟩ :=
        piece_head (left piece List.mem_cons_self)
      rw [List.flatMap_cons, text, List.cons_append] at read ⊢
      rw [unescape, if_neg notQuote, if_neg notHash, read]

theorem unescape_quoted (pieces : List Piece) :
    unescape (Writing.quoted pieces).copied = .ok (pieces.flatMap Piece.text) := by
  have closed : (doubleQuote :: (pieces.flatMap Piece.text ++ [doubleQuote])).getLast? =
      some doubleQuote := by
    rw [← List.cons_append, List.getLast?_concat]
  have copied : (Writing.quoted pieces).copied =
      doubleQuote :: (pieces.flatMap Piece.text ++ [doubleQuote]) := rfl
  rw [copied, unescape, if_pos rfl, if_neg fun other => other closed, List.dropLast_concat]

theorem unescape_hex_string {pairs : List (Byte × Byte)} (some : pairs ≠ []) :
    ∃ ex, unescape (Writing.hexString pairs).copied = .error ex := by
  have failed : ∀ pairs : List (Byte × Byte), pairs ≠ [] →
      ∃ ex, unescapeHexString (pairs.flatMap fun pair => [pair.1, pair.2]) = .error ex := by
    intro pairs some
    induction pairs with
    | nil => exact absurd rfl some
    | cons pair pairs ih =>
        rw [List.flatMap_cons, List.cons_append, List.cons_append, List.nil_append,
          unescapeHexString]
        cases read : unescapeHex (pair.1 :: pair.2 :: pairs.flatMap fun pair => [pair.1, pair.2]) with
        | error ex => exact ⟨ex, rfl⟩
        | ok char =>
            cases pairs with
            | nil => cases read
            | cons next rest =>
                obtain ⟨ex, later⟩ := ih (List.cons_ne_nil _ _)
                exact ⟨ex, by simp only [bind, Except.bind, later]⟩
  obtain ⟨ex, read⟩ := failed pairs some
  refine ⟨ex, ?_⟩
  have copied : (Writing.hexString pairs).copied =
      hash :: pairs.flatMap fun pair => [pair.1, pair.2] := rfl
  rw [copied, unescape, if_neg (by decide), if_pos rfl, read]

/-- The writings that are unescaped to the value they stand for: without hex, without pairs
between quotes and without a space in front. -/
def Writing.Readable : Writing → Prop
  | .plain pieces => pieces.head? ≠ some (.char space) ∧
      ∀ piece ∈ pieces, ∀ high low, piece ≠ .hexpair high low
  | .quoted pieces => ∀ piece ∈ pieces, ∃ value, piece = .char value
  | .hexString _ => False

theorem unescaped_long (pieces : List Piece) :
    pieces.length ≤ (pieces.flatMap Piece.unescaped).length := by
  induction pieces with
  | nil => exact Nat.le_refl 0
  | cons piece pieces ih =>
      rw [List.flatMap_cons, List.length_append, List.length_cons]
      cases piece <;> simp only [Piece.unescaped, List.length_cons, List.length_nil] <;> omega

theorem unescaped_value (pieces : List Piece) :
    pieces.flatMap Piece.unescaped = pieces.map Piece.value ↔
      ∀ piece ∈ pieces, ∀ high low, piece ≠ .hexpair high low := by
  induction pieces with
  | nil => simp
  | cons piece pieces ih =>
      rw [List.flatMap_cons, List.map_cons, List.forall_mem_cons, ← ih]
      cases piece with
      | char value => simp [Piece.unescaped, Piece.value]
      | escaped value => simp [Piece.unescaped, Piece.value]
      | hexpair high low =>
          refine ⟨fun same => ?_, fun other => absurd rfl (other.1 high low)⟩
          have size := congrArg List.length same
          have long := unescaped_long pieces
          simp only [Piece.unescaped, List.length_append, List.length_cons, List.length_nil,
            List.length_map] at size
          omega

theorem text_long (pieces : List Piece) :
    pieces.length ≤ (pieces.flatMap Piece.text).length := by
  induction pieces with
  | nil => exact Nat.le_refl 0
  | cons piece pieces ih =>
      rw [List.flatMap_cons, List.length_append, List.length_cons]
      cases piece <;> simp only [Piece.text, List.length_cons, List.length_nil] <;> omega

theorem quoted_value (pieces : List Piece) :
    pieces.flatMap Piece.text = pieces.map Piece.value ↔
      ∀ piece ∈ pieces, ∃ value, piece = .char value := by
  induction pieces with
  | nil => simp
  | cons piece pieces ih =>
      have long := text_long pieces
      rw [List.flatMap_cons, List.map_cons, List.forall_mem_cons, ← ih]
      cases piece with
      | char value => simp [Piece.text, Piece.value]
      | escaped value =>
          refine ⟨fun same => ?_, fun other => ?_⟩
          · have size := congrArg List.length same
            simp only [Piece.text, List.length_append, List.length_cons, List.length_nil,
              List.length_map] at size
            omega
          · obtain ⟨_, same⟩ := other.1
            cases same
      | hexpair high low =>
          refine ⟨fun same => ?_, fun other => ?_⟩
          · have size := congrArg List.length same
            simp only [Piece.text, List.length_append, List.length_cons, List.length_nil,
              List.length_map] at size
            omega
          · obtain ⟨_, same⟩ := other.1
            cases same

theorem unescaped_head {piece : Piece} (plain : piece.Plain) (other : piece ≠ .char space) :
    ∃ first rest, piece.unescaped = first :: rest ∧ first ≠ space := by
  cases piece with
  | char value => exact ⟨value, [], rfl, fun same => other (by rw [same])⟩
  | escaped value =>
      have notSpace : ¬(space ∈ special ∨ space = backslash ∨ space = doubleQuote) := by decide
      exact ⟨value, [], rfl, fun same => notSpace (same ▸ plain)⟩
  | hexpair high low => exact ⟨high, [low], rfl, (hex_plain plain.1).2.2.2⟩

theorem trimmed_head {pieces : List Piece} {piece : Piece}
    (starts : (trimmed pieces).head? = some piece) : piece ≠ .char space := by
  have stopped := List.head?_dropWhile_not (fun piece => decide (piece = .char space)) pieces
  unfold trimmed at starts
  rw [starts] at stopped
  simpa using stopped

theorem plain_value (plain : ∀ piece ∈ pieces, piece.Plain) :
    (trimmed pieces).flatMap Piece.unescaped = pieces.map Piece.value ↔
      (pieces.head? ≠ some (.char space) ∧
        ∀ piece ∈ pieces, ∀ high low, piece ≠ .hexpair high low) := by
  by_cases spaced : pieces.head? = some (.char space)
  · refine ⟨fun same => ?_, fun readable => absurd spaced readable.1⟩
    -- The value should start with a space, and does not.
    obtain ⟨rest, rfl⟩ : ∃ rest, pieces = .char space :: rest := by
      cases pieces with
      | nil => cases spaced
      | cons piece rest => exact ⟨rest, by rw [Option.some.inj spaced]⟩
    have left := trimmed_plain plain
    have heads := @trimmed_head (.char space :: rest)
    cases shape : trimmed (.char space :: rest) with
    | nil =>
        rw [shape] at same
        cases same
    | cons piece more =>
        rw [shape] at same left heads
        obtain ⟨first, others, text, notSpace⟩ :=
          unescaped_head (left piece List.mem_cons_self) (heads rfl)
        rw [List.flatMap_cons, text, List.map_cons] at same
        exact absurd (List.cons.inj same).1 notSpace
  · have whole : trimmed pieces = pieces := by
      cases pieces with
      | nil => rfl
      | cons piece rest =>
          have other : piece ≠ .char space := fun same => spaced (by rw [same]; rfl)
          rw [trimmed, List.dropWhile_cons_of_neg (by simpa using other)]
    rw [whole, unescaped_value]
    exact ⟨fun noHex => ⟨spaced, noHex⟩, fun readable => readable.2⟩

/-- A copied value is unescaped to the one that was written exactly when it is readable. -/
theorem unescape_copied {writing : Writing} (grammatical : writing.Grammatical)
    (nonempty : writing.value ≠ []) :
    unescape writing.copied = .ok writing.value ↔ writing.Readable := by
  cases writing with
  | plain pieces =>
      rw [unescape_plain grammatical, Except.ok.injEq]
      exact plain_value grammatical
  | quoted pieces =>
      rw [unescape_quoted, Except.ok.injEq]
      exact quoted_value pieces
  | hexString pairs =>
      have some : pairs ≠ [] := by
        intro none
        apply nonempty
        rw [none]
        rfl
      obtain ⟨ex, failed⟩ := unescape_hex_string some
      rw [failed]
      constructor
      · intro same
        cases same
      · intro readable
        exact False.elim readable

theorem unescape_all (components : List Component) :
    unescapeAll (components.map fun component => (component.type, component.writing.copied)) =
        .ok (denoted components) ↔
      ∀ component ∈ components, component.writing.Readable := by
  induction components with
  | nil => simp [denoted, unescapeAll]
  | cons component rest ih =>
      have here := unescape_copied component.grammatical component.nonempty
      rw [List.map_cons, List.forall_mem_cons, ← ih, ← here, unescapeAll]
      constructor
      · intro read
        obtain ⟨value, first, read⟩ := bind_ok read
        obtain ⟨unescaped, others, same⟩ := bind_ok read
        cases same
        exact ⟨first, others⟩
      · rintro ⟨first, others⟩
        simp only [first, others, bind, Except.bind]
        rfl

theorem of_rdns (rdns unescaped : List Rdn) :
    (∃ name, DistinguishedName.ofRdns rdns = .ok name ∧ name.unescaped = unescaped) ↔
      unescapeAll rdns = .ok unescaped := by
  unfold DistinguishedName.ofRdns
  constructor
  · rintro ⟨name, made, same⟩
    split at made
    · cases made
    · next found unescapes =>
        cases made
        rw [← same]
        exact unescapes
  · intro unescapes
    split
    · next ex failed =>
        rw [failed] at unescapes
        cases unescapes
    · next found unescaped' =>
        refine ⟨_, rfl, ?_⟩
        rw [unescaped'] at unescapes
        exact Except.ok.inj unescapes

theorem of_string (components : List Component) (unescaped : List Rdn) :
    (∃ name, DistinguishedName.ofString (nameText components) = .ok name ∧
      name.unescaped = unescaped) ↔
    unescapeAll (components.map fun component => (component.type, component.writing.copied)) =
      .ok unescaped := by
  rw [DistinguishedName.ofString, parse_strict]
  exact of_rdns _ _

/-- A name is read back from its text exactly when all its values are written in a readable
way, and two such texts compare equal exactly when they stand for the same list. -/
theorem distinguished_name_round_trip (components : List Component) :
    ((∃ name, DistinguishedName.ofString (nameText components) = .ok name ∧
        name.unescaped = denoted components) ↔
      ∀ component ∈ components, component.writing.Readable) ∧
    ∀ others : List Component,
      (∀ component ∈ components ++ others, component.writing.Readable) →
      ∃ first second, DistinguishedName.ofString (nameText components) = .ok first ∧
        DistinguishedName.ofString (nameText others) = .ok second ∧
        (first.equals second = true ↔ denoted components = denoted others) := by
  have whole (components : List Component) :
      (∃ name, DistinguishedName.ofString (nameText components) = .ok name ∧
        name.unescaped = denoted components) ↔
      ∀ component ∈ components, component.writing.Readable :=
    (of_string components (denoted components)).trans (unescape_all components)
  refine ⟨whole components, ?_⟩
  intro others readable
  obtain ⟨first, made, denotes⟩ := (whole components).mpr fun component inside =>
    readable component (List.mem_append_left others inside)
  obtain ⟨second, made', denotes'⟩ := (whole others).mpr fun component inside =>
    readable component (List.mem_append_right components inside)
  refine ⟨first, second, made, made', ?_⟩
  rw [DistinguishedName.equals, decide_eq_true_eq, denotes, denotes']
  exact eq_comm

theorem surname_pieces : ∀ piece ∈ [Piece.char 76, .char 117, .hexpair 67 52, .hexpair 56 68,
    .char 105, .hexpair 67 52, .hexpair 56 55], piece.Plain := by
  decide

/-- The grammar's own example, whose value is `Lučić` in UTF-8. -/
def surname : Component where
  type := text "SN"
  writing := .plain [.char 76, .char 117, .hexpair 67 52, .hexpair 56 68, .char 105,
    .hexpair 67 52, .hexpair 56 55]
  valid := .key rfl (by decide)
  grammatical := surname_pieces
  nonempty := by decide

theorem hex_pairs_not_unescaped :
    nameText [surname] = text "SN=Lu\\C4\\8Di\\C4\\87" ∧
    denoted [surname] = [(text "SN", [76, 117, 0xC4, 0x8D, 105, 0xC4, 0x87])] ∧
    ∃ name, DistinguishedName.ofString (nameText [surname]) = .ok name ∧
      name.unescaped = [(text "SN", text "LuC48DiC487")] := by
  refine ⟨by decide, by decide, ?_⟩
  exact (of_string [surname] _).mpr (by decide)

end IceTouch.Ssl
