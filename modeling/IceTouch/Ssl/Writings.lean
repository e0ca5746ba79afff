import IceTouch.Ssl.RFC2253

/-!
# The writings of attribute values

The grammar in the comments of the parser: what each way of writing a value means, and what the
parser makes of it.
-/

namespace IceTouch.Ssl

open Bytes WireTypes Escape Scanning
open Proxies (space dot byte)

/-- `stringchar` or `quotechar`, or one of the two kinds of `pair`. -/
inductive Piece where
  | char (value : Byte)
  | escaped (value : Byte)
  | hexpair (high low : Byte)
deriving DecidableEq

def hexValue (char : Byte) : Nat :=
  if char ≤ byte '9' then char.toNat - 48
  else if char ≤ byte 'F' then char.toNat - 55
  else char.toNat - 87

def hexByte (high low : Byte) : Byte := UInt8.ofNat (hexValue high * 16 + hexValue low)

def Piece.text : Piece → Str
  | .char value => [value]
  | .escaped value => [backslash, value]
  | .hexpair high low => [backslash, high, low]

def Piece.value : Piece → Byte
  | .char value => value
  | .escaped value => value
  | .hexpair high low => hexByte high low

inductive Writing where
  | plain (pieces : List Piece)
  | quoted (pieces : List Piece)
  | hexString (pairs : List (Byte × Byte))
deriving DecidableEq

def Writing.text : Writing → Str
  | .plain pieces => pieces.flatMap Piece.text
  | .quoted pieces => doubleQuote :: (pieces.flatMap Piece.text ++ [doubleQuote])
  | .hexString pairs => hash :: pairs.flatMap fun pair => [pair.1, pair.2]

def Writing.value : Writing → Str
  | .plain pieces => pieces.map Piece.value
  | .quoted pieces => pieces.map Piece.value
  | .hexString pairs => pairs.map fun pair => hexByte pair.1 pair.2

/-- `"\" ( special | "\" | QUOTATION | hexpair )`. -/
def Piece.IsPair : Piece → Prop
  | .char _ => False
  | .escaped value => value ∈ special ∨ value = backslash ∨ value = doubleQuote
  | .hexpair high low => high ∈ hexvalid ∧ low ∈ hexvalid

instance decidableIsPair : (piece : Piece) → Decidable piece.IsPair
  | .char _ => instDecidableFalse
  | .escaped value =>
      inferInstanceAs (Decidable (value ∈ special ∨ value = backslash ∨ value = doubleQuote))
  | .hexpair high low => inferInstanceAs (Decidable (high ∈ hexvalid ∧ low ∈ hexvalid))

/-- The grammar allows the piece outside of quotes. -/
def Piece.Plain : Piece → Prop
  | .char value => value ∉ special ∧ value ≠ backslash ∧ value ≠ doubleQuote
  | piece => piece.IsPair

instance decidablePlain : (piece : Piece) → Decidable piece.Plain
  | .char value =>
      inferInstanceAs (Decidable (value ∉ special ∧ value ≠ backslash ∧ value ≠ doubleQuote))
  | .escaped value => inferInstanceAs (Decidable (Piece.escaped value).IsPair)
  | .hexpair high low => inferInstanceAs (Decidable (Piece.hexpair high low).IsPair)

def Piece.Quotable : Piece → Prop
  | .char value => value ≠ backslash ∧ value ≠ doubleQuote
  | piece => piece.IsPair

def Writing.Grammatical : Writing → Prop
  | .plain pieces => ∀ piece ∈ pieces, piece.Plain
  | .quoted pieces => ∀ piece ∈ pieces, piece.Quotable
  | .hexString pairs => ∀ pair ∈ pairs, pair.1 ∈ hexvalid ∧ pair.2 ∈ hexvalid

def Writing.copied : Writing → Str
  | .plain pieces => (pieces.flatMap Piece.text).dropWhile fun char => char = space
  | writing => writing.text

def Ends (rest : Str) : Prop := rest = [] ∨ ∃ more, rest = comma :: more

variable {rest : Str} {pieces : List Piece}

theorem parse_pair (char : Byte) (rest : Str) :
    parsePair (char :: rest) = .ok ([backslash, char], rest) := by
  have every : char ∈ special ∨ char ≠ backslash ∨ char ≠ doubleQuote := by
    by_cases same : char = backslash
    · subst same
      decide
    · exact .inr (.inl same)
  simp only [parsePair, if_pos every]

variable {char : Byte} {rounds : Nat} {result after : Str}

theorem hex_plain (hex : char ∈ hexvalid) :
    char ∉ special ∧ char ≠ backslash ∧ char ≠ doubleQuote ∧ char ≠ space := by
  have every : ∀ char ∈ hexvalid,
      char ∉ special ∧ char ≠ backslash ∧ char ≠ doubleQuote ∧ char ≠ space := by
    decide
  exact every char hex

theorem parse_string_stops (ends : Ends rest) (rounds : Nat) :
    parseString rounds rest = .ok ([], rest) := by
  obtain rfl | ⟨more, rfl⟩ := ends
  · cases rounds <;> rfl
  · cases rounds with
    | zero => rfl
    | succ rounds =>
        have isSpecial : ¬(comma ∉ special ∧ comma ≠ doubleQuote) := by decide
        rw [parseString, if_neg (by decide), if_neg isSpecial]

theorem parse_string_char (plain : char ∉ special ∧ char ≠ backslash ∧ char ≠ doubleQuote)
    (read : parseString rounds rest = .ok (result, after)) :
    parseString (rounds + 1) (char :: rest) = .ok (char :: result, after) := by
  rw [parseString, if_neg plain.2.1, if_pos ⟨plain.1, plain.2.2⟩, read]
  rfl

theorem parse_string_pair (char : Byte) (read : parseString rounds rest = .ok (result, after)) :
    parseString (rounds + 1) (backslash :: char :: rest) =
      .ok (backslash :: char :: result, after) := by
  rw [parseString, if_pos rfl, parse_pair]
  simp only [bind, Except.bind, read, List.cons_append, List.nil_append]

theorem parse_string (plain : ∀ piece ∈ pieces, piece.Plain) (ends : Ends rest) (rounds : Nat)
    (enough : (pieces.flatMap Piece.text).length ≤ rounds) :
    parseString rounds (pieces.flatMap Piece.text ++ rest) =
      .ok (pieces.flatMap Piece.text, rest) := by
  induction pieces generalizing rounds with
  | nil => exact parse_string_stops ends rounds
  | cons piece pieces ih =>
      have here := plain piece List.mem_cons_self
      have later : ∀ other ∈ pieces, other.Plain :=
        fun other inside => plain other (List.mem_cons_of_mem piece inside)
      rw [List.flatMap_cons] at enough ⊢
      cases piece with
      | char value =>
          obtain ⟨less, rfl⟩ : ∃ less, rounds = less + 1 := ⟨rounds - 1, by
            simp only [Piece.text, List.length_append, List.length_singleton] at enough
            omega⟩
          apply parse_string_char here
          apply ih later
          simp only [Piece.text, List.length_append, List.length_singleton] at enough
          omega
      | escaped value =>
          obtain ⟨less, rfl⟩ : ∃ less, rounds = less + 1 := ⟨rounds - 1, by
            simp only [Piece.text, List.length_append, List.length_cons] at enough
            omega⟩
          apply parse_string_pair value
          apply ih later
          simp only [Piece.text, List.length_append, List.length_cons, List.length_nil] at enough
          omega
      | hexpair high low =>
          -- The second hex character is not a part of the pair.
          obtain ⟨less, rfl⟩ : ∃ less, rounds = less + 1 + 1 := ⟨rounds - 2, by
            simp only [Piece.text, List.length_append, List.length_cons] at enough
            omega⟩
          obtain ⟨notSpecial, notBackslash, notQuote, _⟩ := hex_plain here.2
          apply parse_string_pair high
          apply parse_string_char ⟨notSpecial, notBackslash, notQuote⟩
          apply ih later
          simp only [Piece.text, List.length_append, List.length_cons, List.length_nil] at enough
          omega

theorem parse_quoted_char (plain : char ≠ backslash ∧ char ≠ doubleQuote)
    (read : parseQuoted rounds rest = .ok (result, after)) :
    parseQuoted (rounds + 1) (char :: rest) = .ok (char :: result, after) := by
  rw [parseQuoted, if_neg plain.2, if_pos plain.1, read]
  rfl

theorem parse_quoted_pair (char : Byte) (read : parseQuoted rounds rest = .ok (result, after)) :
    parseQuoted (rounds + 1) (backslash :: char :: rest) =
      .ok (backslash :: char :: result, after) := by
  rw [parseQuoted, if_neg (by decide), if_neg (fun other => other rfl), parse_pair]
  simp only [bind, Except.bind, read, List.cons_append, List.nil_append]

theorem parse_quoted (quotable : ∀ piece ∈ pieces, piece.Quotable) (rest : Str) (rounds : Nat)
    (enough : (pieces.flatMap Piece.text).length < rounds) :
    parseQuoted rounds (pieces.flatMap Piece.text ++ doubleQuote :: rest) =
      .ok (pieces.flatMap Piece.text ++ [doubleQuote], rest) := by
  induction pieces generalizing rounds with
  | nil =>
      obtain ⟨less, rfl⟩ : ∃ less, rounds = less + 1 := ⟨rounds - 1, by
        simp only [List.flatMap_nil, List.length_nil] at enough
        omega⟩
      rfl
  | cons piece pieces ih =>
      have here := quotable piece List.mem_cons_self
      have later : ∀ other ∈ pieces, other.Quotable :=
        fun other inside => quotable other (List.mem_cons_of_mem piece inside)
      rw [List.flatMap_cons] at enough ⊢
      cases piece with
      | char value =>
          obtain ⟨less, rfl⟩ : ∃ less, rounds = less + 1 := ⟨rounds - 1, by omega⟩
          apply parse_quoted_char here
          apply ih later
          simp only [Piece.text, List.length_append, List.length_singleton] at enough
          omega
      | escaped value =>
          obtain ⟨less, rfl⟩ : ∃ less, rounds = less + 1 := ⟨rounds - 1, by omega⟩
          apply parse_quoted_pair value
          apply ih later
          simp only [Piece.text, List.length_append, List.length_cons, List.length_nil] at enough
          omega
      | hexpair high low =>
          obtain ⟨less, rfl⟩ : ∃ less, rounds = less + 1 + 1 := ⟨rounds - 2, by
            simp only [Piece.text, List.length_append, List.length_cons] at enough
            omega⟩
          obtain ⟨_, notBackslash, notQuote, _⟩ := hex_plain here.2
          apply parse_quoted_pair high
          apply parse_quoted_char ⟨notBackslash, notQuote⟩
          apply ih later
          simp only [Piece.text, List.length_append, List.length_cons, List.length_nil] at enough
          omega

theorem parse_hex_pair {high low : Byte} (isHigh : high ∈ hexvalid) (isLow : low ∈ hexvalid)
    (rest : Str) (allowEmpty : Bool) :
    parseHexPair (high :: low :: rest) allowEmpty = .ok ([high, low], rest) := by
  simp [parseHexPair, isHigh, isLow]

theorem parse_hex_stops (ends : Ends rest) : parseHexPair rest true = .ok ([], rest) := by
  obtain rfl | ⟨more, rfl⟩ := ends
  · rfl
  · have other : comma ∉ hexvalid := by decide
    simp [parseHexPair, other]

theorem parse_hex_string {pairs : List (Byte × Byte)}
    (hex : ∀ pair ∈ pairs, pair.1 ∈ hexvalid ∧ pair.2 ∈ hexvalid) (ends : Ends rest) (rounds : Nat)
    (enough : pairs.length ≤ rounds) :
    parseHexString rounds ((pairs.flatMap fun pair => [pair.1, pair.2]) ++ rest) =
      .ok (pairs.flatMap fun pair => [pair.1, pair.2], rest) := by
  induction pairs generalizing rounds with
  | nil =>
      cases rounds with
      | zero => rfl
      | succ rounds =>
          rw [List.flatMap_nil, List.nil_append, parseHexString, parse_hex_stops ends]
          rfl
  | cons pair pairs ih =>
      obtain ⟨isHigh, isLow⟩ := hex pair List.mem_cons_self
      obtain ⟨less, rfl⟩ : ∃ less, rounds = less + 1 := ⟨rounds - 1, by
        simp only [List.length_cons] at enough
        omega⟩
      have later := ih (fun other inside => hex other (List.mem_cons_of_mem pair inside))
        less (Nat.le_of_succ_le_succ enough)
      rw [List.flatMap_cons, List.append_assoc, List.cons_append, List.cons_append,
        List.nil_append, parseHexString, parse_hex_pair isHigh isLow]
      simp only [bind, Except.bind, reduceCtorEq, if_false, later]

theorem piece_head {piece : Piece} (plain : piece.Plain) :
    ∃ first rest, piece.text = first :: rest ∧ first ≠ hash ∧ first ≠ doubleQuote ∧
      (first = space → piece = .char space) := by
  cases piece with
  | char value =>
      refine ⟨value, [], rfl, ?_, plain.2.2, fun same => by rw [same]⟩
      intro same
      apply plain.1
      rw [same]
      decide
  | escaped value => exact ⟨backslash, [value], rfl, by decide, by decide,
      fun same => absurd same (by decide)⟩
  | hexpair high low => exact ⟨backslash, [high, low], rfl, by decide, by decide,
      fun same => absurd same (by decide)⟩

def trimmed (pieces : List Piece) : List Piece :=
  pieces.dropWhile fun piece => piece = .char space

section

variable (plain : ∀ piece ∈ pieces, piece.Plain)

include plain

theorem trimmed_plain : ∀ piece ∈ trimmed pieces, piece.Plain :=
  fun piece inside => plain piece ((List.dropWhile_sublist _).subset inside)

theorem eat_white_pieces (ends : Ends rest) :
    eatWhite (pieces.flatMap Piece.text ++ rest) =
      (trimmed pieces).flatMap Piece.text ++ rest := by
  induction pieces with
  | nil =>
      obtain rfl | ⟨more, rfl⟩ := ends <;> rfl
  | cons piece pieces ih =>
      have here := plain piece List.mem_cons_self
      by_cases isSpace : piece = .char space
      · have later := ih fun other inside => plain other (List.mem_cons_of_mem piece inside)
        have dropped : trimmed (piece :: pieces) = trimmed pieces := by
          rw [trimmed, List.dropWhile_cons_of_pos (by simpa using isSpace)]
          rfl
        rw [dropped, ← later, isSpace]
        rfl
      · obtain ⟨first, more, shape, _, _, only⟩ := piece_head here
        have kept : trimmed (piece :: pieces) = piece :: pieces := by
          rw [trimmed, List.dropWhile_cons_of_neg (by simpa using isSpace)]
        have other : first ≠ space := fun same => isSpace (only same)
        rw [kept, List.flatMap_cons, shape, List.cons_append, List.cons_append, eatWhite,
          List.dropWhile_cons_of_neg (by simpa using other)]

theorem copied_plain : (Writing.plain pieces).copied = (trimmed pieces).flatMap Piece.text := by
  have eaten := eat_white_pieces plain (.inl rfl)
  rw [List.append_nil, List.append_nil] at eaten
  exact eaten

end

theorem parse_attribute_value {writing : Writing} (grammatical : writing.Grammatical)
    (ends : Ends rest) :
    parseAttributeValue (writing.text ++ rest) = .ok (writing.copied, rest) := by
  cases writing with
  | plain pieces =>
      have eaten := eat_white_pieces grammatical ends
      have left := trimmed_plain grammatical
      rw [copied_plain grammatical, parseAttributeValue, Writing.text, eaten]
      cases shape : trimmed pieces with
      | nil =>
          obtain rfl | ⟨more, rfl⟩ := ends
          · rfl
          · have read := parse_string_stops (.inr ⟨more, rfl⟩) (more.length + 1)
            simp only [List.flatMap_nil, List.nil_append]
            rw [if_neg (by decide), if_neg (by decide), read]
      | cons piece pieces =>
          rw [shape] at left
          obtain ⟨first, more, text, notHash, notQuote, _⟩ :=
            piece_head (left piece List.mem_cons_self)
          have read := parse_string left ends (((piece :: pieces).flatMap Piece.text) ++ rest).length
            (by simp)
          rw [List.flatMap_cons, text, List.cons_append, List.cons_append] at read ⊢
          simp only
          rw [if_neg notHash, if_neg notQuote]
          exact read
  | quoted pieces =>
      have read := parse_quoted grammatical rest
        ((pieces.flatMap Piece.text ++ doubleQuote :: rest).length + 1) (by
          simp only [List.length_append, List.length_cons]
          omega)
      have eaten : eatWhite ((Writing.quoted pieces).text ++ rest) =
          doubleQuote :: (pieces.flatMap Piece.text ++ doubleQuote :: rest) := by
        rw [Writing.text, List.cons_append, List.append_assoc, List.singleton_append, eatWhite,
          List.dropWhile_cons_of_neg (by decide)]
      rw [parseAttributeValue, eaten]
      dsimp only
      rw [if_neg (by decide), if_pos rfl, read]
      rfl
  | hexString pairs =>
      have long : pairs.length ≤ (pairs.flatMap fun pair => [pair.1, pair.2]).length := by
        induction pairs with
        | nil => exact Nat.le_refl 0
        | cons pair pairs ih =>
            have rest := ih fun other inside => grammatical other (List.mem_cons_of_mem pair inside)
            simp only [List.flatMap_cons, List.length_append, List.length_cons, List.length_nil]
            omega
      have read := parse_hex_string grammatical ends
        ((pairs.flatMap fun pair => [pair.1, pair.2]) ++ rest).length (by
          rw [List.length_append]
          omega)
      have eaten : eatWhite ((Writing.hexString pairs).text ++ rest) =
          hash :: ((pairs.flatMap fun pair => [pair.1, pair.2]) ++ rest) := by
        rw [Writing.text, List.cons_append, eatWhite, List.dropWhile_cons_of_neg (by decide)]
      rw [parseAttributeValue, eaten]
      dsimp only
      rw [if_pos rfl, read]
      rfl

end IceTouch.Ssl
