import IceTouch.Strings.ProxyStrings

/-!
# Quoted text

An escaped string has a backslash before every quote, so the quotes that `toString` puts
around it are the only ones `checkQuote` can stop at. It stops at the last one unless the
escaped string ends in a backslash.
-/

namespace IceTouch.Proxies

open Bytes WireTypes Escape Identities Scanning

def Sealed : Byte → Str → Prop
  | _, [] => True
  | previous, char :: rest => (char = doubleQuote → previous = backslash) ∧ Sealed char rest

instance Sealed.decidable : ∀ (previous : Byte) (s : Str), Decidable (Sealed previous s)
  | _, [] => inferInstanceAs (Decidable True)
  | previous, char :: rest =>
      have := Sealed.decidable char rest
      inferInstanceAs (Decidable ((char = doubleQuote → previous = backslash) ∧ _))

/-- The character before what comes after `s`. -/
def lastOf (previous : Byte) (s : Str) : Byte := s.getLast?.getD previous

theorem last_of_cons (previous char : Byte) (rest : Str) :
    lastOf previous (char :: rest) = lastOf char rest := by
  cases rest with
  | nil => rfl
  | cons next more => simp [lastOf, List.getLast?_cons]

theorem sealed_append (previous : Byte) (first second : Str) :
    Sealed previous (first ++ second) ↔
      Sealed previous first ∧ Sealed (lastOf previous first) second := by
  induction first generalizing previous with
  | nil => simp [Sealed, lastOf]
  | cons char rest ih => simp only [List.cons_append, Sealed, ih, last_of_cons, and_assoc]

variable {s special : Str}

theorem sealed_after (isSealed : Sealed 0 s) (previous : Byte) : Sealed previous s := by
  cases s with
  | nil => trivial
  | cons char rest => exact ⟨fun same => absurd (isSealed.1 same) (by decide), isSealed.2⟩

/-- What `toString` passes to `escapeString` as special characters. -/
def Chosen (special : Str) : Prop := special = [slash] ∨ special = []

theorem Chosen.plain {special : Str} (chosen : Chosen special) : Plain special := by
  obtain rfl | rfl := chosen
  · exact slash_plain
  · exact nothing_plain

section

variable (chosen : Chosen special)

include chosen

theorem encode_char_shape (char : Byte) :
    Sealed 0 (encodeChar special char) ∧
      (∀ first ∈ (encodeChar special char).head?, first ≠ doubleQuote ∧ first ≠ quote) ∧
      (∀ inner ∈ encodeChar special char, isSeparator inner = true →
        inner = char ∧ isBlank char = decide (char = space)) := by
  obtain rfl | rfl := chosen
  · exact every_byte (by decide +kernel) char
  · exact every_byte (by decide +kernel) char

theorem sealed_encode (previous : Byte) (s : Str) : Sealed previous (encodeAll special s) := by
  induction s generalizing previous with
  | nil => trivial
  | cons char rest ih =>
      rw [encodeAll, List.flatMap_cons, sealed_append]
      exact ⟨sealed_after (encode_char_shape chosen char).1 previous, ih _⟩

theorem separator_of_encode {inner : Byte} (inside : inner ∈ encodeAll special s)
    (separator : isSeparator inner = true) :
    inner ∈ s ∧ (inner = space ∨ inner = colon ∨ inner = atSign) := by
  obtain ⟨char, member, here⟩ := List.mem_flatMap.mp inside
  obtain ⟨same, blank⟩ := (encode_char_shape chosen char).2.2 inner here separator
  subst same
  refine ⟨member, ?_⟩
  rw [isSeparator, blank] at separator
  simpa [or_assoc] using separator

theorem encode_separator {char : Byte} (separator : char = space ∨ char = colon ∨ char = atSign) :
    encodeChar special char = [char] := by
  obtain rfl | rfl := chosen <;> obtain rfl | rfl | rfl := separator <;> rfl

theorem mem_encode {char : Byte} (separator : char = space ∨ char = colon ∨ char = atSign) :
    char ∈ encodeAll special s ↔ char ∈ s := by
  constructor
  · intro inside
    have isSep : isSeparator char = true := by
      obtain rfl | rfl | rfl := separator <;> rfl
    exact (separator_of_encode chosen inside isSep).1
  · intro inside
    apply List.mem_flatMap.mpr
    refine ⟨char, inside, ?_⟩
    rw [encode_separator chosen separator]
    exact List.mem_singleton.mpr rfl

theorem encode_head {first : Byte} (starts : (encodeAll special s).head? = some first) :
    first ≠ doubleQuote ∧ first ≠ quote := by
  cases s with
  | nil => cases starts
  | cons char rest =>
      have shape := (encode_char_shape chosen char).2.1
      have grown := encode_char_pos chosen.plain char
      rw [encodeAll, List.flatMap_cons] at starts
      cases split : encodeChar special char with
      | nil => simp [split] at grown
      | cons head tail =>
          rw [split] at starts shape
          exact shape first starts

end

theorem close_quote_sealed {previous : Byte} (isSealed : Sealed previous s) (rest : Str) :
    closeQuote doubleQuote previous (s ++ rest) =
      (closeQuote doubleQuote (lastOf previous s) rest).map
        fun found => (s ++ found.1, found.2) := by
  induction s generalizing previous with
  | nil => simp [lastOf]
  | cons char more ih =>
      have skipped : ¬(char = doubleQuote ∧ previous ≠ backslash) :=
        fun stop => stop.2 (isSealed.1 stop.1)
      rw [List.cons_append, closeQuote, if_neg skipped, ih isSealed.2, last_of_cons,
        Option.map_map]
      rfl

/-- A text that `toString` encloses in quotes or leaves as it is. -/
structure Spelled (s : Str) : Prop where
  isSealed : Sealed doubleQuote s
  head : ∀ first, s.head? = some first → first ≠ doubleQuote ∧ first ≠ quote
  separators : ∀ char ∈ s, isSeparator char = true →
    char = space ∨ char = colon ∨ char = atSign

def separated (s : Str) : Bool := s.any fun char => isSeparator char

theorem Spelled.separated_iff (spelled : Spelled s) :
    (space ∈ s ∨ colon ∈ s ∨ atSign ∈ s) ↔ separated s = true := by
  rw [separated, List.any_eq_true]
  constructor
  · rintro (here | here | here)
    · exact ⟨space, here, rfl⟩
    · exact ⟨colon, here, rfl⟩
    · exact ⟨atSign, here, rfl⟩
  · rintro ⟨char, inside, isSep⟩
    obtain rfl | rfl | rfl := spelled.separators char inside isSep
    · exact .inl inside
    · exact .inr (.inl inside)
    · exact .inr (.inr inside)

theorem Spelled.enclose_eq (spelled : Spelled s) :
    enclose s = if separated s then doubleQuote :: (s ++ [doubleQuote]) else s := by
  unfold enclose
  by_cases isSeparated : separated s = true
  · rw [if_pos (spelled.separated_iff.mpr isSeparated), if_pos isSeparated]
  · rw [if_neg fun found => isSeparated (spelled.separated_iff.mp found), if_neg isSeparated]

theorem encode_spelled (chosen : Chosen special) (s : Str) :
    Spelled (encodeAll special s) where
  isSealed := sealed_encode chosen doubleQuote s
  head := fun _ starts => encode_head chosen starts
  separators := fun _ inside separator => (separator_of_encode chosen inside separator).2

theorem encode_separated (chosen : Chosen special) (s : Str) :
    separated (encodeAll special s) = true ↔ (space ∈ s ∨ colon ∈ s ∨ atSign ∈ s) := by
  rw [← (encode_spelled chosen s).separated_iff, mem_encode chosen (.inl rfl),
    mem_encode chosen (.inr (.inl rfl)), mem_encode chosen (.inr (.inr rfl))]

theorem check_quote_bare (spelled : Spelled s) (some : s ≠ []) (rest : Str) :
    checkQuote (s ++ rest) = .bare := by
  cases s with
  | nil => exact absurd rfl some
  | cons char more =>
      obtain ⟨notDouble, notSingle⟩ := spelled.head char rfl
      rw [List.cons_append, checkQuote, if_neg]
      rintro (double | single)
      · exact notDouble double
      · exact notSingle single

theorem check_quote_closed (spelled : Spelled s) (ends : s.getLast? ≠ some backslash) (rest : Str) :
    checkQuote (doubleQuote :: (s ++ doubleQuote :: rest)) = .matched s rest := by
  have visible : lastOf doubleQuote s ≠ backslash := by
    intro same
    cases last : s.getLast? with
    | none =>
        rw [lastOf, last, Option.getD_none] at same
        exact absurd same (by decide)
    | some char =>
        rw [lastOf, last, Option.getD_some] at same
        exact ends (last.trans (congrArg some same))
  have closed : closeQuote doubleQuote doubleQuote (s ++ doubleQuote :: rest) =
      some (s, rest) := by
    rw [close_quote_sealed spelled.isSealed, closeQuote, if_pos ⟨rfl, visible⟩]
    simp
  rw [checkQuote, if_pos (.inl rfl), closed]

theorem check_quote_open (spelled : Spelled s) (ends : s.getLast? = some backslash) (rest : Str) :
    checkQuote (doubleQuote :: (s ++ doubleQuote :: rest)) =
      match closeQuote doubleQuote doubleQuote rest with
      | none => .unmatched
      | some (content, after) => .matched (s ++ doubleQuote :: content) after := by
  have hidden : lastOf doubleQuote s = backslash := by
    rw [lastOf, ends, Option.getD_some]
  have skipped : ¬(doubleQuote = doubleQuote ∧ backslash ≠ backslash) := fun stop => stop.2 rfl
  rw [checkQuote, if_pos (.inl rfl), close_quote_sealed spelled.isSealed, hidden, closeQuote,
    if_neg skipped]
  cases closeQuote doubleQuote doubleQuote rest <;> rfl

theorem token_enclose (stop : Byte → Bool)
    (blanks : ∀ char, stop char = true →
      isSeparator char = true) (spelled : Spelled s) (some' : s ≠ [])
    (ends : separated s = true → s.getLast? ≠ some backslash) {rest : Str}
    (stops : Stops (fun char => !stop char) rest) :
    takeToken stop (enclose s ++ rest) = some (s, rest) := by
  rw [spelled.enclose_eq]
  by_cases isSeparated : separated s = true
  · rw [if_pos isSeparated, List.cons_append, List.append_assoc, List.singleton_append, takeToken,
      check_quote_closed spelled (ends isSeparated)]
  · have plain : ∀ char ∈ s, (fun char => !stop char) char = true := by
      intro char inside
      by_contra stopped
      apply isSeparated
      rw [separated, List.any_eq_true]
      exact ⟨char, inside, blanks char (by simpa using stopped)⟩
    rw [if_neg isSeparated, takeToken, check_quote_bare spelled some']
    simp only [take_while_stops plain stops, drop_while_stops plain stops]

end IceTouch.Proxies
