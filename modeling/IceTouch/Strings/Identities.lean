import IceTouch.Strings.Escape

/-!
# Stringified identities

`Instance::identityToString` and `Instance::stringToIdentity`, with no string converter
installed. The printer puts a backslash before every slash of the name and of the category;
the parser takes the one slash that has no backslash before it for the separator.
-/

namespace IceTouch.Identities

open Bytes WireTypes Escape

structure Identity where
  name : Str
  category : Str
deriving DecidableEq, Repr

/-- Why an `IdentityParseException` is thrown. -/
inductive IdentityParse where
  | extraSlash
  | invalidName (cause : IllegalArgument)
  | invalidCategory (cause : IllegalArgument)
  | invalidNameAfterCategory (cause : IllegalArgument)
deriving DecidableEq, Repr

def IdentityParse.str (s : Str) : IdentityParse → Str
  | .extraSlash => text "unescaped backslash in identity \x60" ++ s ++ text "'"
  | .invalidName cause => text "invalid identity name \x60" ++ s ++ text "': " ++ cause.reason
  | .invalidCategory cause =>
      text "invalid category in identity \x60" ++ s ++ text "': " ++ cause.reason
  | .invalidNameAfterCategory cause =>
      text "invalid name in identity \x60" ++ s ++ text "': " ++ cause.reason

def identityToString (ident : Identity) : Except IllegalArgument Str :=
  if ident.category = [] then escapeString ident.name [slash]
  else do
    let category ← escapeString ident.category [slash]
    let name ← escapeString ident.name [slash]
    .ok (category ++ slash :: name)

/-- The loop over the slashes, with the character before the rest of the string, its position
and the separator found so far. -/
def findSeparator : Option Byte → Nat → Option Nat → Str → Except IdentityParse (Option Nat)
  | _, _, separator, [] => .ok separator
  | previous, pos, separator, char :: rest =>
      if char = slash ∧ previous ≠ some backslash then
        match separator with
        | none => findSeparator (some char) (pos + 1) (some pos) rest
        | some _ => .error .extraSlash
      else findSeparator (some char) (pos + 1) separator rest

def stringToIdentity (s : Str) : Except IdentityParse Identity := do
  match ← findSeparator none 0 none s with
  | none =>
      let name ← (unescapeString s 0 s.length).mapError .invalidName
      .ok { name := name, category := [] }
  | some separator =>
      let category ← (unescapeString s 0 separator).mapError .invalidCategory
      if separator + 1 < s.length then
        let name ← (unescapeString s (separator + 1) s.length).mapError .invalidNameAfterCategory
        .ok { name := name, category := category }
      else
        .ok { name := [], category := category }

theorem slash_plain : Plain [slash] := by
  intro char isSlash
  rw [List.mem_singleton] at isSlash
  subst isSlash
  decide

theorem nothing_plain : Plain [] := fun _ inside => nomatch inside

def Guarded : Option Byte → Str → Prop
  | _, [] => True
  | previous, char :: rest =>
      (char = slash → previous = some backslash) ∧ Guarded (some char) rest

instance Guarded.decidable : ∀ (previous : Option Byte) (s : Str), Decidable (Guarded previous s)
  | _, [] => inferInstanceAs (Decidable True)
  | previous, char :: rest =>
      have := Guarded.decidable (some char) rest
      inferInstanceAs (Decidable ((char = slash → previous = some backslash) ∧ _))

/-- The character before what comes after `s`. -/
def lastOr (previous : Option Byte) (s : Str) : Option Byte := s.getLast?.or previous

theorem last_or_cons (previous : Option Byte) (char : Byte) (rest : Str) :
    lastOr previous (char :: rest) = lastOr (some char) rest := by
  cases rest with
  | nil => rfl
  | cons next more => simp [lastOr, List.getLast?_cons]

theorem guarded_append (previous : Option Byte) (first second : Str) :
    Guarded previous (first ++ second) ↔
      Guarded previous first ∧ Guarded (lastOr previous first) second := by
  induction first generalizing previous with
  | nil => simp [Guarded, lastOr]
  | cons char rest ih => simp only [List.cons_append, Guarded, ih, last_or_cons, and_assoc]

variable {previous : Option Byte}

theorem find_separator_skip {char : Byte} (skipped : char = slash → previous = some backslash)
    (pos : Nat) (separator : Option Nat) (rest : Str) :
    findSeparator previous pos separator (char :: rest) =
      findSeparator (some char) (pos + 1) separator rest := by
  have unfound : ¬ (char = slash ∧ previous ≠ some backslash) :=
    fun found => found.2 (skipped found.1)
  cases separator <;> simp only [findSeparator, if_neg unfound]

theorem find_separator_guarded {first : Str} (guarded : Guarded previous first) (pos : Nat)
    (separator : Option Nat) (second : Str) :
    findSeparator previous pos separator (first ++ second) =
      findSeparator (lastOr previous first) (pos + first.length) separator second := by
  induction first generalizing previous pos with
  | nil => simp [lastOr]
  | cons char rest ih =>
      rw [List.cons_append, find_separator_skip guarded.1, ih guarded.2, last_or_cons]
      congr 1
      simp only [List.length_cons]
      omega

theorem guarded_encode_char (char : Byte) : Guarded none (encodeChar [slash] char) :=
  every_byte (by decide +kernel) char

theorem Guarded.after {s : Str} (guarded : Guarded none s) (previous : Option Byte) :
    Guarded previous s := by
  cases s with
  | nil => trivial
  | cons char rest =>
      refine ⟨fun same => ?_, guarded.2⟩
      cases guarded.1 same

theorem guarded_encode_all (previous : Option Byte) (s : Str) :
    Guarded previous (encodeAll [slash] s) := by
  induction s generalizing previous with
  | nil => trivial
  | cons char rest ih =>
      rw [encodeAll, List.flatMap_cons, guarded_append]
      exact ⟨(guarded_encode_char char).after previous, ih _⟩

def spelled (ident : Identity) : Str :=
  if ident.category = [] then encodeAll [slash] ident.name
  else encodeAll [slash] ident.category ++ slash :: encodeAll [slash] ident.name

theorem identity_to_string (ident : Identity) : identityToString ident = .ok (spelled ident) := by
  have printable : [slash].all isPrintable = true := by decide
  by_cases bare : ident.category = []
  · simp only [identityToString, spelled, bare, if_true, escapeString, printable]
  · simp only [identityToString, spelled, bare, if_false, escapeString, printable, if_true, bind,
      Except.bind]

theorem find_separator_escaped (s : Str) :
    findSeparator none 0 none (encodeAll [slash] s) = .ok none := by
  have passed := find_separator_guarded (guarded_encode_all none s) 0 none []
  rw [List.append_nil] at passed
  rw [passed, findSeparator]

theorem last_or_escaped (s : Str) :
    lastOr none (encodeAll [slash] s) = some backslash ↔ s.getLast? = some backslash := by
  rw [lastOr, Option.or_none, encode_all_last slash_plain]

theorem find_separator_joined (category name : Str) :
    findSeparator none 0 none (encodeAll [slash] category ++ slash :: encodeAll [slash] name) =
      .ok (if category.getLast? = some backslash then none
        else some (encodeAll [slash] category).length) := by
  have passed := find_separator_guarded (guarded_encode_all none category) 0 none
    (slash :: encodeAll [slash] name)
  have rest (separator : Option Nat) := find_separator_guarded
    (guarded_encode_all (some slash) name) (0 + (encodeAll [slash] category).length + 1) separator []
  simp only [List.append_nil] at rest
  rw [passed]
  by_cases hidden : category.getLast? = some backslash
  · rw [find_separator_skip fun _ => (last_or_escaped category).mpr hidden, rest, findSeparator,
      if_pos hidden]
  · have seen : lastOr none (encodeAll [slash] category) ≠ some backslash :=
      fun last => hidden ((last_or_escaped category).mp last)
    rw [findSeparator, if_pos ⟨rfl, seen⟩, rest, findSeparator, if_neg hidden, Nat.zero_add]

theorem unescape_prefix (s more : Str) :
    unescapeString (encodeAll [slash] s ++ more) 0 (encodeAll [slash] s).length = .ok s := by
  have whole := unescape_escape slash_plain s
  simpa [unescapeString] using whole

theorem unescape_suffix (before s : Str) :
    unescapeString (before ++ slash :: encodeAll [slash] s) (before.length + 1)
      (before ++ slash :: encodeAll [slash] s).length = .ok s := by
  have long := encode_all_length slash_plain s
  have cut : (before ++ slash :: encodeAll [slash] s).drop (before.length + 1) =
      encodeAll [slash] s := by
    rw [← List.drop_drop, List.drop_left]
    rfl
  have rounds : (before ++ slash :: encodeAll [slash] s).length - (before.length + 1) =
      s.length + ((encodeAll [slash] s).length - s.length) := by
    simp only [List.length_append, List.length_cons]
    omega
  have decoded := decode_string_append slash_plain s []
    ((before ++ slash :: encodeAll [slash] s).take (before.length + 1))
    ((encodeAll [slash] s).length - s.length)
  have ended (after : Str) :
      decodeString ((encodeAll [slash] s).length - s.length) after [] = .ok [] := by
    cases (encodeAll [slash] s).length - s.length <;> rfl
  rw [List.append_nil, ended] at decoded
  rw [unescapeString, rounds, List.take_length, cut, decoded]
  simp [Except.map]

/-- An identity is read back from its string exactly when its category does not end in a
backslash. -/
theorem string_to_identity_spelled (ident : Identity) :
    stringToIdentity (spelled ident) = .ok ident ↔ ident.category.getLast? ≠ some backslash := by
  by_cases bare : ident.category = []
  · have read : stringToIdentity (spelled ident) = .ok { name := ident.name, category := [] } := by
      simp only [spelled, bare, if_true, stringToIdentity, find_separator_escaped, bind, Except.bind,
        unescape_escape slash_plain, Except.mapError]
    have same : ident = { name := ident.name, category := [] } := by
      rw [← bare]
    rw [read, ← same, bare]
    simp
  · have joined := find_separator_joined ident.category ident.name
    have string : spelled ident =
        encodeAll [slash] ident.category ++ slash :: encodeAll [slash] ident.name := by
      rw [spelled, if_neg bare]
    by_cases hidden : ident.category.getLast? = some backslash
    · rw [if_pos hidden] at joined
      refine ⟨fun read => ?_, fun visible => absurd hidden visible⟩
      rw [string, stringToIdentity, joined] at read
      simp only [bind, Except.bind] at read
      split at read
      · cases read
      · next name _ =>
          have category : ([] : Str) = ident.category := by
            simp only [Except.ok.injEq] at read
            rw [← read]
          exact absurd category.symm bare
    · rw [if_neg hidden] at joined
      refine ⟨fun _ => hidden, fun _ => ?_⟩
      have category := unescape_prefix ident.category (slash :: encodeAll [slash] ident.name)
      have name := unescape_suffix (encodeAll [slash] ident.category) ident.name
      rw [string, stringToIdentity, joined]
      simp only [bind, Except.bind, category, name, Except.mapError]
      split
      · rfl
      · next short =>
          have empty : ident.name = [] := by
            have long := encode_all_length slash_plain ident.name
            simp only [List.length_append, List.length_cons] at short
            exact List.eq_nil_of_length_eq_zero (by omega)
          rw [← empty]

def Ends (tail : Str) : Prop :=
  ∀ (char : Byte) (remaining : Str), tail ≠ encodeChar [slash] char ++ remaining

theorem ends_nil : Ends [] := by
  intro char remaining same
  have grown := encode_char_pos slash_plain char
  have size := congrArg List.length same
  simp only [List.length_nil, List.length_append] at size
  omega

theorem ends_slash (rest : Str) : Ends (slash :: rest) := by
  intro char remaining same
  obtain ⟨head, tail, shape, -⟩ := decode_encode_char slash_plain [] [] char
  have guarded := guarded_encode_char char
  rw [shape] at guarded same
  rw [List.cons_append, List.cons.injEq] at same
  cases guarded.1 same.1.symm

theorem encode_all_injective {first second more rest : Str} (ends : Ends more) (ends' : Ends rest)
    (same : encodeAll [slash] first ++ more = encodeAll [slash] second ++ rest) :
    first = second ∧ more = rest := by
  induction first generalizing second with
  | nil =>
      cases second with
      | nil => exact ⟨rfl, same⟩
      | cons char left =>
          rw [encodeAll, encodeAll, List.flatMap_cons, List.append_assoc] at same
          exact absurd same (ends _ _)
  | cons char left ih =>
      cases second with
      | nil =>
          rw [encodeAll, encodeAll, List.flatMap_cons, List.append_assoc] at same
          exact absurd same.symm (ends' _ _)
      | cons other right =>
          simp only [encodeAll, List.flatMap_cons, List.append_assoc] at same
          obtain ⟨here, later⟩ := encode_char_inj slash_plain same
          obtain ⟨front, back⟩ := ih later
          exact ⟨by rw [here, front], back⟩

/-- The separator is told apart from the escaped slashes even where the parser misses it. -/
theorem spelled_injective {first second : Identity} (same : spelled first = spelled second) :
    first = second := by
  obtain ⟨name, category⟩ := first
  obtain ⟨name', category'⟩ := second
  have bare (s : Str) : encodeAll [slash] s = encodeAll [slash] s ++ [] := (List.append_nil _).symm
  unfold spelled at same
  dsimp only at same
  split at same
  · next empty =>
      rw [bare] at same
      split at same
      · next empty' =>
          rw [bare name'] at same
          rw [(encode_all_injective ends_nil ends_nil same).1, empty, empty']
      · cases (encode_all_injective ends_nil (ends_slash _) same).2
  · split at same
    · rw [bare name'] at same
      cases (encode_all_injective (ends_slash _) ends_nil same).2
    · obtain ⟨front, back⟩ := encode_all_injective (ends_slash _) (ends_slash _) same
      rw [List.cons.injEq, and_iff_right rfl, ← List.append_nil (encodeAll _ name),
        ← List.append_nil (encodeAll _ name')] at back
      rw [front, (encode_all_injective ends_nil ends_nil back).1]

/-- Printing never throws and tells any two identities apart; reading the string back gives
the identity exactly when its category does not end in a backslash. -/
theorem identity_string_round_trip (ident : Identity) :
    (∃ s, identityToString ident = .ok s ∧
      (stringToIdentity s = .ok ident ↔ ident.category.getLast? ≠ some backslash)) ∧
    ∀ other : Identity, identityToString ident = identityToString other → ident = other := by
  constructor
  · exact ⟨spelled ident, identity_to_string ident, string_to_identity_spelled ident⟩
  · intro other same
    rw [identity_to_string, identity_to_string, Except.ok.injEq] at same
    exact spelled_injective same

/-- The category is a backslash and the name is the letter `a`. -/
theorem backslash_category_lost :
    identityToString { name := [97], category := [backslash] } =
        .ok [backslash, backslash, slash, 97] ∧
      stringToIdentity [backslash, backslash, slash, 97] =
        .ok { name := [backslash, slash, 97], category := [] } ∧
      ({ name := [backslash, slash, 97], category := [] } : Identity) ≠
        { name := [97], category := [backslash] } := by
  decide

end IceTouch.Identities
