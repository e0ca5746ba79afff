import IceTouch.WireTypes

/-!
# Escape sequences

`IceUtilInternal::escapeString` and `unescapeString`. A string is a byte string. The text
that is still to be decoded is passed on as a list, together with the text before it: the
positions of the source are the lengths of the latter, and the messages quote it.
-/

namespace IceTouch.Escape

open Bytes WireTypes

abbrev doubleQuote : Byte := 34
abbrev quote : Byte := 39
abbrev slash : Byte := 47
abbrev zero : Byte := 48
abbrev seven : Byte := 55
abbrev backslash : Byte := 92
abbrev letterB : Byte := 98
abbrev letterF : Byte := 102
abbrev letterN : Byte := 110
abbrev letterR : Byte := 114
abbrev letterT : Byte := 116
abbrev backspace : Byte := 8
abbrev tab : Byte := 9
abbrev newline : Byte := 10
abbrev formFeed : Byte := 12
abbrev carriageReturn : Byte := 13

def text (literal : String) : Str := literal.toList.map fun char => UInt8.ofNat char.toNat

/-- Why an `IllegalArgumentException` is thrown. -/
inductive IllegalArgument where
  | specialCharacters
  | notPrintable (before : Str) (ordinal : Nat)
  | trailingBackslash
  | octalValue (value : Nat)
deriving DecidableEq, Repr

def toOctal : Nat → Nat → Str → Str
  | 0, _, digits => digits
  | room + 1, value, digits =>
      let more := (zero + UInt8.ofNat (value % 8)) :: digits
      if value / 8 = 0 then more else toOctal room (value / 8) more

def toOctalString (value : Nat) : Str := toOctal 32 value []

def IllegalArgument.reason : IllegalArgument → Str
  | .specialCharacters => text "special characters must be in ASCII range 32-126"
  | .notPrintable before ordinal =>
      (if before = [] then text "first character"
        else text "character after \x60" ++ before ++ text "'") ++
        text " is not a printable ASCII character (ordinal " ++ text (toString ordinal) ++ text ")"
  | .trailingBackslash => text "trailing backslash"
  | .octalValue value =>
      text "octal value \\" ++ toOctalString value ++ text " (" ++ text (toString value) ++
        text ") is out of range"

def isPrintable (char : Byte) : Bool := 32 ≤ char && char ≤ 126

def isOctalDigit (char : Byte) : Bool := zero ≤ char && char ≤ seven

def encodeOctal (char : Byte) : Str :=
  let octal := toOctalString char.toNat
  backslash :: (List.replicate (3 - octal.length) zero ++ octal)

def encodeChar (special : Str) (char : Byte) : Str :=
  if char = backslash then [backslash, backslash]
  else if char = quote then [backslash, quote]
  else if char = doubleQuote then [backslash, doubleQuote]
  else if char = backspace then [backslash, letterB]
  else if char = formFeed then [backslash, letterF]
  else if char = newline then [backslash, letterN]
  else if char = carriageReturn then [backslash, letterR]
  else if char = tab then [backslash, letterT]
  else if ¬ isPrintable char then encodeOctal char
  else if char ∈ special then [backslash, char]
  else [char]

def encodeAll (special : Str) (s : Str) : Str := s.flatMap (encodeChar special)

def escapeString (s special : Str) : Except IllegalArgument Str :=
  if special.all isPrintable then .ok (encodeAll special s) else .error .specialCharacters

def checkChar (before : Str) (char : Byte) : Except IllegalArgument Byte :=
  if isPrintable char then .ok char else .error (.notPrintable before char.toNat)

/-- The loop over at most `rounds` octal digits, with the value so far and the number of
characters taken. -/
def readOctal : Nat → Nat → Nat → Str → Nat × Nat
  | 0, value, used, _ => (value, used)
  | _ + 1, value, used, [] => (value, used)
  | rounds + 1, value, used, char :: rest =>
      if isOctalDigit char then readOctal rounds (value * 8 + (char - zero).toNat) (used + 1) rest
      else (value, used)

/-- The character at the start of `first :: rest` and the number of characters it takes up. -/
def decodeChar (before : Str) (first : Byte) (rest : Str) : Except IllegalArgument (Byte × Nat) :=
  if first ≠ backslash then do
    let char ← checkChar before first
    .ok (char, 1)
  else
    match rest with
    | [] => .error .trailingBackslash
    | char :: _ =>
        if char = backslash ∨ char = quote ∨ char = doubleQuote then .ok (char, 2)
        else if char = letterB then .ok (backspace, 2)
        else if char = letterF then .ok (formFeed, 2)
        else if char = letterN then .ok (newline, 2)
        else if char = letterR then .ok (carriageReturn, 2)
        else if char = letterT then .ok (tab, 2)
        else if isOctalDigit char then
          let (value, used) := readOctal 3 0 0 rest
          if value > 255 then .error (.octalValue value) else .ok (UInt8.ofNat value, 1 + used)
        else do
          let char ← checkChar (before ++ [first]) char
          .ok (char, 2)

def decodeString : Nat → Str → Str → Except IllegalArgument Str
  | 0, _, _ => .ok []
  | _ + 1, _, [] => .ok []
  | rounds + 1, before, first :: rest => do
      let (char, used) ← decodeChar before first rest
      let decoded ← decodeString rounds (before ++ (first :: rest).take used)
        ((first :: rest).drop used)
      .ok (char :: decoded)

def unescapeString (s : Str) (start fin : Nat) : Except IllegalArgument Str :=
  decodeString (fin - start) (s.take start) ((s.take fin).drop start)

/-- A special character that is preceded by a backslash must not read as something else. -/
def Plain (special : Str) : Prop :=
  ∀ char ∈ special, char ≠ letterB ∧ char ≠ letterF ∧ char ≠ letterN ∧ char ≠ letterR ∧
    char ≠ letterT ∧ isOctalDigit char = false

theorem encode_octal_digits (char : Byte) :
    encodeOctal char = [backslash, zero + UInt8.ofNat (char.toNat / 64),
      zero + UInt8.ofNat (char.toNat / 8 % 8), zero + UInt8.ofNat (char.toNat % 8)] :=
  every_byte (by decide +kernel) char

theorem octal_digit (value : Nat) (small : value < 8) :
    isOctalDigit (zero + UInt8.ofNat value) = true ∧
      (zero + UInt8.ofNat value - zero).toNat = value := by
  have every : ∀ digit : Fin 8, isOctalDigit (zero + UInt8.ofNat digit.val) = true ∧
      (zero + UInt8.ofNat digit.val - zero).toNat = digit.val := by decide
  exact every ⟨value, small⟩

theorem read_octal_digit (rounds value used digit : Nat) (rest : Str) (small : digit < 8) :
    readOctal (rounds + 1) value used ((zero + UInt8.ofNat digit) :: rest) =
      readOctal rounds (value * 8 + digit) (used + 1) rest := by
  rw [readOctal, if_pos (octal_digit digit small).1, (octal_digit digit small).2]

theorem read_octal_encoded (char : Byte) (more : Str) :
    readOctal 3 0 0 ((encodeOctal char).tail ++ more) = (char.toNat, 3) := by
  have bound := char.toNat_lt
  rw [encode_octal_digits]
  simp only [List.tail_cons, List.cons_append, List.nil_append]
  rw [read_octal_digit 2 0 0 _ _ (by omega), read_octal_digit 1 _ 1 _ _ (by omega),
    read_octal_digit 0 _ 2 _ _ (by omega), readOctal]
  simp only [Prod.mk.injEq, and_true]
  omega

theorem octal_digit_not_escape {char : Byte} (digit : isOctalDigit char = true) :
    char ≠ backslash ∧ char ≠ quote ∧ char ≠ doubleQuote ∧ char ≠ letterB ∧ char ≠ letterF ∧
      char ≠ letterN ∧ char ≠ letterR ∧ char ≠ letterT := by
  refine ⟨?_, ?_, ?_, ?_, ?_, ?_, ?_, ?_⟩ <;>
    (intro same; subst same; exact absurd digit (by decide))

theorem decode_octal (before more : Str) (char : Byte) :
    decodeChar before backslash ((encodeOctal char).tail ++ more) = .ok (char, 4) := by
  have read := read_octal_encoded char more
  have bound := char.toNat_lt
  rw [encode_octal_digits] at read ⊢
  simp only [List.tail_cons, List.cons_append, List.nil_append] at read ⊢
  have digit := (octal_digit (char.toNat / 64) (by omega)).1
  obtain ⟨n₁, n₂, n₃, n₄, n₅, n₆, n₇, n₈⟩ := octal_digit_not_escape digit
  have fits : ¬ char.toNat > 255 := by omega
  simp [decodeChar, n₁, n₂, n₃, n₄, n₅, n₆, n₇, n₈, digit, read, fits]

variable {special : Str}

theorem decode_encode_char (plain : Plain special) (before more : Str) (char : Byte) :
    ∃ first rest, encodeChar special char = first :: rest ∧
      decodeChar before first (rest ++ more) = .ok (char, (encodeChar special char).length) := by
  by_cases isBackslash : char = backslash
  · subst isBackslash; exact ⟨_, _, rfl, rfl⟩
  by_cases isQuote : char = quote
  · subst isQuote; exact ⟨_, _, rfl, rfl⟩
  by_cases isDouble : char = doubleQuote
  · subst isDouble; exact ⟨_, _, rfl, rfl⟩
  by_cases isBackspace : char = backspace
  · subst isBackspace; exact ⟨_, _, rfl, rfl⟩
  by_cases isFormFeed : char = formFeed
  · subst isFormFeed; exact ⟨_, _, rfl, rfl⟩
  by_cases isNewline : char = newline
  · subst isNewline; exact ⟨_, _, rfl, rfl⟩
  by_cases isReturn : char = carriageReturn
  · subst isReturn; exact ⟨_, _, rfl, rfl⟩
  by_cases isTab : char = tab
  · subst isTab; exact ⟨_, _, rfl, rfl⟩
  simp only [encodeChar, if_neg isBackslash, if_neg isQuote, if_neg isDouble, if_neg isBackspace,
    if_neg isFormFeed, if_neg isNewline, if_neg isReturn, if_neg isTab]
  by_cases printable : isPrintable char
  · rw [if_neg (not_not.mpr printable)]
    by_cases isSpecial : char ∈ special
    · rw [if_pos isSpecial]
      obtain ⟨notB, notF, notN, notR, notT, notDigit⟩ := plain char isSpecial
      refine ⟨_, _, rfl, ?_⟩
      simp [decodeChar, isBackslash, isQuote, isDouble, notB, notF, notN, notR, notT, notDigit,
        checkChar, printable, bind, Except.bind]
    · rw [if_neg isSpecial]
      refine ⟨_, _, rfl, ?_⟩
      simp [decodeChar, isBackslash, checkChar, printable, bind, Except.bind]
  · rw [if_pos printable]
    have decoded := decode_octal before more char
    rw [encode_octal_digits] at decoded ⊢
    exact ⟨_, _, rfl, decoded⟩

theorem encode_char_pos (plain : Plain special) (char : Byte) :
    0 < (encodeChar special char).length := by
  obtain ⟨first, rest, shape, -⟩ := decode_encode_char plain [] [] char
  rw [shape]
  exact Nat.succ_pos _

theorem encode_octal_last (char : Byte) : (encodeOctal char).getLast? ≠ some backslash := by
  have digit := (octal_digit (char.toNat % 8) (by omega)).1
  rw [encode_octal_digits]
  intro last
  exact (octal_digit_not_escape digit).1 (Option.some.inj last)

theorem encode_char_last (special : Str) (char : Byte) :
    (encodeChar special char).getLast? = some backslash ↔ char = backslash := by
  unfold encodeChar
  by_cases isBackslash : char = backslash
  · simp [isBackslash]
  · rw [if_neg isBackslash]
    refine ⟨fun last => ?_, fun same => absurd same isBackslash⟩
    split_ifs at last
    · cases last
    · cases last
    · cases last
    · cases last
    · cases last
    · cases last
    · cases last
    · simpa using last
    · simpa using last
    · exact absurd last (encode_octal_last char)

section

variable (plain : Plain special)

include plain

theorem encode_char_inj {first second : Byte} {more rest : Str}
    (same : encodeChar special first ++ more = encodeChar special second ++ rest) :
    first = second ∧ more = rest := by
  obtain ⟨head, tail, shape, decoded⟩ := decode_encode_char plain [] more first
  obtain ⟨head', tail', shape', decoded'⟩ := decode_encode_char plain [] rest second
  have joined := same
  rw [shape, shape', List.cons_append, List.cons_append, List.cons.injEq] at joined
  rw [joined.1, joined.2, decoded'] at decoded
  simp only [Except.ok.injEq, Prod.mk.injEq] at decoded
  refine ⟨decoded.1.symm, ?_⟩
  rw [decoded.1] at same
  exact List.append_cancel_left same

theorem decode_string_step (rounds : Nat) (before more : Str) (char : Byte) :
    decodeString (rounds + 1) before (encodeChar special char ++ more) =
      (decodeString rounds (before ++ encodeChar special char) more).map (char :: ·) := by
  obtain ⟨first, rest, shape, decoded⟩ := decode_encode_char plain before more char
  have whole : first :: (rest ++ more) = encodeChar special char ++ more := by
    rw [shape, List.cons_append]
  rw [← whole, decodeString, decoded, whole]
  simp only [bind, Except.bind, List.take_left, List.drop_left]
  cases decodeString rounds (before ++ encodeChar special char) more <;> rfl

theorem decode_string_append (s more before : Str) (rounds : Nat) :
    decodeString (s.length + rounds) before (encodeAll special s ++ more) =
      (decodeString rounds (before ++ encodeAll special s) more).map (s ++ ·) := by
  induction s generalizing before with
  | nil =>
      simp only [List.length_nil, Nat.zero_add, encodeAll, List.flatMap_nil, List.nil_append,
        List.append_nil]
      cases decodeString rounds before more <;> rfl
  | cons char rest ih =>
      have count : (char :: rest).length + rounds = rest.length + rounds + 1 := by
        simp only [List.length_cons]
        omega
      have spelled : encodeAll special (char :: rest) =
          encodeChar special char ++ encodeAll special rest := by simp [encodeAll]
      rw [count, spelled, List.append_assoc, decode_string_step plain, ih, List.append_assoc]
      cases decodeString rounds (before ++ (encodeChar special char ++ encodeAll special rest)) more
      · rfl
      · rfl

theorem encode_all_length (s : Str) : s.length ≤ (encodeAll special s).length := by
  induction s with
  | nil => simp
  | cons char rest ih =>
      have grown := encode_char_pos plain char
      simp only [encodeAll, List.flatMap_cons, List.length_append, List.length_cons] at ih ⊢
      omega

theorem encode_all_last (s : Str) :
    (encodeAll special s).getLast? = some backslash ↔ s.getLast? = some backslash := by
  rcases List.eq_nil_or_concat' s with empty | ⟨front, char, whole⟩
  · rw [empty]
    rfl
  · have nonempty : encodeChar special char ≠ [] :=
      List.ne_nil_of_length_pos (encode_char_pos plain char)
    rw [whole, encodeAll, List.flatMap_append, List.flatMap_singleton,
      List.getLast?_append_of_ne_nil _ nonempty, List.getLast?_concat, encode_char_last]
    simp

/-- `unescapeString` undoes `escapeString`, for special characters that keep their meaning
behind a backslash. -/
theorem unescape_escape (s : Str) :
    unescapeString (encodeAll special s) 0 (encodeAll special s).length = .ok s := by
  have long := encode_all_length plain s
  have rounds : (encodeAll special s).length =
      s.length + ((encodeAll special s).length - s.length) := by omega
  have decoded := decode_string_append plain s [] [] ((encodeAll special s).length - s.length)
  rw [← rounds, List.append_nil] at decoded
  have ended : decodeString ((encodeAll special s).length - s.length)
      ([] ++ encodeAll special s) [] = .ok [] := by
    cases (encodeAll special s).length - s.length <;> rfl
  rw [ended] at decoded
  simpa [unescapeString, Except.map] using decoded

end

/-- What `escapeString` makes of a string, `unescapeString` turns back. -/
theorem unescape_inverts_escape {special : Str} (printable : special.all isPrintable = true)
    (plain : Plain special) (s : Str) :
    ∃ escaped, escapeString s special = .ok escaped ∧
      unescapeString escaped 0 escaped.length = .ok s := by
  refine ⟨encodeAll special s, ?_, unescape_escape plain s⟩
  rw [escapeString, if_pos printable]

/-- A control character in front of a digit, and a slash that is special. -/
theorem unescape_inverts_escape_slash :
    ∃ escaped, escapeString [1, 51, slash] [slash] = .ok escaped ∧
      unescapeString escaped 0 escaped.length = .ok [1, 51, slash] := by
  have plain : Plain [slash] := by
    intro char inside
    rw [List.mem_singleton.mp inside]
    decide
  exact unescape_inverts_escape rfl plain [1, 51, slash]

end IceTouch.Escape
