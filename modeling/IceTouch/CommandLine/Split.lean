import IceTouch.Strings.ProxyStrings
import Mathlib.Data.List.DropRight

/-!
# Splitting a command line

`Options::split`, which takes a line apart by the quoting rules of the shell. The scanner goes
over the line with an index that some cases move on; here it hands the text behind the
characters that it has used to the next round.
-/

namespace IceTouch.CommandLine

open Bytes WireTypes Escape
open Proxies (space byte)

abbrev dollar : Byte := 36

structure BadOptException where
  reason : Str
deriving DecidableEq

def isIFS (c : Byte) : Bool := c = space || c = tab || c = newline

inductive ParseState where
  | normal
  | doubleQuote
  | singleQuote
  | ansiQuote
deriving DecidableEq

/-- What the loop keeps: its state, the arguments that it has found and the current one. -/
structure Scanner where
  state : ParseState
  vec : List Str
  arg : Str
deriving DecidableEq

namespace Scanner

def push (scanner : Scanner) (s : Str) : Scanner := { scanner with arg := scanner.arg ++ s }

def enter (scanner : Scanner) (state : ParseState) : Scanner := { scanner with state := state }

end Scanner

/-- A backslash outside quotes: it is dropped in front of a blank, a quote or a dollar sign and
at the end of the line, and together with a newline. -/
def normalEscape (scanner : Scanner) : Str → Scanner × Str
  | [] => (scanner, [])
  | next :: more =>
      if next = newline then (scanner, more)
      else if next = space ∨ next = dollar ∨ next = quote ∨ next = doubleQuote then
        (scanner.push [next], more)
      else (scanner.push [backslash, next], more)

def normalStep (scanner : Scanner) (c : Byte) (rest : Str) : Scanner × Str :=
  if c = backslash then normalEscape scanner rest
  else if c = quote then (scanner.enter .singleQuote, rest)
  else if c = doubleQuote then (scanner.enter .doubleQuote, rest)
  else if c = dollar then
    if rest.head? = some quote then (scanner.enter .ansiQuote, rest.tail)
    else (scanner.push [dollar], rest)
  else if isIFS c then
    ({ scanner with vec := scanner.vec ++ [scanner.arg], arg := [] }, rest.dropWhile isIFS)
  else (scanner.push [c], rest)

def doubleQuoteStep (scanner : Scanner) (c : Byte) (rest : Str) : Scanner × Str :=
  match if c = backslash then rest else [] with
  | next :: more =>
      if next = doubleQuote ∨ next = backslash ∨ next = newline then (scanner.push [next], more)
      else (scanner.push [backslash, next], more)
  | [] =>
      if c = doubleQuote then (scanner.enter .normal, rest) else (scanner.push [c], rest)

def singleQuoteStep (scanner : Scanner) (c : Byte) (rest : Str) : Scanner × Str :=
  if c = quote then (scanner.enter .normal, rest) else (scanner.push [c], rest)

def readDigits (isDigit : Byte → Bool) (digit : Byte → Nat) (base : Nat) :
    Nat → Nat → Str → Nat × Str
  | 0, value, rest => (value, rest)
  | _, value, [] => (value, [])
  | rounds + 1, value, c :: rest =>
      if isDigit c then readDigits isDigit digit base rounds (value * base + digit c) rest
      else (value, c :: rest)

def octalDigit (c : Byte) : Nat := (c - zero).toNat

def isHexDigit (c : Byte) : Bool :=
  (byte '0' ≤ c && c ≤ byte '9') || (byte 'a' ≤ c && c ≤ byte 'f') ||
    (byte 'A' ≤ c && c ≤ byte 'F')

def hexDigit (c : Byte) : Nat :=
  if byte '0' ≤ c ∧ c ≤ byte '9' then (c - byte '0').toNat
  else if byte 'a' ≤ c ∧ c ≤ byte 'z' then (c - byte 'a').toNat + 10
  else (c - byte 'A').toNat + 10

def isAlpha (c : Byte) : Bool :=
  (byte 'a' ≤ c && c ≤ byte 'z') || (byte 'A' ≤ c && c ≤ byte 'Z')

def toupper (c : Byte) : Byte := if byte 'a' ≤ c ∧ c ≤ byte 'z' then c - 32 else c

/-- The control character that the character behind `\c` stands for. -/
def controlChar (c : Byte) : Str :=
  if isAlpha c ∨ c = byte '@' ∨ (byte '[' ≤ c ∧ c ≤ byte '_') then [toupper c - byte '@']
  else [backslash, byte 'c', c]

/-- The escape sequences of a single letter. -/
def singleLetter (c : Byte) : Option Byte :=
  if c = byte 'a' then some 7
  else if c = byte 'b' then some backspace
  else if c = byte 'f' then some formFeed
  else if c = byte 'n' then some newline
  else if c = byte 'r' then some carriageReturn
  else if c = byte 't' then some tab
  else if c = byte 'v' then some 11
  else if c = backslash then some backslash
  else if c = quote then some quote
  else if c = byte 'e' then some 27
  else none

def ansiEscape (scanner : Scanner) : Str → Scanner × Str
  | [] => (scanner, [])
  | c :: rest =>
      match singleLetter c with
      | some char => (scanner.push [char], rest)
      | none =>
          if isOctalDigit c then
            let (us, more) := readDigits isOctalDigit octalDigit 8 3 0 (c :: rest)
            (scanner.push [UInt8.ofNat us], more)
          else if c = byte 'x' then
            if rest.head?.any fun next => !isHexDigit next then
              (scanner.push [backslash, byte 'x'], rest)
            else
              let (ull, more) := readDigits isHexDigit hexDigit 16 2 0 rest
              (scanner.push [UInt8.ofNat ull], more)
          else if c = byte 'c' then (scanner.push (controlChar (rest.headD 0)), rest.tail)
          else (scanner.push [backslash, c], rest)

def ansiQuoteStep (scanner : Scanner) (c : Byte) (rest : Str) : Scanner × Str :=
  if c = backslash then ansiEscape scanner rest
  else if c = quote then (scanner.enter .normal, rest)
  else (scanner.push [c], rest)

/-- One round of the loop: the character and the text behind it. -/
def step (scanner : Scanner) (c : Byte) (rest : Str) : Scanner × Str :=
  match scanner.state with
  | .normal => normalStep scanner c rest
  | .doubleQuote => doubleQuoteStep scanner c rest
  | .singleQuote => singleQuoteStep scanner c rest
  | .ansiQuote => ansiQuoteStep scanner c rest

/-- The loop, which has at most one round for each character. -/
def scan : Nat → Scanner → Str → Scanner
  | 0, scanner, _ => scanner
  | _, scanner, [] => scanner
  | rounds + 1, scanner, c :: rest =>
      let (next, more) := step scanner c rest
      scan rounds next more

def finish (scanner : Scanner) : Except BadOptException (List Str) :=
  match scanner.state with
  | .normal => .ok (scanner.vec ++ [scanner.arg])
  | .singleQuote => .error ⟨text "missing closing single quote"⟩
  | .doubleQuote => .error ⟨text "missing closing double quote"⟩
  | .ansiQuote => .error ⟨text "unterminated $' quote"⟩

def strip (line : Str) : Str := (line.dropWhile isIFS).rdropWhile isIFS

def split (line : Str) : Except BadOptException (List Str) :=
  let l := strip line
  if l = [] then .ok [] else finish (scan l.length ⟨.normal, [], []⟩ l)

theorem read_digits_shorter (isDigit : Byte → Bool) (digit : Byte → Nat) (base rounds value : Nat)
    (s : Str) : (readDigits isDigit digit base rounds value s).2.length ≤ s.length := by
  induction s generalizing rounds value with
  | nil => cases rounds <;> exact Nat.le_refl _
  | cons c rest ih =>
      cases rounds with
      | zero => exact Nat.le_refl _
      | succ rounds =>
          rw [readDigits]
          split
          · exact Nat.le_succ_of_le (ih rounds _)
          · exact Nat.le_refl _

theorem ansi_escape_shorter (scanner : Scanner) (rest : Str) :
    (ansiEscape scanner rest).2.length ≤ rest.length := by
  cases rest with
  | nil => exact Nat.le_refl _
  | cons c rest =>
      unfold ansiEscape
      dsimp only
      split
      · exact Nat.le_succ _
      · split
        · exact read_digits_shorter _ _ _ _ _ _
        · split
          · split
            · exact Nat.le_succ _
            · exact Nat.le_succ_of_le (read_digits_shorter _ _ _ _ _ _)
          · split
            · simp only [List.length_tail, List.length_cons]
              omega
            · exact Nat.le_succ _

theorem step_shorter (scanner : Scanner) (c : Byte) (rest : Str) :
    (step scanner c rest).2.length ≤ rest.length := by
  unfold step
  cases scanner.state with
  | normal =>
      dsimp only
      unfold normalStep
      split
      · unfold normalEscape
        split
        · exact Nat.le_refl _
        · split
          · exact Nat.le_succ _
          · split <;> exact Nat.le_succ _
      · split
        · exact Nat.le_refl _
        · split
          · exact Nat.le_refl _
          · split
            · split
              · simp only [List.length_tail]
                omega
              · exact Nat.le_refl _
            · split
              · exact (List.dropWhile_suffix _).length_le
              · exact Nat.le_refl _
  | doubleQuote =>
      dsimp only
      unfold doubleQuoteStep
      split
      · next next more found =>
          have inside : rest = next :: more := by
            by_cases isBackslash : c = backslash
            · rwa [if_pos isBackslash] at found
            · rw [if_neg isBackslash] at found
              cases found
          rw [inside]
          split <;> exact Nat.le_succ _
      · split <;> exact Nat.le_refl _
  | singleQuote =>
      dsimp only
      unfold singleQuoteStep
      split <;> exact Nat.le_refl _
  | ansiQuote =>
      dsimp only
      unfold ansiQuoteStep
      split
      · exact ansi_escape_shorter scanner rest
      · split <;> exact Nat.le_refl _

theorem scan_enough (rounds : Nat) (scanner : Scanner) (s : Str) (enough : s.length ≤ rounds) :
    scan rounds scanner s = scan s.length scanner s := by
  induction rounds using Nat.strong_induction_on generalizing scanner s with
  | _ rounds ih =>
      cases s with
      | nil => cases rounds <;> rfl
      | cons c rest =>
          cases rounds with
          | zero => exact absurd enough (by simp)
          | succ rounds =>
              rw [List.length_cons] at enough ⊢
              have fewer : rest.length ≤ rounds := Nat.le_of_succ_le_succ enough
              have shorter := step_shorter scanner c rest
              rw [scan, scan]
              have first := ih rounds (Nat.lt_succ_self _) (step scanner c rest).1
                (step scanner c rest).2 (shorter.trans fewer)
              have second := ih rest.length (by omega) (step scanner c rest).1
                (step scanner c rest).2 shorter
              exact first.trans second.symm

def scanned (scanner : Scanner) (s : Str) : Scanner := scan s.length scanner s

theorem scanned_nil (scanner : Scanner) : scanned scanner [] = scanner := rfl

theorem scanned_cons (scanner : Scanner) (c : Byte) (rest : Str) :
    scanned scanner (c :: rest) =
      scanned (step scanner c rest).1 (step scanner c rest).2 :=
  scan_enough rest.length _ _ (step_shorter scanner c rest)

def singleQuotedChar (char : Byte) : Str :=
  if char = quote then [quote, backslash, quote, quote] else [char]

def singleQuoted (s : Str) : Str := quote :: s.flatMap singleQuotedChar ++ [quote]

def octalValue (digits : Str) : Nat :=
  digits.foldl (fun value digit => value * 8 + octalDigit digit) 0

/-- The text of an ANSI quote: a backslash in front of backslashes and single quotes, and octal
escapes, which have less than three digits only where no other digit comes next. -/
inductive AnsiText : Str → Str → Prop
  | nil : AnsiText [] []
  | plain {char : Byte} {s written : Str} (notBackslash : char ≠ backslash)
      (notQuote : char ≠ quote) (rest : AnsiText s written) :
      AnsiText (char :: s) (char :: written)
  | escaped {char : Byte} {s written : Str} (special : char = backslash ∨ char = quote)
      (rest : AnsiText s written) : AnsiText (char :: s) (backslash :: char :: written)
  | octal {digits s written : Str} (octal : ∀ digit ∈ digits, isOctalDigit digit = true)
      (some : digits ≠ []) (most : digits.length ≤ 3)
      (ends : digits.length = 3 ∨ ∀ next ∈ written.head?, isOctalDigit next = false)
      (rest : AnsiText s written) :
      AnsiText (UInt8.ofNat (octalValue digits) :: s) (backslash :: digits ++ written)

inductive Quoted : Str → Str → Prop
  | single (s : Str) : Quoted s (singleQuoted s)
  | ansi {s written : Str} (ansiText : AnsiText s written) :
      Quoted s (dollar :: quote :: written ++ [quote])

/-- The words for a list of arguments with blanks between them. -/
inductive QuotedLine : List Str → Str → Prop
  | last {s word : Str} (quoted : Quoted s word) : QuotedLine [s] word
  | more {s word blanks line : Str} {arguments : List Str} (quoted : Quoted s word)
      (some : blanks ≠ []) (every : ∀ char ∈ blanks, isIFS char = true)
      (rest : QuotedLine arguments line) : QuotedLine (s :: arguments) (word ++ blanks ++ line)

theorem read_octal_digits {digits written : Str} {rounds : Nat} (value : Nat)
    (octal : ∀ digit ∈ digits, isOctalDigit digit = true) (most : digits.length ≤ rounds)
    (ends : digits.length = rounds ∨ ∀ next ∈ written.head?, isOctalDigit next = false) :
    readDigits isOctalDigit octalDigit 8 rounds value (digits ++ written) =
      (digits.foldl (fun value digit => value * 8 + octalDigit digit) value, written) := by
  induction digits generalizing rounds value with
  | nil =>
      cases rounds with
      | zero => rfl
      | succ rounds =>
          obtain none | stops := ends
          · cases none
          · cases written with
            | nil => rfl
            | cons next more =>
                rw [List.nil_append, readDigits, stops next rfl]
                rfl
  | cons digit rest ih =>
      cases rounds with
      | zero => exact absurd most (by simp)
      | succ rounds =>
          rw [List.length_cons] at most ends
          rw [List.cons_append, readDigits, if_pos (octal digit List.mem_cons_self)]
          refine ih _ (fun other inside => octal other (List.mem_cons_of_mem digit inside))
            (Nat.le_of_succ_le_succ most) ?_
          obtain full | stops := ends
          · exact .inl (Nat.succ.inj full)
          · exact .inr stops

theorem octal_not_letter {digit : Byte} (octal : isOctalDigit digit = true) :
    singleLetter digit = none := by
  have other (letter : Byte) (notOctal : isOctalDigit letter = false) : digit ≠ letter := by
    rintro rfl
    rw [octal] at notOctal
    cases notOctal
  unfold singleLetter
  rw [if_neg (other _ rfl), if_neg (other _ rfl), if_neg (other _ rfl), if_neg (other _ rfl),
    if_neg (other _ rfl), if_neg (other _ rfl), if_neg (other _ rfl), if_neg (other _ rfl),
    if_neg (other _ rfl), if_neg (other _ rfl)]

section Words

variable (vec : List Str)

theorem scanned_ansi (arg : Str) {s written : Str} (ansiText : AnsiText s written) (more : Str) :
    scanned ⟨.ansiQuote, vec, arg⟩ (written ++ quote :: more) =
      scanned ⟨.normal, vec, arg ++ s⟩ more := by
  induction ansiText generalizing arg with
  | nil =>
      rw [List.nil_append, scanned_cons, List.append_nil]
      rfl
  | @plain char s written notBackslash notQuote rest ih =>
      have pushed : step ⟨.ansiQuote, vec, arg⟩ char (written ++ quote :: more) =
          (⟨.ansiQuote, vec, arg ++ [char]⟩, written ++ quote :: more) := by
        simp only [step, ansiQuoteStep, if_neg notBackslash, if_neg notQuote]
        rfl
      rw [List.cons_append, scanned_cons, pushed, ih, List.append_assoc, List.singleton_append]
  | @escaped char s written special rest ih =>
      have letter : singleLetter char = some char := by
        obtain rfl | rfl := special <;> rfl
      have pushed : step ⟨.ansiQuote, vec, arg⟩ backslash (char :: (written ++ quote :: more)) =
          (⟨.ansiQuote, vec, arg ++ [char]⟩, written ++ quote :: more) := by
        simp only [step, ansiQuoteStep, ansiEscape, letter]
        rfl
      rw [List.cons_append, List.cons_append, scanned_cons, pushed, ih, List.append_assoc,
        List.singleton_append]
  | @octal digits s written octal some most ends rest ih =>
      obtain ⟨first, others, shape⟩ := List.exists_cons_of_ne_nil some
      have isDigit : isOctalDigit first = true := octal first (by simp [shape])
      have stops : digits.length = 3 ∨
          ∀ next ∈ (written ++ quote :: more).head?, isOctalDigit next = false := by
        obtain full | plain := ends
        · exact .inl full
        · refine .inr ?_
          cases written with
          | nil =>
              intro next isNext
              cases isNext
              rfl
          | cons next behind => exact plain
      have read := read_octal_digits 0 octal most stops
      have pushed : step ⟨.ansiQuote, vec, arg⟩ backslash (digits ++ (written ++ quote :: more)) =
          (⟨.ansiQuote, vec, arg ++ [UInt8.ofNat (octalValue digits)]⟩,
            written ++ quote :: more) := by
        rw [shape, List.cons_append] at read ⊢
        simp only [step, ansiQuoteStep, ansiEscape, octal_not_letter isDigit, if_pos isDigit, read]
        rfl
      rw [List.cons_append, List.cons_append, List.append_assoc, scanned_cons, pushed, ih,
        List.append_assoc, List.singleton_append]

theorem scanned_single (arg s more : Str) :
    scanned ⟨.singleQuote, vec, arg⟩ (s.flatMap singleQuotedChar ++ quote :: more) =
      scanned ⟨.normal, vec, arg ++ s⟩ more := by
  induction s generalizing arg with
  | nil =>
      rw [List.flatMap_nil, List.nil_append, scanned_cons, List.append_nil]
      rfl
  | cons char rest ih =>
      rw [List.flatMap_cons, List.append_assoc]
      by_cases isQuote : char = quote
      · have reopened : scanned ⟨.singleQuote, vec, arg⟩
            (quote :: backslash :: quote :: quote ::
              (rest.flatMap singleQuotedChar ++ quote :: more)) =
            scanned ⟨.singleQuote, vec, arg ++ [quote]⟩
              (rest.flatMap singleQuotedChar ++ quote :: more) := by
          rw [scanned_cons]
          change scanned ⟨.normal, vec, arg⟩ (backslash :: _) = _
          rw [scanned_cons]
          change scanned ⟨.normal, vec, arg ++ [quote]⟩ (quote :: _) = _
          rw [scanned_cons]
          rfl
        rw [singleQuotedChar, if_pos isQuote]
        change scanned _ (quote :: backslash :: quote :: quote ::
          (rest.flatMap singleQuotedChar ++ quote :: more)) = _
        rw [reopened, ih, isQuote, List.append_assoc, List.singleton_append]
      · have pushed : step ⟨.singleQuote, vec, arg⟩ char
            (rest.flatMap singleQuotedChar ++ quote :: more) =
            (⟨.singleQuote, vec, arg ++ [char]⟩,
              rest.flatMap singleQuotedChar ++ quote :: more) := by
          simp only [step, singleQuoteStep, if_neg isQuote]
          rfl
        rw [singleQuotedChar, if_neg isQuote, List.singleton_append, scanned_cons, pushed, ih,
          List.append_assoc, List.singleton_append]

theorem scanned_quoted (arg : Str) {s word : Str} (quoted : Quoted s word) (more : Str) :
    scanned ⟨.normal, vec, arg⟩ (word ++ more) = scanned ⟨.normal, vec, arg ++ s⟩ more := by
  cases quoted with
  | single =>
      rw [singleQuoted, List.cons_append, List.cons_append, scanned_cons, List.append_assoc]
      change scanned ⟨.singleQuote, vec, arg⟩ _ = _
      exact scanned_single vec arg s more
  | ansi ansiText =>
      rw [List.cons_append, List.cons_append, List.cons_append, List.cons_append, scanned_cons,
        List.append_assoc]
      change scanned ⟨.ansiQuote, vec, arg⟩ _ = _
      exact scanned_ansi vec arg ansiText more

end Words

theorem scanned_blanks (vec : List Str) (arg : Str) {blanks more : Str} (some : blanks ≠ [])
    (every : ∀ char ∈ blanks, isIFS char = true) (stops : more.dropWhile isIFS = more) :
    scanned ⟨.normal, vec, arg⟩ (blanks ++ more) = scanned ⟨.normal, vec ++ [arg], []⟩ more := by
  obtain ⟨first, others, rfl⟩ := List.exists_cons_of_ne_nil some
  have blank := every first List.mem_cons_self
  have notSpecial : first ≠ backslash ∧ first ≠ quote ∧ first ≠ doubleQuote ∧ first ≠ dollar := by
    refine ⟨?_, ?_, ?_, ?_⟩ <;>
      (intro same; subst same; exact absurd blank (by decide))
  have later : (others ++ more).dropWhile isIFS = more := by
    rw [List.dropWhile_append_of_pos fun char inside => every char (List.mem_cons_of_mem _ inside),
      stops]
  have ended : step ⟨.normal, vec, arg⟩ first (others ++ more) =
      (⟨.normal, vec ++ [arg], []⟩, more) := by
    simp only [step, normalStep, if_neg notSpecial.1, if_neg notSpecial.2.1,
      if_neg notSpecial.2.2.1, if_neg notSpecial.2.2.2, if_pos blank, later]
  rw [List.cons_append, scanned_cons, ended]

theorem quoted_bounds {s word : Str} (quoted : Quoted s word) :
    ∃ first inside, word = first :: inside ++ [quote] ∧ isIFS first = false := by
  cases quoted with
  | single => exact ⟨quote, s.flatMap singleQuotedChar, rfl, rfl⟩
  | ansi ansiText => exact ⟨dollar, _, rfl, rfl⟩

variable {arguments : List Str}

variable {line : Str}

theorem line_bounds (quoted : QuotedLine arguments line) :
    ∃ first inside, line = first :: inside ++ [quote] ∧ isIFS first = false := by
  induction quoted with
  | last word => exact quoted_bounds word
  | @more s word blanks line arguments quoted some every rest ih =>
      obtain ⟨first, inside, rfl, notBlank⟩ := quoted_bounds quoted
      obtain ⟨firstLater, insideLater, rfl, _⟩ := ih
      exact ⟨first, inside ++ [quote] ++ blanks ++ firstLater :: insideLater, by simp, notBlank⟩

theorem line_starts (quoted : QuotedLine arguments line) : line.dropWhile isIFS = line := by
  obtain ⟨first, inside, rfl, notBlank⟩ := line_bounds quoted
  rw [List.cons_append, List.dropWhile_cons_of_neg (by simp [notBlank])]

theorem strip_line (quoted : QuotedLine arguments line) : strip line = line := by
  rw [strip, line_starts quoted]
  obtain ⟨first, inside, rfl, _⟩ := line_bounds quoted
  exact List.rdropWhile_concat_neg isIFS _ quote (by decide)

theorem scanned_line (quoted : QuotedLine arguments line) (vec : List Str) :
    finish (scanned ⟨.normal, vec, []⟩ line) = .ok (vec ++ arguments) := by
  induction quoted generalizing vec with
  | @last s word quoted =>
      have whole := scanned_quoted vec [] quoted []
      rw [List.append_nil, List.nil_append, scanned_nil] at whole
      rw [whole]
      rfl
  | @more s word blanks line arguments quoted some every rest ih =>
      rw [List.append_assoc, scanned_quoted vec [] quoted, List.nil_append,
        scanned_blanks vec s some every (line_starts rest), ih, List.append_assoc,
        List.singleton_append]

/-- A line of quoted words is split into the strings that were quoted. -/
theorem split_quoted {arguments : List Str} {line : Str} (quoted : QuotedLine arguments line) :
    split line = .ok arguments := by
  have nonempty : line ≠ [] := by
    obtain ⟨first, inside, rfl, _⟩ := line_bounds quoted
    exact List.cons_ne_nil _ _
  unfold split
  rw [strip_line quoted]
  dsimp only
  rw [if_neg nonempty]
  exact scanned_line quoted []

/-- The empty string, a quote with blanks, and the byte 1 in front of the digit 1. -/
theorem split_quoted_mixture :
    split (text "'' 'it'\\''s a' $'\\0011'") = .ok [[], text "it's a", [1, 49]] := by
  have digits : AnsiText [1, 49] (text "\\0011") :=
    @AnsiText.octal (text "001") [49] [49] (by decide) (by decide) (by decide) (.inl rfl)
      (.plain (by decide) (by decide) .nil)
  have words : QuotedLine [[], text "it's a", [1, 49]]
      (text "'' 'it'\\''s a' $'\\0011'") :=
    .more (.single []) (List.cons_ne_nil space []) (by decide)
      (.more (.single (text "it's a")) (List.cons_ne_nil space []) (by decide)
        (.last (.ansi digits)))
  exact split_quoted words

end IceTouch.CommandLine
