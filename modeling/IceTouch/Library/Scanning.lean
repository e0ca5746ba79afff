import IceTouch.Library.Bytes
import Mathlib.Data.List.TakeWhile

/-!
# Scanning text

Words between blanks and decimal numerals in a byte string, for parsers that go over a text
with `find_first_of` and read numbers with `istringstream`.
-/

namespace IceTouch.Scanning

open Bytes

section spans

variable {α : Type}

/-- The text is over or goes on with something that is not `p`. -/
def Stops (p : α → Bool) (rest : List α) : Prop :=
  ∀ char more, rest = char :: more → p char = false

theorem stops_nil (p : α → Bool) : Stops p [] := fun _ _ none => nomatch none

variable {p : α → Bool}

theorem stops_cons {char : α} (other : p char = false) (more : List α) :
    Stops p (char :: more) := by
  intro first rest same
  rw [← (List.cons.inj same).1]
  exact other

theorem take_while_stops {first rest : List α} (every : ∀ char ∈ first, p char = true)
    (stops : Stops p rest) : (first ++ rest).takeWhile p = first := by
  rw [List.takeWhile_append_of_pos every]
  cases rest with
  | nil => rw [List.takeWhile_nil, List.append_nil]
  | cons char more =>
      rw [List.takeWhile_cons_of_neg (by simp [stops char more rfl]), List.append_nil]

theorem drop_while_stops {first rest : List α} (every : ∀ char ∈ first, p char = true)
    (stops : Stops p rest) : (first ++ rest).dropWhile p = rest := by
  rw [List.dropWhile_append_of_pos every]
  cases rest with
  | nil => rfl
  | cons char more => rw [List.dropWhile_cons_of_neg (by simp [stops char more rfl])]

end spans

section words

variable {α : Type}

def wordsFrom (blank : α → Bool) : List α → List α → List (List α)
  | word, [] => if word.isEmpty then [] else [word]
  | word, char :: rest =>
      if blank char then
        if word.isEmpty then wordsFrom blank [] rest else word :: wordsFrom blank [] rest
      else wordsFrom blank (word ++ [char]) rest

def words (blank : α → Bool) (text : List α) : List (List α) := wordsFrom blank [] text

variable {blank : α → Bool}

variable {char : α}

theorem words_skip (isBlank : blank char = true) (rest : List α) :
    words blank (char :: rest) = words blank rest := by
  simp [words, wordsFrom, isBlank]

theorem words_from_append {more : List α} (plain : ∀ char ∈ more, blank char = false)
    (word rest : List α) :
    wordsFrom blank word (more ++ rest) = wordsFrom blank (word ++ more) rest := by
  induction more generalizing word with
  | nil => simp
  | cons char more ih =>
      have here := plain char List.mem_cons_self
      have later := ih (fun other inside => plain other (List.mem_cons_of_mem char inside))
        (word ++ [char])
      rw [List.cons_append, wordsFrom, here, if_neg Bool.false_ne_true, later,
        List.append_assoc, List.singleton_append]

theorem words_from_append_blank (word front : List α) (isBlank : blank char = true) (rest : List α) :
    wordsFrom blank word (front ++ char :: rest) =
      wordsFrom blank word front ++ words blank rest := by
  induction front generalizing word with
  | nil =>
      simp only [List.nil_append, wordsFrom, isBlank, if_true, words]
      split
      · rfl
      · rfl
  | cons first front ih =>
      rw [List.cons_append, wordsFrom, wordsFrom]
      split
      · split
        · exact ih []
        · rw [ih [], List.cons_append]
      · exact ih (word ++ [first])

/-- A blank separates words. -/
theorem words_append (front : List α) (isBlank : blank char = true) (rest : List α) :
    words blank (front ++ char :: rest) = words blank front ++ words blank rest :=
  words_from_append_blank [] front isBlank rest

/-- A word is followed by a blank. -/
theorem words_word {word : List α} (plain : ∀ char ∈ word, blank char = false) (some : word ≠ [])
    (isBlank : blank char = true) (rest : List α) :
    words blank (word ++ char :: rest) = word :: words blank (char :: rest) := by
  have nonempty : word.isEmpty = false := List.isEmpty_eq_false_iff.mpr some
  rw [words, words_from_append plain, List.nil_append, wordsFrom, if_pos isBlank, nonempty,
    if_neg Bool.false_ne_true, words_skip isBlank]
  rfl

theorem words_last {word : List α} (plain : ∀ char ∈ word, blank char = false)
    (some : word ≠ []) : words blank word = [word] := by
  have nonempty : word.isEmpty = false := List.isEmpty_eq_false_iff.mpr some
  have read := words_from_append plain [] []
  rw [List.append_nil, List.nil_append, wordsFrom, nonempty, if_neg Bool.false_ne_true] at read
  exact read

/-- The text that lists words, with a blank before each. -/
theorem words_join {mark : α} (isBlank : blank mark = true) {list : List (List α)}
    (plain : ∀ word ∈ list, word ≠ [] ∧ ∀ char ∈ word, blank char = false) :
    words blank (list.flatMap (mark :: ·)) = list := by
  induction list with
  | nil => rfl
  | cons word rest ih =>
      obtain ⟨some, here⟩ := plain word List.mem_cons_self
      have later := ih fun other inside => plain other (List.mem_cons_of_mem word inside)
      rw [List.flatMap_cons, List.cons_append, words_skip isBlank]
      cases rest with
      | nil => rw [List.flatMap_nil, List.append_nil, words_last here some]
      | cons next rest =>
          rw [List.flatMap_cons, List.cons_append, words_word here some isBlank]
          rw [List.flatMap_cons, List.cons_append] at later
          rw [later]

theorem words_from_grow {word : List α} (some : word ≠ []) (text : List α) :
    ∃ more rest, wordsFrom blank word text = (word ++ more) :: rest := by
  induction text generalizing word with
  | nil =>
      have nonempty : word.isEmpty = false := List.isEmpty_eq_false_iff.mpr some
      exact ⟨[], [], by simp [wordsFrom, nonempty]⟩
  | cons char text ih =>
      have nonempty : word.isEmpty = false := List.isEmpty_eq_false_iff.mpr some
      by_cases isBlank : blank char = true
      · exact ⟨[], _, by rw [wordsFrom, if_pos isBlank, nonempty, if_neg Bool.false_ne_true,
          List.append_nil]⟩
      · obtain ⟨more, rest, grown⟩ := ih (by simp : word ++ [char] ≠ [])
        refine ⟨char :: more, rest, ?_⟩
        rw [wordsFrom, if_neg isBlank, grown, List.append_assoc, List.singleton_append]

/-- Text right behind the last word is taken for a part of it. -/
theorem words_glue {mark : α} (isBlank : blank mark = true) {list : List (List α)}
    {word : List α} (plain : ∀ other ∈ list ++ [word], other ≠ [] ∧
      ∀ char ∈ other, blank char = false) {char : α} (glued : blank char = false)
    (text : List α) : ∃ more rest,
    words blank ((list ++ [word]).flatMap (mark :: ·) ++ char :: text) =
      list ++ (word ++ char :: more) :: rest := by
  induction list with
  | nil =>
      obtain ⟨_, here⟩ := plain word (by simp)
      obtain ⟨more, rest, grown⟩ := @words_from_grow α blank (word ++ [char])
        (by simp) text
      refine ⟨more, rest, ?_⟩
      have skipped : words blank (mark :: (word ++ char :: text)) =
          words blank (word ++ char :: text) := words_skip isBlank _
      rw [List.nil_append, List.flatMap_singleton, List.cons_append, skipped, words,
        words_from_append here, List.nil_append, wordsFrom, if_neg (by simp [glued]), grown]
      simp
  | cons first list ih =>
      obtain ⟨some, here⟩ := plain first (by simp)
      obtain ⟨more, rest, later⟩ := ih fun other inside => plain other (by
        rw [List.cons_append]
        exact List.mem_cons_of_mem first inside)
      refine ⟨more, rest, ?_⟩
      have shape : ∃ tail, (list ++ [word]).flatMap (mark :: ·) ++ char :: text =
          mark :: tail := by
        cases list with
        | nil => exact ⟨_, rfl⟩
        | cons next list => exact ⟨_, rfl⟩
      obtain ⟨tail, shape⟩ := shape
      rw [shape] at later
      rw [List.cons_append, List.flatMap_cons, List.append_assoc, List.cons_append,
        words_skip isBlank, shape, words_word here some isBlank, later, List.cons_append]

theorem words_from_plain (before text : List α) (plain : ∀ char ∈ before, blank char = false) :
    ∀ word ∈ wordsFrom blank before text, word ≠ [] ∧ ∀ char ∈ word, blank char = false := by
  induction text generalizing before with
  | nil =>
      intro word inside
      unfold wordsFrom at inside
      split at inside
      · cases inside
      · next some =>
          rw [List.mem_singleton.mp inside]
          exact ⟨fun none => some (by simp [none]), plain⟩
  | cons char rest ih =>
      intro word inside
      unfold wordsFrom at inside
      split at inside
      · split at inside
        · exact ih [] (fun _ none => nomatch none) word inside
        · next some =>
            obtain rfl | later := List.mem_cons.mp inside
            · exact ⟨fun none => some (by simp [none]), plain⟩
            · exact ih [] (fun _ none => nomatch none) word later
      · next notBlank =>
          apply ih (before ++ [char]) _ word inside
          intro other member
          obtain old | new := List.mem_append.mp member
          · exact plain other old
          · rw [List.mem_singleton.mp new]
            exact Bool.eq_false_iff.mpr notBlank

/-- A word is not empty and has no blanks. -/
theorem words_plain (text : List α) :
    ∀ word ∈ words blank text, word ≠ [] ∧ ∀ char ∈ word, blank char = false :=
  words_from_plain [] text fun _ none => nomatch none

end words

section numerals

abbrev minus : Byte := 45
abbrev plus : Byte := 43

def isDigit (char : Byte) : Bool := 48 ≤ char && char ≤ 57

/-- What `ostream << n` writes. -/
def decimal (n : Nat) : List Byte :=
  (Nat.toDigits 10 n).map fun char => UInt8.ofNat char.toNat

def printInt (z : Int) : List Byte :=
  if z < 0 then minus :: decimal z.natAbs else decimal z.natAbs

def readDigits : Nat → List Byte → Option Nat
  | value, [] => some value
  | value, char :: rest =>
      if isDigit char then readDigits (value * 10 + (char - 48).toNat) rest else none

def readDecimal (s : List Byte) : Option Nat :=
  if s.isEmpty then none else readDigits 0 s

/-- The characters that `istringstream >> value` skips first. -/
def isSpace (char : Byte) : Bool := char = 32 || (9 ≤ char && char ≤ 13)

/-- `istringstream >> value` for an `Int` and `eof` afterwards. -/
def readInt (s : List Byte) : Option Int :=
  match s.dropWhile isSpace with
  | [] => none
  | char :: rest =>
      if char = minus then do
        let value ← readDecimal rest
        if value ≤ 2 ^ 31 then some (-value) else none
      else do
        let value ← readDecimal (if char = plus then rest else char :: rest)
        if value < 2 ^ 31 then some value else none

theorem read_digits_append (value : Nat) (first second : List Byte) :
    readDigits value (first ++ second) =
      (readDigits value first).bind fun value => readDigits value second := by
  induction first generalizing value with
  | nil => rfl
  | cons char rest ih =>
      rw [List.cons_append, readDigits, readDigits]
      split
      · exact ih _
      · rfl

theorem digit_char (n : Nat) (small : n < 10) :
    isDigit (UInt8.ofNat n.digitChar.toNat) = true ∧
      (UInt8.ofNat n.digitChar.toNat - 48).toNat = n := by
  have every : ∀ digit : Fin 10, isDigit (UInt8.ofNat digit.val.digitChar.toNat) = true ∧
      (UInt8.ofNat digit.val.digitChar.toNat - 48).toNat = digit.val := by decide
  exact every ⟨n, small⟩

theorem decimal_eq_if (n : Nat) : decimal n =
    if n < 10 then [UInt8.ofNat n.digitChar.toNat]
    else decimal (n / 10) ++ [UInt8.ofNat (n % 10).digitChar.toNat] := by
  unfold decimal
  rw [Nat.toDigits_eq_if (by decide)]
  split
  · rfl
  · rw [List.map_append]
    rfl

theorem decimal_ne_nil (n : Nat) : decimal n ≠ [] := by
  unfold decimal
  simp [Nat.toDigits_ne_nil]

theorem decimal_digits (n : Nat) : ∀ char ∈ decimal n, isDigit char = true := by
  induction n using Nat.strongRecOn with
  | _ n ih =>
      intro char inside
      rw [decimal_eq_if] at inside
      split at inside
      · next small =>
          rw [List.mem_singleton.mp inside]
          exact (digit_char n small).1
      · next large =>
          obtain front | last := List.mem_append.mp inside
          · exact ih (n / 10) (Nat.div_lt_self (by omega) (by decide)) char front
          · rw [List.mem_singleton.mp last]
            exact (digit_char (n % 10) (Nat.mod_lt n (by decide))).1

theorem read_digits_decimal (n : Nat) : readDigits 0 (decimal n) = some n := by
  induction n using Nat.strongRecOn with
  | _ n ih =>
      rw [decimal_eq_if]
      split
      · next small =>
          obtain ⟨digit, value⟩ := digit_char n small
          simp [readDigits, digit, value]
      · next large =>
          obtain ⟨digit, value⟩ := digit_char (n % 10) (Nat.mod_lt n (by decide))
          have front := ih (n / 10) (Nat.div_lt_self (by omega) (by decide))
          rw [read_digits_append, front]
          simp only [Option.bind_some, readDigits, digit, if_true, value, Option.some.injEq]
          omega

theorem read_decimal_decimal (n : Nat) : readDecimal (decimal n) = some n := by
  have some : (decimal n).isEmpty = false := List.isEmpty_eq_false_iff.mpr (decimal_ne_nil n)
  rw [readDecimal, some, if_neg Bool.false_ne_true, read_digits_decimal]

theorem digit_not_space {char : Byte} (digit : isDigit char = true) :
    isSpace char = false ∧ char ≠ minus ∧ char ≠ plus := by
  revert digit
  exact every_byte (by decide +kernel) char

/-- A natural number is read back, if an `Int` has room for it. -/
theorem read_int_decimal {n : Nat} (fits : n < 2 ^ 31) : readInt (decimal n) = some (n : Int) := by
  have read := read_decimal_decimal n
  cases shape : decimal n with
  | nil => exact absurd shape (decimal_ne_nil n)
  | cons char rest =>
      rw [shape] at read
      have first : char ∈ decimal n := by
        rw [shape]
        exact List.mem_cons_self
      obtain ⟨notSpace, notMinus, notPlus⟩ := digit_not_space (decimal_digits n char first)
      simpa [readInt, notSpace, notMinus, notPlus, read] using fits

/-- A numeral that something other than a digit follows is not read to the end. -/
theorem read_int_stuck (n : Nat) {char : Byte} (other : isDigit char = false)
    (more : List Byte) : readInt (decimal n ++ char :: more) = none := by
  have stuck : readDigits 0 (decimal n ++ char :: more) = none := by
    rw [read_digits_append, read_digits_decimal, Option.bind_some, readDigits, other,
      if_neg Bool.false_ne_true]
  cases shape : decimal n with
  | nil => exact absurd shape (decimal_ne_nil n)
  | cons first rest =>
      rw [shape] at stuck
      have inside : first ∈ decimal n := by
        rw [shape]
        exact List.mem_cons_self
      obtain ⟨notSpace, notMinus, notPlus⟩ := digit_not_space (decimal_digits n first inside)
      rw [List.cons_append] at stuck ⊢
      simp [readInt, readDecimal, notSpace, notMinus, notPlus, stuck]

end numerals

end IceTouch.Scanning
