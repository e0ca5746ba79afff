import IceTouch.Ssl.Writings
import IceTouch.Library.Results

/-!
# Distinguished names

`DistinguishedName`, whose comparisons work on the unescaped values. A name that is written by
the grammar is always parsed, but hex pairs, hex strings and pairs between quotes are not
unescaped as the grammar means them.
-/

namespace IceTouch.Ssl

open Bytes WireTypes Escape Scanning Results
open Proxies (space dot byte)

/-- `DistinguishedName::unescape`. -/
def unescapeAll : List Rdn → Except ParseException (List Rdn)
  | [] => .ok []
  | rdn :: rest => do
      let value ← unescape rdn.2
      let unescaped ← unescapeAll rest
      .ok ((rdn.1, value) :: unescaped)

structure DistinguishedName where
  rdns : List Rdn
  unescaped : List Rdn
  unescapes : unescapeAll rdns = .ok unescaped
deriving DecidableEq

def DistinguishedName.ofRdns (rdns : List Rdn) : Except ParseException DistinguishedName :=
  match unescapes : unescapeAll rdns with
  | .error ex => .error ex
  | .ok unescaped => .ok ⟨rdns, unescaped, unescapes⟩

def DistinguishedName.ofString (dn : Str) : Except ParseException DistinguishedName := do
  let rdns ← parseStrict dn
  DistinguishedName.ofRdns rdns

/-- `operator==`. -/
def DistinguishedName.equals (name other : DistinguishedName) : Bool :=
  other.unescaped = name.unescaped

def oidText : List Str → Str
  | [] => []
  | [number] => number
  | number :: next :: rest => number ++ dot :: oidText (next :: rest)

/-- `(ALPHA *keychar) | oid`, where the oid may have a prefix. -/
inductive AttributeType : Str → Prop
  | key {first : Byte} {rest : Str} (alpha : isAlpha first = true)
      (keychars : ∀ char ∈ rest, isKeychar char = true) : AttributeType (first :: rest)
  | oid {before : Str} {numbers : List Str}
      (allowed : before = [] ∨ before = text "oid." ∨ before = text "OID.")
      (some : numbers ≠ [])
      (digits : ∀ number ∈ numbers, number ≠ [] ∧ ∀ char ∈ number, isDigit char = true) :
      AttributeType (before ++ oidText numbers)

variable {char : Byte}

theorem keychar_plain (keychar : isKeychar char = true) :
    char ≠ space ∧ char ≠ dot ∧ char ≠ equals := by
  revert keychar
  exact every_byte (by decide +kernel) char

theorem digit_keychar (digit : isDigit char = true) : isKeychar char = true := by
  rw [isKeychar, digit]
  simp

theorem alpha_keychar (alpha : isAlpha char = true) :
    isKeychar char = true ∧ isDigit char = false := by
  revert alpha
  exact every_byte (by decide +kernel) char

theorem digit_stops (more : Str) : Stops isDigit (equals :: more) := stops_cons rfl more

theorem parse_oid {numbers : List Str} (some : numbers ≠ [])
    (digits : ∀ number ∈ numbers, number ≠ [] ∧ ∀ char ∈ number, isDigit char = true)
    (more : Str) (rounds : Nat) (enough : numbers.length ≤ rounds) :
    parseOid rounds (oidText numbers ++ equals :: more) =
      .ok (oidText numbers, equals :: more) := by
  induction numbers generalizing rounds with
  | nil => exact absurd rfl some
  | cons number rest ih =>
      obtain ⟨less, rfl⟩ : ∃ less, rounds = less + 1 := ⟨rounds - 1, by
        simp only [List.length_cons] at enough
        omega⟩
      obtain ⟨_, every⟩ := digits number List.mem_cons_self
      cases rest with
      | nil =>
          have taken := take_while_stops every (digit_stops more)
          have dropped := drop_while_stops every (digit_stops more)
          rw [oidText, parseOid, taken, dropped]
          dsimp only
          rw [if_neg (by decide)]
      | cons next rest =>
          have later := ih (List.cons_ne_nil _ _)
            (fun other inside => digits other (List.mem_cons_of_mem number inside)) less
            (Nat.le_of_succ_le_succ enough)
          have stops : Stops isDigit (dot :: (oidText (next :: rest) ++ equals :: more)) :=
            stops_cons rfl _
          have taken := take_while_stops every stops
          have dropped := drop_while_stops every stops
          -- The dot is followed by a digit.
          obtain ⟨nonempty, nextDigits⟩ := digits next (by simp)
          obtain ⟨first, tail, shape⟩ : ∃ first tail,
              oidText (next :: rest) ++ equals :: more = first :: tail ∧ isDigit first = true := by
            cases next with
            | nil => exact absurd rfl nonempty
            | cons first others =>
                have isFirst := nextDigits first List.mem_cons_self
                cases rest with
                | nil => exact ⟨first, _, rfl, isFirst⟩
                | cons another rest => exact ⟨first, _, rfl, isFirst⟩
          have followed : ¬(oidText (next :: rest) ++ equals :: more ≠ [] ∧
              ¬((oidText (next :: rest) ++ equals :: more).head?.any isDigit) = true) := by
            rw [shape.1]
            rintro ⟨_, other⟩
            exact other shape.2
          rw [oidText, List.append_assoc, List.cons_append, parseOid, taken, dropped]
          dsimp only
          rw [if_pos rfl, if_neg followed, later]
          rfl

theorem oid_first {numbers : List Str} (some : numbers ≠ [])
    (digits : ∀ number ∈ numbers, number ≠ [] ∧ ∀ char ∈ number, isDigit char = true) :
    ∃ first rest, oidText numbers = first :: rest ∧ isDigit first = true := by
  cases numbers with
  | nil => exact absurd rfl some
  | cons number rest =>
      obtain ⟨nonempty, every⟩ := digits number List.mem_cons_self
      cases number with
      | nil => exact absurd rfl nonempty
      | cons first others =>
          have isFirst := every first List.mem_cons_self
          cases rest with
          | nil => exact ⟨first, _, rfl, isFirst⟩
          | cons next rest => exact ⟨first, _, rfl, isFirst⟩

theorem oid_long (numbers : List Str)
    (digits : ∀ number ∈ numbers, number ≠ [] ∧ ∀ char ∈ number, isDigit char = true) :
    numbers.length ≤ (oidText numbers).length := by
  induction numbers with
  | nil => exact Nat.le_refl 0
  | cons number rest ih =>
      have here := List.length_pos_iff.mpr (digits number List.mem_cons_self).1
      have later := ih fun other inside => digits other (List.mem_cons_of_mem number inside)
      cases rest with
      | nil => exact here
      | cons next rest =>
          rw [oidText, List.length_append, List.length_cons (a := number),
            List.length_cons (a := dot)]
          omega

theorem key_not_oid {type : Str} (keychars : ∀ char ∈ type, isKeychar char = true) (more : Str)
    (letters : Str) (three : letters.length = 3) (noEquals : equals ∉ letters) :
    (type ++ equals :: more).take 4 ≠ letters ++ [dot] := by
  intro same
  have at_ (index : Nat) (small : index < 4) :
      (type ++ equals :: more)[index]? = (letters ++ [dot])[index]? := by
    rw [← same, List.getElem?_take_of_lt small]
  by_cases short : type.length < 3
  · have here := at_ type.length (by omega)
    rw [List.getElem?_append_right (Nat.le_refl _), Nat.sub_self, List.getElem?_cons_zero,
      List.getElem?_append_left (by omega)] at here
    exact noEquals (List.mem_of_getElem? here.symm)
  · have here := at_ 3 (by omega)
    have last : (letters ++ [dot])[3]? = some dot := by
      rw [← three, List.getElem?_append_right (Nat.le_refl _), Nat.sub_self,
        List.getElem?_cons_zero]
    rw [last] at here
    by_cases ended : type.length = 3
    · rw [List.getElem?_append_right (by omega), ended, Nat.sub_self,
        List.getElem?_cons_zero] at here
      exact absurd (Option.some.inj here) (by decide)
    · rw [List.getElem?_append_left (by omega)] at here
      exact (keychar_plain (keychars dot (List.mem_of_getElem? here))).2.1 rfl

theorem parse_attribute_type {type : Str} (valid : AttributeType type) (more : Str) :
    parseAttributeType (type ++ equals :: more) = .ok (type, equals :: more) := by
  cases valid with
  | @key first rest alpha keychars =>
      obtain ⟨keychar, notDigit⟩ := alpha_keychar alpha
      have every : ∀ char ∈ first :: rest, isKeychar char = true := by
        intro char inside
        obtain rfl | inside := List.mem_cons.mp inside
        · exact keychar
        · exact keychars char inside
      have eaten : eatWhite (first :: rest ++ equals :: more) = first :: (rest ++ equals :: more) := by
        rw [List.cons_append, eatWhite,
          List.dropWhile_cons_of_neg (by simpa using (keychar_plain keychar).1)]
      have stops : Stops isKeychar (equals :: more) := stops_cons rfl more
      have taken := take_while_stops keychars stops
      have dropped := drop_while_stops keychars stops
      have lower := key_not_oid every more (text "oid") rfl (by decide)
      have upper := key_not_oid every more (text "OID") rfl (by decide)
      have notOid : ¬(isDigit first = true ∨
          (first :: (rest ++ equals :: more)).take 4 = text "oid." ∨
          (first :: (rest ++ equals :: more)).take 4 = text "OID.") := by
        rintro (digit | isLower | isUpper)
        · rw [notDigit] at digit
          cases digit
        · exact lower isLower
        · exact upper isUpper
      rw [parseAttributeType, eaten]
      dsimp only
      rw [if_neg notOid, if_pos alpha, taken, dropped]
  | @oid before numbers allowed some digits =>
      obtain ⟨first, rest, shape, digit⟩ := oid_first some digits
      have long := oid_long numbers digits
      obtain rfl | named := allowed
      · have eaten : eatWhite ([] ++ oidText numbers ++ equals :: more) =
            first :: (rest ++ equals :: more) := by
          rw [List.nil_append, shape, List.cons_append, eatWhite, List.dropWhile_cons_of_neg
            (by simpa using (keychar_plain (digit_keychar digit)).1)]
        have read := parse_oid some digits more (oidText numbers ++ equals :: more).length (by
          rw [List.length_append]
          omega)
        rw [shape, List.cons_append] at read
        rw [parseAttributeType, eaten]
        dsimp only
        rw [if_pos (.inl digit), if_pos digit, read, List.nil_append, shape]
      · have letters : ∃ letter others, before = letter :: others ∧ others.length = 3 ∧
            letter ≠ space ∧ isDigit letter = false := by
          obtain rfl | rfl := named
          · exact ⟨byte 'o', _, rfl, rfl, by decide, rfl⟩
          · exact ⟨byte 'O', _, rfl, rfl, by decide, rfl⟩
        obtain ⟨letter, others, rfl, three, notSpace, notDigit⟩ := letters
        have eaten : eatWhite (letter :: others ++ oidText numbers ++ equals :: more) =
            letter :: (others ++ oidText numbers ++ equals :: more) := by
          rw [List.cons_append, List.cons_append, eatWhite,
            List.dropWhile_cons_of_neg (by simpa using notSpace)]
        have front : (letter :: (others ++ oidText numbers ++ equals :: more)).take 4 =
            letter :: others := by
          rw [List.take_succ_cons, List.append_assoc, ← three, List.take_left]
        have back : (letter :: (others ++ oidText numbers ++ equals :: more)).drop 4 =
            oidText numbers ++ equals :: more := by
          rw [List.drop_succ_cons, List.append_assoc, ← three, List.drop_left]
        have read := parse_oid some digits more
          (letter :: (others ++ oidText numbers ++ equals :: more)).length (by
            simp only [List.length_cons, List.length_append]
            omega)
        have prefixed : isDigit letter = true ∨
            (letter :: (others ++ oidText numbers ++ equals :: more)).take 4 = text "oid." ∨
            (letter :: (others ++ oidText numbers ++ equals :: more)).take 4 = text "OID." := by
          rw [front]
          exact .inr named
        rw [parseAttributeType, eaten]
        dsimp only
        rw [if_pos prefixed, if_neg (by simp [notDigit]), back, front, read]
        rfl

end IceTouch.Ssl
