import IceTouch.Strings.Escape

/-!
# Base64

`IceInternal::Base64`. The encoder breaks its text into lines afterwards, and the decoder first
drops whatever is no character of the encoding, the line breaks among it.
-/

namespace IceTouch.Base64

open Bytes WireTypes
open Escape (carriageReturn newline)

abbrev upperA : Byte := 65
abbrev upperZ : Byte := 90
abbrev lowerA : Byte := 97
abbrev lowerZ : Byte := 122
abbrev digit0 : Byte := 48
abbrev digit9 : Byte := 57
abbrev plus : Byte := 43
abbrev slash : Byte := 47
abbrev padding : Byte := 61

def isBase64 (c : Byte) : Bool :=
  (upperA ≤ c && c ≤ upperZ) || (lowerA ≤ c && c ≤ lowerZ) || (digit0 ≤ c && c ≤ digit9) ||
    c = plus || c = slash || c = padding

/-- `encode(unsigned char)`. -/
def encodeChar (uc : Byte) : Byte :=
  if uc < 26 then upperA + uc
  else if uc < 52 then lowerA + (uc - 26)
  else if uc < 62 then digit0 + (uc - 52)
  else if uc = 62 then plus
  else slash

/-- `decode(char)`. -/
def decodeChar (c : Byte) : Byte :=
  if upperA ≤ c ∧ c ≤ upperZ then c - upperA
  else if lowerA ≤ c ∧ c ≤ lowerZ then c - lowerA + 26
  else if digit0 ≤ c ∧ c ≤ digit9 then c - digit0 + 52
  else if c = plus then 62
  else 63

def encodeTriple (by1 : Byte) (second third : Option Byte) : Str :=
  let by2 := second.getD 0
  let by3 := third.getD 0
  let by4 := by1 >>> 2
  let by5 := (by1 &&& 0x3) <<< 4 ||| by2 >>> 4
  let by6 := (by2 &&& 0xf) <<< 2 ||| by3 >>> 6
  let by7 := by3 &&& 0x3f
  [encodeChar by4, encodeChar by5, if second.isSome then encodeChar by6 else padding,
    if third.isSome then encodeChar by7 else padding]

/-- The loop over the bytes. -/
def encodeTriples : List Byte → Str
  | [] => []
  | [by1] => encodeTriple by1 none none
  | [by1, by2] => encodeTriple by1 (some by2) none
  | by1 :: by2 :: by3 :: rest => encodeTriple by1 (some by2) (some by3) ++ encodeTriples rest

/-- The loop that breaks the text after 76 characters, which it does at most once for each of
them. -/
def breakLines : Nat → Str → Str
  | 0, text => text
  | rounds + 1, text =>
      if 76 < text.length then
        text.take 76 ++ [carriageReturn, newline] ++ breakLines rounds (text.drop 76)
      else text

def encode (plainSeq : List Byte) : Str :=
  breakLines (encodeTriples plainSeq).length (encodeTriples plainSeq)

def decodeQuad (c1 c2 c3 c4 : Byte) : List Byte :=
  let by1 := decodeChar c1
  let by2 := decodeChar c2
  let by3 := decodeChar c3
  let by4 := decodeChar c4
  (by1 <<< 2 ||| by2 >>> 4) ::
    ((if c3 ≠ padding then [(by2 &&& 0xf) <<< 4 ||| by3 >>> 2] else []) ++
      if c4 ≠ padding then [(by3 &&& 0x3) <<< 6 ||| by4] else [])

/-- The loop over the characters that are left; those that are missing at the end are an `A`. -/
def decodeQuads : Str → List Byte
  | [] => []
  | [c1] => decodeQuad c1 upperA upperA upperA
  | [c1, c2] => decodeQuad c1 c2 upperA upperA
  | [c1, c2, c3] => decodeQuad c1 c2 c3 upperA
  | c1 :: c2 :: c3 :: c4 :: rest => decodeQuad c1 c2 c3 c4 ++ decodeQuads rest

def decode (str : Str) : List Byte :=
  decodeQuads (str.filter isBase64)

theorem shift_bounded (byte : Byte) : byte >>> 2 < 64 ∧ byte >>> 4 < 16 ∧ byte >>> 6 < 4 :=
  every_byte (by decide +kernel) byte

theorem encode_char_spec {uc : Byte} (small : uc < 64) :
    decodeChar (encodeChar uc) = uc ∧ isBase64 (encodeChar uc) = true ∧ encodeChar uc ≠ padding := by
  have every : ∀ value : Fin 64, decodeChar (encodeChar (UInt8.ofNat value.val)) =
      UInt8.ofNat value.val ∧ isBase64 (encodeChar (UInt8.ofNat value.val)) = true ∧
        encodeChar (UInt8.ofNat value.val) ≠ padding := by decide +kernel
  have here := every ⟨uc.toNat, small⟩
  simpa using here

theorem two_and_four (byte : Byte) {high : Byte} (small : high < 16) :
    (byte &&& 0x3) <<< 4 ||| high < 64 ∧
      byte >>> 2 <<< 2 ||| ((byte &&& 0x3) <<< 4 ||| high) >>> 4 = byte ∧
        ((byte &&& 0x3) <<< 4 ||| high) &&& 0xf = high := by
  have every : ∀ value : Fin 256, ∀ other : Fin 16,
      (UInt8.ofNat value.val &&& 0x3) <<< 4 ||| UInt8.ofNat other.val < 64 ∧
      UInt8.ofNat value.val >>> 2 <<< 2 |||
        ((UInt8.ofNat value.val &&& 0x3) <<< 4 ||| UInt8.ofNat other.val) >>> 4 =
          UInt8.ofNat value.val ∧
      ((UInt8.ofNat value.val &&& 0x3) <<< 4 ||| UInt8.ofNat other.val) &&& 0xf =
        UInt8.ofNat other.val := by decide +kernel
  have here := every ⟨byte.toNat, byte.toNat_lt⟩ ⟨high.toNat, small⟩
  simpa using here

theorem four_and_two (byte : Byte) {high : Byte} (small : high < 4) :
    (byte &&& 0xf) <<< 2 ||| high < 64 ∧
      byte >>> 4 <<< 4 ||| ((byte &&& 0xf) <<< 2 ||| high) >>> 2 = byte ∧
        ((byte &&& 0xf) <<< 2 ||| high) &&& 0x3 = high := by
  have every : ∀ value : Fin 256, ∀ other : Fin 4,
      (UInt8.ofNat value.val &&& 0xf) <<< 2 ||| UInt8.ofNat other.val < 64 ∧
      UInt8.ofNat value.val >>> 4 <<< 4 |||
        ((UInt8.ofNat value.val &&& 0xf) <<< 2 ||| UInt8.ofNat other.val) >>> 2 =
          UInt8.ofNat value.val ∧
      ((UInt8.ofNat value.val &&& 0xf) <<< 2 ||| UInt8.ofNat other.val) &&& 0x3 =
        UInt8.ofNat other.val := by decide +kernel
  have here := every ⟨byte.toNat, byte.toNat_lt⟩ ⟨high.toNat, small⟩
  simpa using here

theorem last_six (byte : Byte) :
    byte &&& 0x3f < 64 ∧ byte >>> 6 <<< 6 ||| (byte &&& 0x3f) = byte :=
  every_byte (by decide +kernel) byte

theorem padding_is_base64 : isBase64 padding = true := by decide

theorem triple_is_base64 (by1 : Byte) (second third : Option Byte) :
    ∀ c ∈ encodeTriple by1 second third, isBase64 c = true := by
  have char4 := (encode_char_spec (shift_bounded by1).1).2.1
  have char5 := (encode_char_spec
    (two_and_four by1 (shift_bounded (second.getD 0)).2.1).1).2.1
  have char6 := (encode_char_spec
    (four_and_two (second.getD 0) (shift_bounded (third.getD 0)).2.2).1).2.1
  have char7 := (encode_char_spec (last_six (third.getD 0)).1).2.1
  intro c inside
  simp only [encodeTriple, List.mem_cons, List.not_mem_nil, or_false] at inside
  obtain rfl | rfl | rfl | rfl := inside
  · exact char4
  · exact char5
  · split
    · exact char6
    · exact padding_is_base64
  · split
    · exact char7
    · exact padding_is_base64

/-- A quad is decoded to the bytes it was made of, and what follows is decoded by itself. -/
theorem decode_triple (by1 : Byte) {second third : Option Byte}
    (ordered : third.isSome = true → second.isSome = true) (rest : Str) :
    decodeQuads (encodeTriple by1 second third ++ rest) =
      by1 :: (second.toList ++ third.toList) ++ decodeQuads rest := by
  obtain ⟨bound5, join1, low1⟩ := two_and_four by1 (shift_bounded (second.getD 0)).2.1
  obtain ⟨bound6, join2, low2⟩ := four_and_two (second.getD 0) (shift_bounded (third.getD 0)).2.2
  obtain ⟨bound7, join3⟩ := last_six (third.getD 0)
  obtain ⟨read4, -, -⟩ := encode_char_spec (shift_bounded by1).1
  obtain ⟨read5, -, -⟩ := encode_char_spec bound5
  obtain ⟨read6, -, real6⟩ := encode_char_spec bound6
  obtain ⟨read7, -, real7⟩ := encode_char_spec bound7
  rw [encodeTriple, List.cons_append, List.cons_append, List.cons_append, List.cons_append,
    List.nil_append, decodeQuads, decodeQuad, read4, read5, join1, low1]
  cases second with
  | none =>
      cases third with
      | none => rfl
      | some by3 => exact absurd (ordered rfl) Bool.false_ne_true
  | some by2 =>
      cases third with
      | none =>
          simp only [Option.isSome_some, Option.isSome_none, if_true, Option.getD_some,
            Option.getD_none] at *
          rw [if_pos real6, read6, join2]
          rfl
      | some by3 =>
          simp only [Option.isSome_some, if_true, Option.getD_some] at *
          rw [if_pos real6, if_pos real7, read6, read7, join2, low2, join3]
          rfl

theorem triples_are_base64 (plainSeq : List Byte) :
    ∀ c ∈ encodeTriples plainSeq, isBase64 c = true := by
  induction plainSeq using encodeTriples.induct with
  | case1 => exact List.forall_mem_nil _
  | case2 by1 => exact triple_is_base64 by1 none none
  | case3 by1 by2 => exact triple_is_base64 by1 (some by2) none
  | case4 by1 by2 by3 rest ih =>
      intro c inside
      obtain first | later := List.mem_append.mp inside
      · exact triple_is_base64 by1 (some by2) (some by3) c first
      · exact ih c later

theorem decode_triples (plainSeq : List Byte) : decodeQuads (encodeTriples plainSeq) = plainSeq := by
  induction plainSeq using encodeTriples.induct with
  | case1 => rfl
  | case2 by1 =>
      have decoded := @decode_triple by1 none none id []
      rwa [List.append_nil] at decoded
  | case3 by1 by2 =>
      have decoded := @decode_triple by1 (some by2) none (fun _ => rfl) []
      rwa [List.append_nil] at decoded
  | case4 by1 by2 by3 rest ih =>
      rw [encodeTriples, decode_triple by1 (fun _ => rfl), ih]
      rfl

theorem filter_lines (rounds : Nat) {text : Str} (every : ∀ c ∈ text, isBase64 c = true) :
    (breakLines rounds text).filter isBase64 = text := by
  induction rounds generalizing text with
  | zero => exact List.filter_eq_self.mpr every
  | succ rounds ih =>
      rw [breakLines]
      split
      · have later : (breakLines rounds (text.drop 76)).filter isBase64 = text.drop 76 :=
          ih fun c inside => every c (List.mem_of_mem_drop inside)
        have front : (text.take 76).filter isBase64 = text.take 76 :=
          List.filter_eq_self.mpr fun c inside => every c (List.mem_of_mem_take inside)
        have none : [carriageReturn, newline].filter isBase64 = [] := rfl
        rw [List.filter_append, List.filter_append, later, front, none, List.append_nil,
          List.take_append_drop]
      · exact List.filter_eq_self.mpr every

theorem mem_lines (rounds : Nat) {text : Str} {c : Byte} (inside : c ∈ breakLines rounds text) :
    c ∈ text ∨ c = carriageReturn ∨ c = newline := by
  induction rounds generalizing text with
  | zero => exact .inl inside
  | succ rounds ih =>
      rw [breakLines] at inside
      split at inside
      · obtain front | later := List.mem_append.mp inside
        · obtain front | lineBreak := List.mem_append.mp front
          · exact .inl (List.mem_of_mem_take front)
          · exact .inr (by simpa using lineBreak)
        · exact (ih later).imp_left List.mem_of_mem_drop
      · exact .inl inside

/-- What has been encoded is decoded again, and besides line breaks the encoder writes only
characters of the encoding. -/
theorem base64_round_trip (s : List Byte) :
    decode (encode s) = s ∧
      ∀ c ∈ encode s, c ≠ carriageReturn → c ≠ newline → isBase64 c = true := by
  have every := triples_are_base64 s
  constructor
  · rw [decode, encode, filter_lines _ every, decode_triples]
  · intro c inside noReturn noNewline
    obtain char | lineReturn | lineFeed := mem_lines _ inside
    · exact every c char
    · exact absurd lineReturn noReturn
    · exact absurd lineFeed noNewline

end IceTouch.Base64
