import IceTouch.Strings.Base64
import IceTouch.Strings.ProxyEndpoints

/-!
# The strings of opaque endpoints

`toString` of `OpaqueEndpointI` and the constructor that reads a string. The content is written
in base 64, which breaks its lines; the constructor takes an argument for one word.
-/

namespace IceTouch.Proxies

open Bytes WireTypes Escape Scanning

/-- An `OpaqueEndpointI`, of any type. -/
structure OpaqueEndpoint where
  type : BitVec 16
  rawEncoding : Version
  rawBytes : List Byte
deriving DecidableEq

/-- The options that `toString` writes after `opaque`. -/
def OpaqueEndpoint.options (endpoint : OpaqueEndpoint) : Str :=
  text " -t " ++ printInt endpoint.type.toInt ++ text " -e " ++
    versionToString endpoint.rawEncoding ++ text " -v " ++ Base64.encode endpoint.rawBytes

def OpaqueEndpoint.toString (endpoint : OpaqueEndpoint) : Str := text "opaque" ++ endpoint.options

/-- The variables of the constructor. -/
structure OpaqueReader where
  endpoint : OpaqueEndpoint
  topt : Nat
  vopt : Nat

namespace OpaqueReader

def fail {α : Type} (str reason : Str) : Except ParseError α :=
  .error (.endpointParse (reason ++ text " in endpoint \x60opaque " ++ str ++ text "'"))

/-- `static_cast<int>` of a `char`. -/
def ordinal (char : Byte) : Int := char.toBitVec.toInt

/-- The `switch` over the options. -/
def apply (str option : Str) (letter : Byte) (argument : Str) (reader : OpaqueReader) :
    Except ParseError OpaqueReader :=
  if letter = byte 't' then
    if argument = [] then fail str (text "no argument provided for -t option")
    else
      match readInt argument with
      | none => fail str (text "invalid type value \x60" ++ argument ++ text "'")
      | some type =>
          if type < 0 ∨ 65535 < type then
            fail str (text "type value \x60" ++ argument ++ text "' out of range")
          else if 0 < reader.topt then fail str (text "multiple -t options")
          else
            .ok { reader with
              endpoint := { reader.endpoint with type := BitVec.ofInt 16 type }
              topt := reader.topt + 1 }
  else if letter = byte 'v' then
    if argument = [] then fail str (text "no argument provided for -v option")
    else
      match argument.find? fun char => !Base64.isBase64 char with
      | some char =>
          fail str (text "invalid base64 character \x60" ++ [char] ++ text "' (ordinal " ++
            printInt (ordinal char) ++ text ")")
      | none =>
          if 0 < reader.vopt then fail str (text "multiple -v options")
          else
            .ok { reader with
              endpoint := { reader.endpoint with rawBytes := Base64.decode argument }
              vopt := reader.vopt + 1 }
  else if letter = byte 'e' then
    if argument = [] then fail str (text "no argument provided for -e option")
    else
      match stringToVersion argument with
      | .error reason =>
          .error (.endpointParse (text "invalid encoding version \x60" ++ argument ++
            text "' in endpoint \x60opaque " ++ str ++ text "':\n" ++ reason))
      | .ok version => .ok { reader with endpoint := { reader.endpoint with rawEncoding := version } }
  else fail str (text "invalid option \x60" ++ option ++ text "'")

/-- The loop over the options. A word that does not start with a dash is the argument of the
option before it. -/
def readOptions (str : Str) : OpaqueReader → List Str → Except ParseError OpaqueReader
  | reader, [] => .ok reader
  | reader, [option] =>
      match optionLetter option with
      | none => fail str (text "expected an endpoint option but found \x60" ++ option ++ text "'")
      | some letter => reader.apply str option letter []
  | reader, option :: word :: more =>
      match optionLetter option with
      | none => fail str (text "expected an endpoint option but found \x60" ++ option ++ text "'")
      | some letter =>
          if word.head? = some minus then do
            let reader ← reader.apply str option letter []
            reader.readOptions str (word :: more)
          else do
            let reader ← reader.apply str option letter word
            reader.readOptions str more

end OpaqueReader

/-- The `OpaqueEndpointI` that reads a string. -/
def OpaqueEndpoint.create (str : Str) : Except ParseError OpaqueEndpoint := do
  let reader ← OpaqueReader.readOptions str ⟨⟨0, ⟨1, 0⟩, []⟩, 0, 0⟩ (words isBlank str)
  if reader.topt ≠ 1 then OpaqueReader.fail str (text "no -t option")
  else if reader.vopt ≠ 1 then OpaqueReader.fail str (text "no -v option")
  else .ok reader.endpoint

theorem base64_not_blank {char : Byte} (inside : Base64.isBase64 char = true) :
    isBlank char = false ∧ char ≠ minus := by
  revert inside
  exact every_byte (by decide +kernel) char

theorem triples_length (plainSeq : List Byte) :
    (Base64.encodeTriples plainSeq).length = (plainSeq.length + 2) / 3 * 4 := by
  induction plainSeq using Base64.encodeTriples.induct with
  | case1 => rfl
  | case2 by1 | case3 by1 by2 => simp [Base64.encodeTriples, Base64.encodeTriple]
  | case4 by1 by2 by3 rest ih =>
      rw [Base64.encodeTriples, List.length_append, ih]
      simp only [Base64.encodeTriple, List.length_cons, List.length_nil]
      omega

theorem triples_plain (plainSeq : List Byte) : Plain (Base64.encodeTriples plainSeq) :=
  fun char inside => (base64_not_blank (Base64.triples_are_base64 plainSeq char inside)).1

theorem lines_words (rounds : Nat) {chars : Str} (every : ∀ c ∈ chars, Base64.isBase64 c = true)
    (some : chars ≠ []) :
    ∃ word rest, words isBlank (Base64.breakLines rounds chars) = word :: rest ∧
      optionLetter word = none := by
  obtain ⟨char, more, rfl⟩ := List.exists_cons_of_ne_nil some
  have first := base64_not_blank (every char List.mem_cons_self)
  have begun : ∃ later, Base64.breakLines rounds (char :: more) = char :: later := by
    cases rounds with
    | zero => exact ⟨more, rfl⟩
    | succ rounds =>
        rw [Base64.breakLines]
        split
        · exact ⟨_, rfl⟩
        · exact ⟨more, rfl⟩
  obtain ⟨later, same⟩ := begun
  obtain ⟨grown, rest, found⟩ := @words_from_grow _ isBlank [char] (List.cons_ne_nil _ _) later
  refine ⟨[char] ++ grown, rest, ?_, ?_⟩
  · rw [same, words, wordsFrom, if_neg (by rw [first.1]; exact Bool.false_ne_true), List.nil_append]
    exact found
  · cases grown with
    | nil => rfl
    | cons letter grown =>
        cases grown with
        | nil => exact if_neg first.2
        | cons => rfl

theorem content_line {rawBytes : List Byte} (filled : rawBytes ≠ []) (short : rawBytes.length ≤ 57) :
    words isBlank (Base64.encode rawBytes) = [Base64.encode rawBytes] ∧
      (Base64.encode rawBytes).head? ≠ some minus ∧ Base64.encode rawBytes ≠ [] ∧
      (Base64.encode rawBytes).find? (fun char => !Base64.isBase64 char) = none := by
  have every := Base64.triples_are_base64 rawBytes
  have length := triples_length rawBytes
  have positive := List.length_pos_iff.mpr filled
  have whole : Base64.encode rawBytes = Base64.encodeTriples rawBytes := by
    obtain ⟨rounds, many⟩ : ∃ rounds, (Base64.encodeTriples rawBytes).length = rounds + 1 :=
      ⟨(Base64.encodeTriples rawBytes).length - 1, by omega⟩
    rw [Base64.encode, many, Base64.breakLines, if_neg (by omega)]
  have filled' : Base64.encodeTriples rawBytes ≠ [] := List.length_pos_iff.mp (by omega)
  rw [whole]
  refine ⟨words_last (triples_plain rawBytes) filled', fun dash => ?_, filled', ?_⟩
  · exact (base64_not_blank (every minus (List.mem_of_head? dash))).2 rfl
  · exact List.find?_eq_none.mpr fun char inside => by simp [every char inside]

theorem content_lines {rawBytes : List Byte} (long : 57 < rawBytes.length) :
    ∃ line word rest, words isBlank (Base64.encode rawBytes) = line :: word :: rest ∧
      optionLetter word = none := by
  have every := Base64.triples_are_base64 rawBytes
  have length := triples_length rawBytes
  obtain ⟨rounds, many⟩ : ∃ rounds, (Base64.encodeTriples rawBytes).length = rounds + 1 :=
    ⟨(Base64.encodeTriples rawBytes).length - 1, by omega⟩
  have line : (Base64.encodeTriples rawBytes).take 76 ≠ [] :=
    List.length_pos_iff.mp (by rw [List.length_take]; omega)
  have left : (Base64.encodeTriples rawBytes).drop 76 ≠ [] :=
    List.length_pos_iff.mp (by rw [List.length_drop]; omega)
  obtain ⟨word, rest, found, noOption⟩ :=
    lines_words rounds (fun c inside => every c (List.mem_of_mem_drop inside)) left
  refine ⟨(Base64.encodeTriples rawBytes).take 76, word, rest, ?_, noOption⟩
  rw [Base64.encode, many, Base64.breakLines, if_pos (by omega), List.append_assoc,
    List.cons_append, List.singleton_append,
    words_word (fun char inside => triples_plain rawBytes char (List.mem_of_mem_take inside)) line
      (by rfl), words_skip (by rfl), words_skip (by rfl), found]

theorem option_words (endpoint : OpaqueEndpoint) :
    words isBlank endpoint.options =
      text "-t" :: printInt endpoint.type.toInt :: text "-e" ::
        versionToString endpoint.rawEncoding :: text "-v" ::
          words isBlank (Base64.encode endpoint.rawBytes) := by
  have shape : endpoint.options = [] ++ space :: (text "-t" ++ space :: (printInt endpoint.type.toInt
      ++ space :: (text "-e" ++ space :: (versionToString endpoint.rawEncoding ++
        space :: (text "-v" ++ space :: Base64.encode endpoint.rawBytes))))) := by
    simp [OpaqueEndpoint.options, text]
  have number := print_int_plain endpoint.type.toInt
  have version : ∀ char ∈ versionToString endpoint.rawEncoding, isBlank char = false :=
    fun char inside => (not_separator (version_plain _ char inside).1).1
  have blank : isBlank space = true := rfl
  rw [shape, words_append _ blank, words_append _ blank, words_append _ blank,
    words_append _ blank, words_append _ blank, words_append _ blank,
    words_last number.2 number.1, words_last version (version_head _).1]
  rfl

namespace OpaqueReader

variable {reader : OpaqueReader} {str word : Str} {letter : Byte}

theorem read_argument {next : OpaqueReader} (notOption : word.head? ≠ some minus) (more : List Str)
    (applied : reader.apply str [minus, letter] letter word = .ok next) :
    reader.readOptions str ([minus, letter] :: word :: more) = next.readOptions str more := by
  rw [readOptions, optionLetter, if_pos rfl]
  simp only
  rw [if_neg notOption, applied]
  rfl

theorem read_required (required : ∀ result, reader.apply str [minus, letter] letter [] ≠ .ok result)
    {more : List Str} {result : OpaqueReader}
    (read : reader.readOptions str ([minus, letter] :: word :: more) = .ok result) :
    word.head? ≠ some minus := by
  intro dash
  rw [readOptions, optionLetter, if_pos rfl] at read
  simp only [if_pos dash] at read
  obtain ⟨next, applied, -⟩ := Results.bind_ok read
  exact required next applied

end OpaqueReader

/-- The opaque endpoints whose string can be read. -/
structure OpaqueEndpoint.Readable (endpoint : OpaqueEndpoint) : Prop where
  type : 0 ≤ endpoint.type.toInt
  version : endpoint.rawEncoding.major ≠ 0
  filled : endpoint.rawBytes ≠ []
  short : endpoint.rawBytes.length ≤ 57

theorem opaque_front (endpoint : OpaqueEndpoint) (str : Str) (more : List Str)
    (reader : OpaqueReader) :
    OpaqueReader.readOptions str ⟨⟨0, ⟨1, 0⟩, []⟩, 0, 0⟩
        (text "-t" :: printInt endpoint.type.toInt :: text "-e" ::
          versionToString endpoint.rawEncoding :: more) = .ok reader ↔
      0 ≤ endpoint.type.toInt ∧ endpoint.rawEncoding.major ≠ 0 ∧
        OpaqueReader.readOptions str ⟨⟨endpoint.type, endpoint.rawEncoding, []⟩, 1, 0⟩ more =
          .ok reader := by
  by_cases positive : 0 ≤ endpoint.type.toInt
  · have bound := BitVec.toInt_lt (x := endpoint.type)
    have number := print_int_nonneg positive
    have bare : (printInt endpoint.type.toInt).head? ≠ some minus := by
      rw [number, ← List.append_nil (decimal _)]
      exact (decimal_bare _ []).1
    have read : readInt (printInt endpoint.type.toInt) = some endpoint.type.toInt := by
      rw [number, read_int_decimal (by omega), Int.toNat_of_nonneg positive]
    have applied : OpaqueReader.apply str [minus, byte 't'] (byte 't')
        (printInt endpoint.type.toInt) ⟨⟨0, ⟨1, 0⟩, []⟩, 0, 0⟩ =
          .ok ⟨⟨endpoint.type, ⟨1, 0⟩, []⟩, 1, 0⟩ := by
      have inside : ¬(endpoint.type.toInt < 0 ∨ 65535 < endpoint.type.toInt) := by omega
      simp only [OpaqueReader.apply, if_true, if_neg (print_int_plain endpoint.type.toInt).1, read,
        if_neg inside, BitVec.ofInt_toInt]
      rfl
    have first := OpaqueReader.read_argument bare (text "-e" ::
      versionToString endpoint.rawEncoding :: more) applied
    have version := string_to_version endpoint.rawEncoding
    have head := version_head endpoint.rawEncoding
    have typed : text "-t" = [minus, byte 't'] := rfl
    have encoded : text "-e" = [minus, byte 'e'] := rfl
    rw [typed, first, encoded]
    by_cases zero : endpoint.rawEncoding.major = 0
    · rw [if_pos zero] at version
      refine ⟨fun read => ?_, fun fine => absurd zero fine.2.1⟩
      rw [OpaqueReader.readOptions, optionLetter, if_pos rfl] at read
      simp only [if_neg head.2, OpaqueReader.apply, if_neg head.1, version] at read
      cases read
    · rw [if_neg zero] at version
      have applied : OpaqueReader.apply str [minus, byte 'e'] (byte 'e')
          (versionToString endpoint.rawEncoding) ⟨⟨endpoint.type, ⟨1, 0⟩, []⟩, 1, 0⟩ =
            .ok ⟨⟨endpoint.type, endpoint.rawEncoding, []⟩, 1, 0⟩ := by
        simp only [OpaqueReader.apply, if_neg head.1, version]
        rfl
      rw [OpaqueReader.read_argument head.2 more applied]
      exact ⟨fun read => ⟨positive, zero, read⟩, fun fine => fine.2.2⟩
  · have dash : (printInt endpoint.type.toInt).head? = some minus := by
      rw [printInt, if_pos (by omega)]
      rfl
    refine ⟨fun read => ?_, fun fine => absurd fine.1 positive⟩
    exact absurd dash (OpaqueReader.read_required (fun _ applied => by cases applied) read)

/-- The string of an opaque endpoint is read back exactly when the endpoint is readable. -/
theorem opaque_string_iff (endpoint : OpaqueEndpoint) :
    OpaqueEndpoint.create endpoint.options = .ok endpoint ↔ endpoint.Readable := by
  have filledOption : text "-v" = [minus, byte 'v'] := rfl
  constructor
  · intro created
    obtain ⟨reader, read, -⟩ := Results.bind_ok created
    rw [option_words] at read
    obtain ⟨type, version, read⟩ := (opaque_front endpoint _ _ reader).mp read
    rw [filledOption] at read
    refine ⟨type, version, fun none => ?_, ?_⟩
    · rw [none] at read
      cases read
    · by_contra long
      obtain ⟨line, word, rest, found, noOption⟩ := content_lines (Nat.lt_of_not_le long)
      rw [found] at read
      have bare := OpaqueReader.read_required (fun _ applied => by cases applied) read
      rw [OpaqueReader.readOptions, optionLetter, if_pos rfl] at read
      simp only [if_neg bare] at read
      obtain ⟨next, -, later⟩ := Results.bind_ok read
      cases rest with
      | nil =>
          rw [OpaqueReader.readOptions, noOption] at later
          cases later
      | cons =>
          rw [OpaqueReader.readOptions, noOption] at later
          cases later
  · intro readable
    obtain ⟨found, bare, filled, clean⟩ := content_line readable.filled readable.short
    have applied : OpaqueReader.apply endpoint.options [minus, byte 'v'] (byte 'v')
        (Base64.encode endpoint.rawBytes) ⟨⟨endpoint.type, endpoint.rawEncoding, []⟩, 1, 0⟩ =
          .ok ⟨endpoint, 1, 1⟩ := by
      simp only [OpaqueReader.apply, if_neg filled, clean,
        (Base64.base64_round_trip endpoint.rawBytes).1]
      rfl
    have read : OpaqueReader.readOptions endpoint.options ⟨⟨0, ⟨1, 0⟩, []⟩, 0, 0⟩
        (words isBlank endpoint.options) = .ok ⟨endpoint, 1, 1⟩ := by
      rw [option_words, opaque_front, found, filledOption, OpaqueReader.read_argument bare [] applied]
      exact ⟨readable.type, readable.version, rfl⟩
    rw [OpaqueEndpoint.create, read]
    rfl

end IceTouch.Proxies
