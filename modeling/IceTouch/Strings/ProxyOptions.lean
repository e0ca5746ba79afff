import IceTouch.Strings.ProxyIdentities

/-!
# Options of stringified proxies

What `Reference::toString` writes after the identity is a list of options. Each one that can be
read is read back, up to the next one.
-/

namespace IceTouch.Proxies

open Bytes WireTypes Escape Identities Scanning
  Results

/-- An option that `toString` writes. -/
inductive Item where
  | facet (value : Str)
  | mode (value : ProxyMode)
  | secure
  | protocol (version : Version)
  | encoding (version : Version)

def Item.spell : Item → Str
  | .facet value => text " -f " ++ enclose (encodeAll [] value)
  | .mode value => modeString value
  | .secure => text " -s"
  | .protocol version => text " -p " ++ versionToString version
  | .encoding version => text " -e " ++ versionToString version

def Item.put (options : Options) : Item → Options
  | .facet value => { options with facet := value }
  | .mode value => { options with mode := value }
  | .secure => { options with secure := true }
  | .protocol version => { options with protocol := version }
  | .encoding version => { options with encoding := version }

/-- The facets that are read back: a backslash at the end does not hide the closing quote, and
what has no quotes does not look like an option. -/
def facetReadable (facet : Str) : Prop :=
  if hasSeparator facet then facet.getLast? ≠ some backslash else facet.head? ≠ some minus

instance (facet : Str) : Decidable (facetReadable facet) := by
  unfold facetReadable
  infer_instance

def Item.Readable : Item → Prop
  | .facet value => value ≠ [] ∧ facetReadable value
  | .mode _ => True
  | .secure => True
  | .protocol version => version.major ≠ 0
  | .encoding version => version.major ≠ 0

inductive Follows : Str → Prop
  | done : Follows []
  | option (rest : Str) : Follows (space :: minus :: rest)
  | endpoints (rest : Str) : Follows (colon :: rest)
  | adapter (rest : Str) : Follows (space :: atSign :: rest)

variable {rest : Str}

theorem Follows.stops (follows : Follows rest) : Stops (fun char => !isSeparator char) rest := by
  cases follows with
  | done => exact stops_nil _
  | option rest => exact stops_cons rfl _
  | endpoints rest => exact stops_cons rfl _
  | adapter rest => exact stops_cons rfl _

theorem Follows.no_argument (follows : Follows rest) (s option : Str) :
    readArgument s option rest = .ok ([], rest) := by
  cases follows with
  | done => rfl
  | option rest => rfl
  | endpoints rest => rfl
  | adapter rest => rfl

theorem read_options_letter (s : Str) (rounds : Nat) (options : Options) {letter : Byte}
    (plain : isSeparator letter = false) (stops : Stops (fun char => !isSeparator char) rest) :
    readOptions s (rounds + 1) options (space :: minus :: letter :: rest) = (do
      let (argument, after) ← readArgument s [minus, letter] rest
      let options ← options.apply s [minus, letter] letter argument
      readOptions s rounds options after) := by
  have every : ∀ char ∈ [minus, letter], (fun char => !isSeparator char) char = true := by
    intro char inside
    obtain rfl | inside := List.mem_cons.mp inside
    · rfl
    · rw [List.mem_singleton.mp inside]
      simpa using plain
  have word := take_while_stops every stops
  have left := drop_while_stops every stops
  simp only [List.cons_append, List.nil_append] at word left
  have found : (space :: minus :: letter :: rest).dropWhile isBlank = minus :: letter :: rest := by
    rw [List.dropWhile_cons_of_pos rfl, List.dropWhile_cons_of_neg (by decide)]
  have option : ¬(minus = colon ∨ minus = atSign) := by decide
  rw [readOptions, found]
  simp only [if_neg option, word, left, optionLetter, if_true]

theorem enclose_head {s : Str} (spelled : Spelled s) (some' : s ≠ [])
    (dash : separated s = false → s.head? ≠ some minus) :
    ∃ first rest, enclose s = first :: rest ∧ isSeparator first = false ∧ first ≠ minus := by
  rw [spelled.enclose_eq]
  by_cases isSeparated : separated s = true
  · rw [if_pos isSeparated]
    exact ⟨doubleQuote, _, rfl, rfl, by decide⟩
  · rw [if_neg isSeparated]
    have bare : separated s = false := by simpa using isSeparated
    cases s with
    | nil => exact absurd rfl some'
    | cons first rest =>
        refine ⟨first, rest, rfl, ?_, ?_⟩
        · rw [separated, List.any_cons, Bool.or_eq_false_iff] at bare
          exact bare.1
        · intro same
          exact dash bare (congrArg some same)

theorem not_separator {char : Byte} (plain : isSeparator char = false) :
    isBlank char = false ∧ char ≠ colon ∧ char ≠ atSign := by
  simpa [isSeparator, and_assoc] using plain

theorem read_argument_enclose {t : Str} (spelled : Spelled t) (some' : t ≠ [])
    (ends : separated t = true → t.getLast? ≠ some backslash)
    (dash : separated t = false → t.head? ≠ some minus)
    (stops : Stops (fun char => !isSeparator char) rest) (s option : Str) :
    readArgument s option (space :: (enclose t ++ rest)) = .ok (t, rest) := by
  obtain ⟨first, more, shape, plain, notMinus⟩ := enclose_head spelled some' dash
  obtain ⟨notBlank, notColon, notAt⟩ := not_separator plain
  have token := token_enclose isSeparator (fun _ same => same) spelled some' ends stops
  have found : (space :: (enclose t ++ rest)).dropWhile isBlank = first :: (more ++ rest) := by
    rw [List.dropWhile_cons_of_pos rfl, shape, List.cons_append,
      List.dropWhile_cons_of_neg (by simp [notBlank])]
  have argument : ¬(first = atSign ∨ first = colon ∨ first = minus) := by
    rintro (same | same | same)
    · exact notAt same
    · exact notColon same
    · exact notMinus same
  rw [shape, List.cons_append] at token
  rw [readArgument, found]
  simp only [if_neg argument, token]

theorem digit_plain {char : Byte} (digit : isDigit char = true) :
    isSeparator char = false ∧ char ≠ doubleQuote ∧ char ≠ quote ∧ char ≠ backslash ∧
      char ≠ dot ∧ char ≠ minus := by
  revert digit
  exact every_byte (by decide +kernel) char

theorem plain_spelled {t : Str}
    (plain : ∀ char ∈ t, isSeparator char = false ∧ char ≠ doubleQuote ∧ char ≠ quote) :
    Spelled t ∧ separated t = false := by
  have noQuote (previous : Byte) : Sealed previous t := by
    induction t generalizing previous with
    | nil => trivial
    | cons char rest ih =>
        refine ⟨fun same => absurd same (plain char List.mem_cons_self).2.1, ?_⟩
        exact ih (fun other inside => plain other (List.mem_cons_of_mem char inside)) char
  refine ⟨⟨noQuote doubleQuote, ?_, ?_⟩, ?_⟩
  · intro first starts
    have inside := List.mem_of_head? starts
    exact (plain first inside).2
  · intro char inside isSep
    rw [(plain char inside).1] at isSep
    cases isSep
  · rw [separated, List.any_eq_false]
    intro char inside
    rw [(plain char inside).1]
    exact Bool.false_ne_true

theorem version_plain (version : Version) : ∀ char ∈ versionToString version,
    isSeparator char = false ∧ char ≠ doubleQuote ∧ char ≠ quote := by
  intro char inside
  obtain major | rest := List.mem_append.mp inside
  · have plain := digit_plain (decimal_digits _ char major)
    exact ⟨plain.1, plain.2.1, plain.2.2.1⟩
  · obtain rfl | minor := List.mem_cons.mp rest
    · decide
    · have plain := digit_plain (decimal_digits _ char minor)
      exact ⟨plain.1, plain.2.1, plain.2.2.1⟩

theorem version_head (version : Version) :
    versionToString version ≠ [] ∧ (versionToString version).head? ≠ some minus := by
  unfold versionToString
  cases shape : decimal version.major.toNat with
  | nil => exact absurd shape (decimal_ne_nil _)
  | cons first rest =>
      refine ⟨List.cons_ne_nil _ _, ?_⟩
      have inside : first ∈ decimal version.major.toNat := by
        rw [shape]
        exact List.mem_cons_self
      intro same
      exact (digit_plain (decimal_digits _ first inside)).2.2.2.2.2 (Option.some.inj same)

theorem string_to_version (version : Version) :
    stringToVersion (versionToString version) =
      if version.major = 0 then
        .error (text "range error in version \x60" ++ versionToString version ++ text "'")
      else .ok version := by
  have digits : ∀ char ∈ decimal version.major.toNat,
      (fun char : Byte => decide (char ≠ dot)) char = true := by
    intro char inside
    have plain := digit_plain (decimal_digits _ char inside)
    simpa using plain.2.2.2.2.1
  have stops : Stops (fun char : Byte => decide (char ≠ dot))
      (dot :: decimal version.minor.toNat) := stops_cons (by simp) _
  have front := take_while_stops digits stops
  have back := drop_while_stops digits stops
  have hasDot : dot ∈ versionToString version := by
    simp [versionToString]
  have majorBound := version.major.toNat_lt
  have minorBound := version.minor.toNat_lt
  have major : readInt (decimal version.major.toNat) = some (version.major.toNat : Int) :=
    read_int_decimal (by omega)
  have minor : readInt (decimal version.minor.toNat) = some (version.minor.toNat : Int) :=
    read_int_decimal (by omega)
  rw [stringToVersion, if_neg (not_not.mpr hasDot)]
  simp only [versionToString] at front back ⊢
  rw [front, back]
  simp only [List.tail_cons, major, minor]
  by_cases zero : version.major = 0
  · rw [if_pos zero, if_pos]
    left
    rw [zero]
    decide
  · have positive : version.major.toNat ≠ 0 := fun same => zero (UInt8.toNat_inj.mp same)
    rw [if_neg zero, if_neg (by omega)]
    simp

variable {facet : Str}

theorem encode_minus : (encodeAll [] facet).head? = some minus ↔
    facet.head? = some minus := by
  cases facet with
  | nil => exact Iff.rfl
  | cons char rest =>
      have here : (encodeChar [] char).head? = some minus ↔ char = minus :=
        every_byte (by decide +kernel) char
      have grown := encode_char_pos nothing_plain char
      rw [encodeAll, List.flatMap_cons]
      cases shape : encodeChar [] char with
      | nil => simp [shape] at grown
      | cons first more =>
          rw [shape] at here
          simpa using here

theorem encode_ne_nil {special : Str} (plain : Plain special) {s : Str} (some' : s ≠ []) :
    encodeAll special s ≠ [] := by
  intro none
  have long := encode_all_length plain s
  rw [none] at long
  exact some' (List.eq_nil_of_length_eq_zero (Nat.le_zero.mp long))

theorem encode_open (facet : Str) :
    (separated (encodeAll [] facet) = true → (encodeAll [] facet).getLast? ≠ some backslash) ↔
      (hasSeparator facet → facet.getLast? ≠ some backslash) := by
  rw [encode_separated (.inr rfl), ne_eq, ne_eq, encode_all_last nothing_plain]
  exact Iff.rfl

theorem readable_facet (readable : facetReadable facet) :
    (separated (encodeAll [] facet) = true → (encodeAll [] facet).getLast? ≠ some backslash) ∧
      (separated (encodeAll [] facet) = false → (encodeAll [] facet).head? ≠ some minus) := by
  unfold facetReadable at readable
  have same := encode_separated (.inr rfl) facet
  by_cases isSeparated : hasSeparator facet
  · rw [if_pos isSeparated] at readable
    refine ⟨(encode_open facet).mpr fun _ => readable, ?_⟩
    intro bare
    rw [same.mpr isSeparated] at bare
    cases bare
  · rw [if_neg isSeparated] at readable
    refine ⟨(encode_open facet).mpr fun found => absurd found isSeparated, ?_⟩
    intro _ dash
    exact readable (encode_minus.mp dash)

theorem mode_spell (mode : ProxyMode) : ∃ letter, modeString mode = [space, minus, letter] ∧
    isSeparator letter = false ∧ ∀ (s : Str) (options : Options),
      options.apply s [minus, letter] letter [] = .ok { options with mode := mode } := by
  cases mode with
  | twoway => exact ⟨byte 't', rfl, rfl, fun _ _ => rfl⟩
  | oneway => exact ⟨byte 'o', rfl, rfl, fun _ _ => rfl⟩
  | batchOneway => exact ⟨byte 'O', rfl, rfl, fun _ _ => rfl⟩
  | datagram => exact ⟨byte 'd', rfl, rfl, fun _ _ => rfl⟩
  | batchDatagram => exact ⟨byte 'D', rfl, rfl, fun _ _ => rfl⟩

theorem apply_facet (some' : facet ≠ []) (s option : Str) (options : Options) :
    options.apply s option (byte 'f') (encodeAll [] facet) =
      .ok { options with facet := facet } := by
  have nonempty := encode_ne_nil nothing_plain some'
  have decoded := unescape_escape nothing_plain facet
  simp only [Options.apply, if_true, if_neg nonempty, decoded]

theorem apply_encoding (version : Version) (s option : Str) (options : Options) :
    (version.major ≠ 0 → options.apply s option (byte 'e') (versionToString version) =
      .ok { options with encoding := version }) ∧
    (version.major = 0 → ∀ result,
      options.apply s option (byte 'e') (versionToString version) ≠ .ok result) := by
  have nonempty := (version_head version).1
  unfold Options.apply
  rw [if_neg (by decide), if_neg (by decide), if_neg (by decide), if_neg (by decide),
    if_neg (by decide), if_neg (by decide), if_neg (by decide), if_pos rfl, if_neg nonempty,
    string_to_version]
  constructor
  · intro positive
    rw [if_neg positive]
  · intro zero result
    rw [if_pos zero]
    intro applied
    cases applied

theorem apply_protocol (version : Version) (s option : Str) (options : Options) :
    (version.major ≠ 0 → options.apply s option (byte 'p') (versionToString version) =
      .ok { options with protocol := version }) ∧
    (version.major = 0 → ∀ result,
      options.apply s option (byte 'p') (versionToString version) ≠ .ok result) := by
  have nonempty := (version_head version).1
  unfold Options.apply
  rw [if_neg (by decide), if_neg (by decide), if_neg (by decide), if_neg (by decide),
    if_neg (by decide), if_neg (by decide), if_neg (by decide), if_neg (by decide), if_pos rfl,
    if_neg nonempty, string_to_version]
  constructor
  · intro positive
    rw [if_neg positive]
  · intro zero result
    rw [if_pos zero]
    intro applied
    cases applied

theorem read_version_item (letter : Char) (plain : isSeparator (byte letter) = false)
    (version : Version) (s : Str) (rounds : Nat) (options : Options) (follows : Follows rest) :
    readOptions s (rounds + 1) options
        (space :: minus :: byte letter :: space :: (versionToString version ++ rest)) =
      (do
        let options ← options.apply s [minus, byte letter] (byte letter) (versionToString version)
        readOptions s rounds options rest) := by
  obtain ⟨spelled, bare⟩ := plain_spelled (version_plain version)
  have whole : enclose (versionToString version) = versionToString version := by
    rw [spelled.enclose_eq, bare, if_neg Bool.false_ne_true]
  have argument := read_argument_enclose spelled (version_head version).1
    (fun found => absurd (bare.symm.trans found) Bool.false_ne_true)
    (fun _ => (version_head version).2) follows.stops s [minus, byte letter]
  rw [whole] at argument
  rw [read_options_letter s rounds options plain (stops_cons rfl _), argument]
  rfl

theorem read_item {item : Item} (readable : item.Readable) (s : Str) (rounds : Nat)
    (options : Options) (follows : Follows rest) :
    readOptions s (rounds + 1) options (item.spell ++ rest) =
      readOptions s rounds (item.put options) rest := by
  cases item with
  | facet facet =>
      obtain ⟨some', facetReadable⟩ := readable
      obtain ⟨ends, dash⟩ := readable_facet facetReadable
      have argument := read_argument_enclose (encode_spelled (.inr rfl) facet)
        (encode_ne_nil nothing_plain some') ends dash follows.stops s [minus, byte 'f']
      have spelled : (Item.facet facet).spell ++ rest = space :: minus :: byte 'f' :: space ::
          (enclose (encodeAll [] facet) ++ rest) := rfl
      rw [spelled, read_options_letter s rounds options rfl (stops_cons rfl _), argument]
      simp only [bind, Except.bind, apply_facet some', Item.put]
  | mode mode =>
      obtain ⟨letter, spelled, plain, applied⟩ := mode_spell mode
      have shape : (Item.mode mode).spell ++ rest = space :: minus :: letter :: rest := by
        rw [Item.spell, spelled]
        rfl
      rw [shape, read_options_letter s rounds options plain follows.stops, follows.no_argument]
      simp only [bind, Except.bind, applied, Item.put]
  | secure =>
      have shape : Item.secure.spell ++ rest = space :: minus :: byte 's' :: rest := rfl
      rw [shape, read_options_letter s rounds options rfl follows.stops, follows.no_argument]
      rfl
  | protocol version =>
      have shape : (Item.protocol version).spell ++ rest =
          space :: minus :: byte 'p' :: space :: (versionToString version ++ rest) := rfl
      rw [shape, read_version_item 'p' rfl version s rounds options follows,
        (apply_protocol version s _ options).1 readable]
      rfl
  | encoding version =>
      have shape : (Item.encoding version).spell ++ rest =
          space :: minus :: byte 'e' :: space :: (versionToString version ++ rest) := rfl
      rw [shape, read_version_item 'e' rfl version s rounds options follows,
        (apply_encoding version s _ options).1 readable]
      rfl

theorem version_unreadable {item : Item} {version : Version}
    (is : item = .protocol version ∨ item = .encoding version) (zero : version.major = 0) (s : Str)
    (rounds : Nat) (options : Options) (follows : Follows rest) (result : Options × Str) :
    readOptions s (rounds + 1) options (item.spell ++ rest) ≠ .ok result := by
  intro read
  obtain rfl | rfl := is
  · have shape : (Item.protocol version).spell ++ rest =
        space :: minus :: byte 'p' :: space :: (versionToString version ++ rest) := rfl
    rw [shape, read_version_item 'p' rfl version s rounds options follows] at read
    obtain ⟨applied, here, _⟩ := bind_ok read
    exact (apply_protocol version s _ options).2 zero applied here
  · have shape : (Item.encoding version).spell ++ rest =
        space :: minus :: byte 'e' :: space :: (versionToString version ++ rest) := rfl
    rw [shape, read_version_item 'e' rfl version s rounds options follows] at read
    obtain ⟨applied, here, _⟩ := bind_ok read
    exact (apply_encoding version s _ options).2 zero applied here

theorem dash_unreadable (bare : ¬hasSeparator facet) (dash : facet.head? = some minus) (s : Str)
    (rounds : Nat) (options : Options) (rest : Str) (result : Options × Str) :
    readOptions s (rounds + 1) options ((Item.facet facet).spell ++ rest) ≠ .ok result := by
  intro read
  have spelled := encode_spelled (.inr rfl) facet
  have plain : ¬separated (encodeAll [] facet) = true := fun found =>
    bare ((encode_separated (.inr rfl) facet).mp found)
  have whole : enclose (encodeAll [] facet) = encodeAll [] facet := by
    rw [spelled.enclose_eq, if_neg plain]
  have starts := encode_minus.mpr dash
  obtain ⟨more, shape⟩ : ∃ more, encodeAll [] facet = minus :: more := by
    cases encoded : encodeAll [] facet with
    | nil => simp [encoded] at starts
    | cons first more =>
        rw [encoded] at starts
        exact ⟨more, by rw [Option.some.inj starts]⟩
  have text : (Item.facet facet).spell ++ rest =
      space :: minus :: byte 'f' :: space :: minus :: (more ++ rest) := by
    rw [Item.spell, whole, shape]
    rfl
  have follows : Follows (space :: minus :: (more ++ rest)) := .option (more ++ rest)
  rw [text, read_options_letter s rounds options rfl (stops_cons rfl _),
    follows.no_argument] at read
  obtain ⟨_, argument, later⟩ := bind_ok read
  cases argument
  obtain ⟨_, applied, _⟩ := bind_ok later
  cases applied

/-- A facet whose closing quote is hidden is read together with what comes before the next
double quote, or not at all. -/
theorem open_facet (isSeparated : hasSeparator facet) (ends : facet.getLast? = some backslash)
    {s : Str} {rounds : Nat} {options : Options} {result : Options × Str}
    (read : readOptions s (rounds + 1) options ((Item.facet facet).spell ++ rest) =
      .ok result) :
    ∃ content after other, closeQuote doubleQuote doubleQuote rest = some (content, after) ∧
      other ≠ facet ∧ readOptions s rounds { options with facet := other } after =
        .ok result := by
  have spelled := encode_spelled (.inr rfl) facet
  have whole : enclose (encodeAll [] facet) =
      doubleQuote :: (encodeAll [] facet ++ [doubleQuote]) := by
    rw [spelled.enclose_eq, if_pos ((encode_separated (.inr rfl) facet).mpr isSeparated)]
  have shape : (Item.facet facet).spell ++ rest = space :: minus :: byte 'f' :: space ::
      doubleQuote :: (encodeAll [] facet ++ doubleQuote :: rest) := by
    rw [Item.spell, whole, List.append_assoc, List.cons_append, List.append_assoc]
    rfl
  have last := (encode_all_last nothing_plain facet).mpr ends
  have found : (space :: doubleQuote :: (encodeAll [] facet ++ doubleQuote :: rest)).dropWhile
      isBlank = doubleQuote :: (encodeAll [] facet ++ doubleQuote :: rest) := by
    rw [List.dropWhile_cons_of_pos rfl, List.dropWhile_cons_of_neg (by decide)]
  have argument : ¬(doubleQuote = atSign ∨ doubleQuote = colon ∨ doubleQuote = minus) := by
    decide
  rw [shape, read_options_letter s rounds options rfl (stops_cons rfl _), readArgument,
    found] at read
  simp only [if_neg argument, takeToken, check_quote_open spelled last] at read
  cases closed : closeQuote doubleQuote doubleQuote rest with
  | none =>
      rw [closed] at read
      cases read
  | some found =>
      obtain ⟨content, after⟩ := found
      rw [closed] at read
      obtain ⟨_, argument, later⟩ := bind_ok read
      cases argument
      obtain ⟨applied, here, later⟩ := bind_ok later
      have nonempty : encodeAll [] facet ++ doubleQuote :: content ≠ [] := by simp
      simp only [Options.apply, if_true, if_neg nonempty] at here
      split at here
      · cases here
      · next other decoded =>
          cases here
          obtain ⟨more, longer, grows⟩ := unescape_more nothing_plain [] facet
            (doubleQuote :: content) (by simp) decoded
          refine ⟨content, after, other, rfl, ?_, later⟩
          intro same
          rw [same] at longer
          exact longer_absurd longer (grows (by simp) (List.cons_ne_nil _ _))

theorem item_head (item : Item) : ∃ rest, item.spell = space :: minus :: rest := by
  cases item with
  | facet facet => exact ⟨_, rfl⟩
  | mode mode =>
      obtain ⟨letter, spelled, _⟩ := mode_spell mode
      exact ⟨[letter], spelled⟩
  | secure => exact ⟨_, rfl⟩
  | protocol version => exact ⟨_, rfl⟩
  | encoding version => exact ⟨_, rfl⟩

theorem follows_items (items : List Item) {tail : Str} (follows : Follows tail) :
    Follows (items.flatMap Item.spell ++ tail) := by
  cases items with
  | nil => exact follows
  | cons item items =>
      obtain ⟨rest, starts⟩ := item_head item
      rw [List.flatMap_cons, starts]
      exact .option _

theorem read_items {items : List Item} (readable : ∀ item ∈ items, item.Readable) (s : Str)
    (rounds : Nat) (options : Options) {tail : Str} (follows : Follows tail) :
    readOptions s (items.length + rounds) options (items.flatMap Item.spell ++ tail) =
      readOptions s rounds (items.foldl Item.put options) tail := by
  induction items generalizing options with
  | nil => simp
  | cons item items ih =>
      have count : (item :: items).length + rounds = items.length + rounds + 1 := by
        simp only [List.length_cons]
        omega
      rw [List.flatMap_cons, List.append_assoc, count,
        read_item (readable item List.mem_cons_self) s _ options (follows_items items follows)]
      exact ih (fun other inside => readable other (List.mem_cons_of_mem item inside)) _

end IceTouch.Proxies
