import IceTouch.Properties.Lines
import Mathlib.Data.Prod.Lex
import Mathlib.Data.Set.Finite.Lemmas

/-!
# Properties on the command line

What the options of a property set bring into an empty one. A property whose option brings
something else into the set could be brought there by another option only if that one had more
to lose, so that the whole set is carried exactly when every property is.
-/

namespace IceTouch.Properties

open Bytes ByteOrder WireTypes Escape Proxies
open OrderedMap Results

def lineOf (entry : Str × Str) : Str := entry.1 ++ equals :: entry.2

section Properties

variable (names : PropertyNames)

def stored (entry : Str × Str) : Option (Str × Str) :=
  (lineEntry (lineOf entry)).map fun found => (names.rename (trim found.1), found.2)

variable {key : Str}

theorem trimmed_ends (trimmed : trim key = key) :
    (∀ char, key.head? = some char → isBlank char = false) ∧
      ∀ char, key.getLast? = some char → isBlank char = false := by
  have front : trim key <+: key.dropWhile isBlank := List.rdropWhile_prefix isBlank _
  have whole : key.dropWhile isBlank = key := by
    have long := front.length_le
    rw [trimmed] at long
    exact (List.dropWhile_suffix isBlank).eq_of_length_le long
  constructor
  · intro char first
    have notBlank := List.head?_dropWhile_not isBlank key
    rw [whole, first] at notBlank
    simpa using notBlank
  · intro char last
    rw [trim, whole, List.rdropWhile_eq_self_iff] at trimmed
    cases shape : key with
    | nil =>
        rw [shape] at last
        cases last
    | cons first rest =>
        have some : key ≠ [] := by simp [shape]
        have notBlank := trimmed some
        rw [List.getLast?_eq_some_getLast some] at last
        rw [Option.some.inj last] at notBlank
        simpa using notBlank

theorem trim_length (key : Str) : (trim key).length ≤ key.length :=
  (List.rdropWhile_prefix isBlank _).length_le.trans (List.dropWhile_suffix isBlank).length_le

theorem trim_weight (key : Str) : weight (trim key) ≤ weight key := by
  have inner : (trim key).Sublist key :=
    (List.rdropWhile_prefix isBlank _).sublist.trans (List.dropWhile_suffix isBlank).sublist
  have fewer := inner.count_le backslash
  have shorter := inner.length_le
  unfold weight
  omega

/-- The first of two places with an equals sign is no later than the one without it before. -/
theorem split_equals {name rest value : Str} (noEquals : equals ∉ name)
    (same : key ++ equals :: value = name ++ equals :: rest) :
    (name, rest) = (key, value) ∨ name.length < key.length := by
  obtain ⟨more, kept, behind⟩ | ⟨more, kept, behind⟩ := List.append_eq_append_iff.mp same
  · cases more with
    | nil =>
        rw [List.append_nil] at kept
        cases behind
        exact .inl (by rw [kept])
    | cons first others =>
        cases behind
        exact absurd (by simp [kept]) noEquals
  · cases more with
    | nil =>
        rw [List.append_nil] at kept
        cases behind
        exact .inl (by rw [kept])
    | cons first others =>
        refine .inr ?_
        rw [kept, List.length_append, List.length_cons]
        omega

variable {found entry : Str × Str}

theorem line_entry_parsed {line : Str} (read : lineEntry line = some found) :
    found.1 ≠ [] ∧ ∃ rest, parseKey [] [] line = (found.1, some rest) ∧
      found.2 = parseValue [] [] [] rest := by
  unfold lineEntry at read
  cases parsed : parseKey [] [] line with
  | mk name behind =>
      rw [parsed] at read
      cases behind with
      | none => cases read
      | some rest =>
          dsimp only at read
          by_cases empty : name = []
          · rw [if_pos empty] at read
            cases read
          · rw [if_neg empty] at read
            cases read
            exact ⟨empty, rest, rfl, rfl⟩

theorem line_weight (entry : Str × Str) :
    weight (lineOf entry) = weight entry.1 + weight entry.2 + 1 := by
  rw [lineOf, weight_append, weight_char equals_not_backslash]
  omega

theorem line_entry_cases (read : lineEntry (lineOf entry) = some found) :
    (found = entry ∧ PlainKey entry.1 ∧ PlainValue entry.2) ∨
      weight found.1 + weight found.2 < weight entry.1 + weight entry.2 ∨
      (weight found.1 + weight found.2 = weight entry.1 + weight entry.2 ∧
        found.1.length < entry.1.length) := by
  obtain ⟨_, rest, parsed, value⟩ := line_entry_parsed read
  have whole := line_weight entry
  have most := parse_value_most (pending_nil []) rest
  rw [weight_nil, ← value] at most
  obtain carried | less := parse_key_weight (List.forall_mem_nil _) parsed
  · have same := carried_weight carried
    obtain ⟨key, line, isKey, noHash, noEquals, plain⟩ := carried
    rw [List.append_nil, List.nil_append] at isKey
    rw [← isKey] at noHash noEquals plain line
    rw [whole, weight_nil] at same
    obtain ⟨_, kept⟩ | less := parse_value_weight [] [] [] rest (pending_nil [])
    · rw [List.append_nil, List.nil_append] at kept
      rw [kept] at value
      obtain equal | shorter := split_equals noEquals line
      · have isEntry : found = entry := by rw [← value] at equal; exact equal
        have carried : parseValue [] [] [] entry.2 = entry.2 := by
          rw [← isEntry, value]
          exact kept
        rw [isEntry] at noHash noEquals plain
        exact .inl ⟨isEntry, ⟨noHash, noEquals, plain⟩, (parse_value_iff _).mp carried⟩
      · refine .inr (.inr ⟨?_, shorter⟩)
        rw [value]
        omega
    · rw [← value, weight_nil] at less
      refine .inr (.inl ?_)
      omega
  · rw [weight_nil] at less
    refine .inr (.inl ?_)
    omega

theorem line_entry_plain (trimmed : trim entry.1 = entry.1) (some : entry.1 ≠ [])
    (plain : PlainKey entry.1) :
    lineEntry (lineOf entry) = .some (entry.1, parseValue [] [] [] entry.2) := by
  obtain ⟨starts, ends⟩ := trimmed_ends trimmed
  have parsed := parse_key_plain [] [] entry.2 plain.noHash
    plain.noEquals plain.unescaped (List.forall_mem_nil _) (fun _ => ⟨rfl, starts⟩) ends
  rw [List.nil_append, List.nil_append] at parsed
  unfold lineEntry lineOf
  rw [parsed]
  dsimp only
  rw [if_neg some]

theorem bare_plain (bare : BareKey key) : PlainKey key where
  noHash inside := (bare.characters hash inside).2.1 rfl
  noEquals inside := (bare.characters equals inside).2.2 rfl
  unescaped next inside := by
    have within : backslash ∈ key ++ [equals] := inside.subset List.mem_cons_self
    obtain here | last := List.mem_append.mp within
    · exact absurd rfl (bare.characters backslash here).1
    · exact absurd (List.mem_singleton.mp last) (by decide)

/-- No character of the key is special. -/
def Clean (key : Str) : Prop :=
  ∀ char ∈ key, char ≠ backslash ∧ char ≠ hash ∧ char ≠ equals

instance decidableClean (key : Str) : Decidable (Clean key) :=
  inferInstanceAs (Decidable (∀ char ∈ key, _))

/-- Entries with a clean key come first, then the lighter ones, then those with a shorter key. -/
def rank (entry : Str × Str) : ℕ ×ₗ ℕ ×ₗ ℕ :=
  toLex (if Clean entry.1 then 0 else 1, toLex (weight entry.1 + weight entry.2, entry.1.length))

theorem rank_lt (clean : Clean entry.1 → Clean found.1)
    (less : weight found.1 + weight found.2 < weight entry.1 + weight entry.2 ∨
      (weight found.1 + weight found.2 ≤ weight entry.1 + weight entry.2 ∧
        found.1.length < entry.1.length)) : rank found < rank entry := by
  have second : toLex (weight found.1 + weight found.2, found.1.length) <
      toLex (weight entry.1 + weight entry.2, entry.1.length) := by
    rw [Prod.Lex.toLex_lt_toLex]
    obtain lighter | ⟨most, shorter⟩ := less
    · exact .inl lighter
    · obtain lighter | same := Nat.lt_or_eq_of_le most
      · exact .inl lighter
      · exact .inr ⟨same, shorter⟩
  rw [rank, rank, Prod.Lex.toLex_lt_toLex]
  by_cases entryClean : Clean entry.1
  · exact .inr ⟨by rw [if_pos entryClean, if_pos (clean entryClean)], second⟩
  · by_cases foundClean : Clean found.1
    · refine .inl ?_
      rw [if_neg entryClean, if_pos foundClean]
      exact Nat.zero_lt_one
    · exact .inr ⟨by rw [if_neg entryClean, if_neg foundClean], second⟩

theorem rank_clean (clean : Clean found.1) (other : ¬Clean entry.1) : rank found < rank entry := by
  rw [rank, rank, Prod.Lex.toLex_lt_toLex]
  refine .inl ?_
  rw [if_neg other, if_pos clean]
  exact Nat.zero_lt_one

/-- What an entry is stored as is the entry itself, which then is plain, or of a lower rank. -/
theorem stored_cases (accepted : names.Accepted entry.1) (read : stored names entry = some found) :
    (found = entry ∧ PlainKey entry.1 ∧ PlainValue entry.2) ∨ rank found < rank entry := by
  obtain ⟨line, parsed, rfl⟩ := Option.map_eq_some_iff.mp read
  have kept : names.rename (trim entry.1) = entry.1 := by rw [accepted.trimmed, accepted.named]
  by_cases clean : Clean entry.1
  · -- A clean key is carried whatever becomes of its value.
    have bare : BareKey entry.1 := ⟨accepted.nonempty, accepted.trimmed, clean⟩
    have carried := line_entry_plain accepted.trimmed accepted.nonempty (bare_plain bare)
    rw [parsed] at carried
    have isKey : line.1 = entry.1 := by rw [Option.some.inj carried]
    have cases := line_entry_cases parsed
    rw [isKey, kept]
    obtain ⟨same, plain⟩ | lighter | ⟨_, shorter⟩ := cases
    · exact .inl ⟨by rw [same], plain⟩
    · rw [isKey] at lighter
      exact .inr (rank_lt (fun _ => clean) (.inl lighter))
    · rw [isKey] at shorter
      exact absurd shorter (lt_irrefl _)
  · obtain same | ⟨properties, known, prop, inside, replaced⟩ := rename_cases names (trim line.1)
    · rw [same]
      have lighter := trim_weight line.1
      have shorter := trim_length line.1
      obtain ⟨equal, plain⟩ | less | ⟨equal, less⟩ := line_entry_cases parsed
      · exact .inl ⟨by rw [equal, accepted.trimmed], plain⟩
      · refine .inr (rank_lt (fun isClean => absurd isClean clean) (.inl ?_))
        dsimp only
        omega
      · refine .inr (rank_lt (fun isClean => absurd isClean clean) (.inr ⟨?_, ?_⟩))
        · dsimp only
          omega
        · exact lt_of_le_of_lt shorter less
    · have bare := (names.replacements properties known prop inside _ replaced).1
      exact .inr (rank_clean bare.characters clean)

end Properties

section Options

variable {names : PropertyNames}

def optionOf (entry : Str × Str) : Str := text "--" ++ entry.1 ++ text "=" ++ entry.2

theorem parse_option (properties : PropertiesI names) (entry : Str × Str) (options : List Str) :
    properties.parseCommandLineOptions [] (optionOf entry :: options) =
      (properties.parseLine (lineOf entry)).bind fun parsed =>
        parsed.parseCommandLineOptions [] options := by
  have dashes : (optionPrefix []).isPrefixOf (optionOf entry) = true := by
    rw [List.isPrefixOf_iff_prefix]
    exact ⟨entry.1 ++ text "=" ++ entry.2, by simp [optionPrefix, optionOf]⟩
  have valued : equals ∈ optionOf entry := by
    have inside : equals ∈ text "=" := by decide
    simp [optionOf, inside]
  have line : (optionOf entry).drop 2 = lineOf entry := by
    have two : (text "--").length = 2 := rfl
    have sign : text "=" = [equals] := rfl
    rw [optionOf, List.append_assoc, List.append_assoc, ← two, List.drop_left, sign]
    rfl
  rw [PropertiesI.parseCommandLineOptions, if_pos dashes, if_pos valued, line]
  rfl

variable {properties : PropertiesI names}

theorem parse_line_mem {parsed : PropertiesI names} {entry found : Str × Str}
    (done : properties.parseLine (lineOf entry) = .ok parsed) (inside : found ∈ parsed.properties) :
    found ∈ properties.properties ∨ stored names entry = some found := by
  unfold PropertiesI.parseLine at done
  cases read : lineEntry (lineOf entry) with
  | none =>
      rw [read] at done
      cases done
      exact .inl inside
  | some line =>
      rw [read] at done
      dsimp only at done
      unfold PropertiesI.setProperty at done
      by_cases empty : trim line.1 = []
      · rw [dif_pos empty] at done
        cases done
      · rw [dif_neg empty] at done
        by_cases some : line.2 ≠ []
        · rw [dif_pos some] at done
          cases done
          obtain new | old := mem_assign inside
          · exact .inr (by rw [stored, read, new]; rfl)
          · exact .inl old
        · rw [dif_neg some] at done
          cases done
          exact .inl (List.mem_of_mem_filter inside)

variable {entries : List (Str × Str)}

theorem parse_options_mem {result : PropertiesI names} {left : List Str}
    (done : properties.parseCommandLineOptions [] (entries.map optionOf) = .ok (result, left))
    {found : Str × Str} (inside : found ∈ result.properties) :
    found ∈ properties.properties ∨ ∃ entry ∈ entries, stored names entry = some found := by
  induction entries generalizing properties with
  | nil =>
      cases done
      exact .inl inside
  | cons entry rest ih =>
      rw [List.map_cons, parse_option] at done
      obtain ⟨parsed, first, later⟩ := bind_ok done
      obtain old | ⟨other, among, source⟩ := ih later
      · obtain before | here := parse_line_mem first old
        · exact .inl before
        · exact .inr ⟨entry, List.mem_cons_self, here⟩
      · exact .inr ⟨other, List.mem_cons_of_mem entry among, source⟩

theorem plain_carried {entry : Str × Str} (accepted : names.Accepted entry.1)
    (plain : PlainKey entry.1 ∧ PlainValue entry.2) : lineEntry (lineOf entry) = some entry := by
  rw [line_entry_plain accepted.trimmed accepted.nonempty plain.1,
    (parse_value_iff entry.2).mpr plain.2]

theorem plain_stored {entry : Str × Str} (accepted : names.Accepted entry.1)
    (plain : PlainKey entry.1 ∧ PlainValue entry.2) : stored names entry = some entry := by
  rw [stored, plain_carried accepted plain, Option.map_some, accepted.trimmed, accepted.named]

theorem parse_line_plain {entry : Str × Str} (accepted : names.Accepted entry.1)
    (some : entry.2 ≠ []) (plain : PlainKey entry.1 ∧ PlainValue entry.2)
    (beyond : Beyond entry.1 properties.properties) :
    ∃ parsed, properties.parseLine (lineOf entry) = .ok parsed ∧
      parsed.properties = properties.properties ++ [entry] := by
  have nonempty : ¬trim entry.1 = [] := by
    rw [accepted.trimmed]
    exact accepted.nonempty
  have last := assign_last entry.2 beyond
  rw [PropertiesI.parseLine, plain_carried accepted plain]
  dsimp only
  rw [PropertiesI.setProperty, dif_neg nonempty, dif_pos some]
  refine ⟨_, rfl, ?_⟩
  change assign (names.rename (trim entry.1)) entry.2 properties.properties = _
  rw [accepted.trimmed, accepted.named, last]

theorem parse_options_plain {whole : PropertiesI names}
    (all : whole.properties = properties.properties ++ entries)
    (plain : ∀ entry ∈ entries, PlainKey entry.1 ∧ PlainValue entry.2) :
    properties.parseCommandLineOptions [] (entries.map optionOf) = .ok (whole, []) := by
  induction entries generalizing properties with
  | nil =>
      rw [List.append_nil] at all
      rw [properties_ext all]
      rfl
  | cons entry rest ih =>
      have among : entry ∈ whole.properties := by simp [all]
      have accepted := whole.accepted entry among
      have some := whole.nonempty entry among
      have sorted := whole.sorted
      rw [all] at sorted
      obtain ⟨parsed, first, appended⟩ :=
        parse_line_plain accepted some (plain entry List.mem_cons_self) (sorted_beyond sorted)
      rw [List.map_cons, parse_option, first]
      exact ih (by rw [all, appended, List.append_assoc, List.singleton_append])
        fun other inside => plain other (List.mem_cons_of_mem entry inside)

/-- The options of a property set bring the same set into an empty one exactly when all its
keys and values are plain. -/
theorem command_line_round_trip (properties : PropertiesI names) :
    (PropertiesI.empty : PropertiesI names).parseCommandLineOptions []
        properties.getCommandLineOptions = .ok (properties, []) ↔
      ∀ entry ∈ properties.properties, PlainKey entry.1 ∧ PlainValue entry.2 := by
  constructor
  · intro carried
    by_contra unplain
    let lost : Set (Str × Str) :=
      {entry | entry ∈ properties.properties ∧ ¬(PlainKey entry.1 ∧ PlainValue entry.2)}
    have finite : lost.Finite := (List.finite_toSet properties.properties).subset fun _ => And.left
    have some : lost.Nonempty := by
      simp only [not_forall] at unplain
      obtain ⟨entry, inside, other⟩ := unplain
      exact ⟨entry, inside, other⟩
    -- An entry of the highest rank cannot have come from another one that is lost.
    obtain ⟨entry, ⟨inside, other⟩, highest⟩ := Set.exists_max_image lost rank finite some
    obtain none | ⟨source, among, isStored⟩ := parse_options_mem carried inside
    · cases none
    have accepted := properties.accepted source among
    have sourceLost : source ∈ lost := by
      refine ⟨among, fun plain => other ?_⟩
      rw [plain_stored accepted plain] at isStored
      exact Option.some.inj isStored ▸ plain
    obtain ⟨_, plain⟩ | lower := stored_cases names accepted isStored
    · exact sourceLost.2 plain
    · exact absurd (highest source sourceLost) (not_le.mpr lower)
  · intro plain
    exact parse_options_plain rfl plain

end Options

def icePatch2Names : PropertyNames where
  validProps :=
    [[⟨text "IcePatch2.ChunkSize", true, some (text "IcePatch2Client.ChunkSize")⟩,
        ⟨text "IcePatch2.Remove", true, some (text "IcePatch2Client.Remove")⟩,
        ⟨text "IcePatch2.Thorough", true, some (text "IcePatch2Client.Thorough")⟩],
      [⟨text "IcePatch2Client.ChunkSize", false, none⟩,
        ⟨text "IcePatch2Client.Directory", false, none⟩,
        ⟨text "IcePatch2Client.Proxy", false, none⟩,
        ⟨text "IcePatch2Client.Remove", false, none⟩,
        ⟨text "IcePatch2Client.Thorough", false, none⟩]]
  replacements := by decide

def hashed : PropertiesI icePatch2Names where
  properties := [(text "A", text "x#y")]
  sorted := assign_sorted (text "A") (text "x#y") sorted_nil
  accepted := by
    intro entry inside
    rw [List.mem_singleton.mp inside]
    exact ⟨by decide, by decide, by decide⟩
  nonempty := by decide

theorem hash_cuts_off :
    (PropertiesI.empty : PropertiesI icePatch2Names).parseCommandLineOptions []
        hashed.getCommandLineOptions ≠ .ok (hashed, []) ∧
    ∃ properties : PropertiesI icePatch2Names,
      (PropertiesI.empty : PropertiesI icePatch2Names).parseCommandLineOptions []
        hashed.getCommandLineOptions = .ok (properties, []) ∧
      properties.properties = [(text "A", text "x")] := by
  have cut : ∃ properties : PropertiesI icePatch2Names,
      (PropertiesI.empty : PropertiesI icePatch2Names).parseCommandLineOptions []
        hashed.getCommandLineOptions = .ok (properties, []) ∧
      properties.properties = [(text "A", text "x")] := ⟨_, rfl, by decide⟩
  refine ⟨fun carried => ?_, cut⟩
  obtain ⟨properties, parsed, shorter⟩ := cut
  rw [carried] at parsed
  cases parsed
  exact absurd shorter (by decide)

end IceTouch.Properties
