import IceTouch.Strings.ProxyQuoting
import IceTouch.Library.Results

/-!
# Identities in stringified proxies

The string of an identity is one that `toString` encloses, and a parser that takes more text
for the identity, because it misses the closing quote, reads another one.
-/

namespace IceTouch.Proxies

open Bytes WireTypes Escape Identities Scanning
  Results

theorem spelled_identity (ident : Identity) : Spelled (spelled ident) := by
  have slashes : Chosen [slash] := .inl rfl
  unfold spelled
  by_cases bare : ident.category = []
  · rw [if_pos bare]
    exact encode_spelled slashes ident.name
  · rw [if_neg bare]
    constructor
    · rw [sealed_append]
      refine ⟨sealed_encode slashes doubleQuote ident.category, ?_, ?_⟩
      · intro same
        exact absurd same (by decide)
      · exact sealed_encode slashes slash ident.name
    · intro first starts
      cases shape : encodeAll [slash] ident.category with
      | nil =>
          rw [shape] at starts
          cases starts
          decide
      | cons head tail =>
          rw [shape] at starts
          apply encode_head slashes (s := ident.category)
          rw [shape]
          exact starts
    · intro char inside isSep
      obtain front | back := List.mem_append.mp inside
      · exact (separator_of_encode slashes front isSep).2
      · obtain rfl | back := List.mem_cons.mp back
        · cases isSep
        · exact (separator_of_encode slashes back isSep).2

def hasSeparator (s : Str) : Prop := space ∈ s ∨ colon ∈ s ∨ atSign ∈ s

instance (s : Str) : Decidable (hasSeparator s) :=
  inferInstanceAs (Decidable (_ ∨ _ ∨ _))

theorem spelled_separated (ident : Identity) :
    separated (spelled ident) = true ↔
      hasSeparator ident.name ∨ hasSeparator ident.category := by
  have slashes : Chosen [slash] := .inl rfl
  unfold spelled
  by_cases bare : ident.category = []
  · rw [if_pos bare, encode_separated slashes, bare]
    simp [hasSeparator]
  · have split (first second : Str) : separated (first ++ slash :: second) = true ↔
        separated first = true ∨ separated second = true := by
      rw [separated, List.any_append, List.any_cons, Bool.or_eq_true, Bool.or_eq_true]
      simp [separated, show isSeparator slash = false from rfl]
    rw [if_neg bare, split, encode_separated slashes, encode_separated slashes]
    exact or_comm

variable {ident : Identity}

theorem spelled_ne_nil (named : ident.name ≠ []) : spelled ident ≠ [] := by
  unfold spelled
  split
  · intro none
    have long := encode_all_length slash_plain ident.name
    rw [none] at long
    exact named (List.eq_nil_of_length_eq_zero (Nat.le_zero.mp long))
  · simp

theorem spelled_last (named : ident.name ≠ []) :
    (spelled ident).getLast? = some backslash ↔ ident.name.getLast? = some backslash := by
  unfold spelled
  split
  · exact encode_all_last slash_plain ident.name
  · have some : encodeAll [slash] ident.name ≠ [] := by
      intro none
      have long := encode_all_length slash_plain ident.name
      rw [none] at long
      exact named (List.eq_nil_of_length_eq_zero (Nat.le_zero.mp long))
    have joined : encodeAll [slash] ident.category ++ slash :: encodeAll [slash] ident.name =
        (encodeAll [slash] ident.category ++ [slash]) ++ encodeAll [slash] ident.name := by
      simp
    rw [joined, List.getLast?_append_of_ne_nil _ some]
    exact encode_all_last slash_plain ident.name

theorem decode_string_some {rounds : Nat} {before rest : Str} {first : Byte} {decoded : Str}
    (read : decodeString (rounds + 1) before (first :: rest) = .ok decoded) : decoded ≠ [] := by
  simp only [decodeString, bind, Except.bind] at read
  split at read
  · cases read
  · split at read
    · cases read
    · cases read
      exact List.cons_ne_nil _ _

theorem unescape_more {special : Str} (plain : Plain special) (before s rest : Str) {fin : Nat}
    (inside : before.length + (encodeAll special s).length ≤ fin) {decoded : Str}
    (read : unescapeString (before ++ (encodeAll special s ++ rest)) before.length fin =
      .ok decoded) :
    ∃ more, decoded = s ++ more ∧
      (before.length + (encodeAll special s).length < fin → rest ≠ [] → more ≠ []) := by
  have long := encode_all_length plain s
  have rounds : fin - before.length = s.length + (fin - before.length - s.length) := by omega
  have front : ((before ++ (encodeAll special s ++ rest)).take fin).drop before.length =
      encodeAll special s ++
        rest.take (fin - before.length - (encodeAll special s).length) := by
    rw [List.take_append, List.take_of_length_le (by omega), List.drop_left, List.take_append,
      List.take_of_length_le (by omega)]
  rw [unescapeString, rounds, front, decode_string_append plain] at read
  obtain ⟨more, left, whole⟩ := map_ok read
  refine ⟨more, whole.symm, ?_⟩
  intro longer some
  cases rest with
  | nil => exact absurd rfl some
  | cons first rest =>
      obtain ⟨room, spare⟩ : ∃ room,
          fin - before.length - (encodeAll special s).length = room + 1 :=
        ⟨fin - before.length - (encodeAll special s).length - 1, by omega⟩
      obtain ⟨round, enough⟩ : ∃ round, fin - before.length - s.length = round + 1 :=
        ⟨fin - before.length - s.length - 1, by omega⟩
      rw [spare, enough, List.take_succ_cons] at left
      exact decode_string_some left

variable {previous : Option Byte} {s : Str}

theorem find_separator_kept {pos first : Nat} {last : Option Nat}
    (read : findSeparator previous pos (some first) s = .ok last) : last = some first := by
  induction s generalizing previous pos with
  | nil =>
      cases read
      rfl
  | cons char rest ih =>
      unfold findSeparator at read
      split at read
      · cases read
      · exact ih read

theorem find_separator_range {pos : Nat} {found : Nat}
    (read : findSeparator previous pos none s = .ok (some found)) :
    pos ≤ found ∧ found < pos + s.length := by
  induction s generalizing previous pos with
  | nil => cases read
  | cons char rest ih =>
      unfold findSeparator at read
      split at read
      · cases find_separator_kept read
        simp only [List.length_cons]
        omega
      · have later := ih read
        simp only [List.length_cons]
        omega

theorem string_to_identity_ok (read : stringToIdentity s = .ok ident) :
    (findSeparator none 0 none s = .ok none ∧ unescapeString s 0 s.length = .ok ident.name ∧
      ident.category = []) ∨
    ∃ separator, findSeparator none 0 none s = .ok (some separator) ∧
      unescapeString s 0 separator = .ok ident.category ∧
      (separator + 1 < s.length →
        unescapeString s (separator + 1) s.length = .ok ident.name) := by
  unfold stringToIdentity at read
  obtain ⟨separator, found, rest⟩ := bind_ok read
  cases separator with
  | none =>
      obtain ⟨name, whole, same⟩ := bind_ok rest
      cases same
      exact .inl ⟨found, map_error_ok whole, rfl⟩
  | some separator =>
      obtain ⟨category, front, rest⟩ := bind_ok rest
      refine .inr ⟨separator, found, ?_⟩
      split at rest
      · obtain ⟨name, back, same⟩ := bind_ok rest
        cases same
        exact ⟨map_error_ok front, fun _ => map_error_ok back⟩
      · next short =>
          cases rest
          exact ⟨map_error_ok front, fun long => absurd long short⟩

theorem longer_absurd {more : Str} (longer : s = s ++ more) (some : more ≠ []) : False :=
  some (List.append_right_eq_self.mp longer.symm)

theorem bare_overrun (named : ident.name ≠ []) (bare : ident.category = []) (more : Str) :
    stringToIdentity (encodeAll [slash] ident.name ++ doubleQuote :: more) ≠ .ok ident := by
  intro read
  obtain ⟨_, whole, _⟩ | ⟨separator, found, front, _⟩ := string_to_identity_ok read
  · obtain ⟨rest, longer, some⟩ := unescape_more slash_plain [] ident.name (doubleQuote :: more)
      (by simp) whole
    exact longer_absurd longer (some (by simp) (List.cons_ne_nil _ _))
  · rw [find_separator_guarded (guarded_encode_all none ident.name)] at found
    have range := find_separator_range found
    obtain ⟨rest, longer, _⟩ := unescape_more slash_plain [] ident.name (doubleQuote :: more)
      (by simp; omega) front
    rw [bare] at longer
    exact named (List.append_eq_nil_iff.mp longer.symm).1

theorem identity_overrun (named : ident.name ≠ []) (more : Str) :
    stringToIdentity (spelled ident ++ doubleQuote :: more) ≠ .ok ident := by
  by_cases bare : ident.category = []
  · rw [spelled, if_pos bare]
    exact bare_overrun named bare more
  · intro read
    rw [spelled, if_neg bare, List.append_assoc, List.cons_append] at read
    have passed := find_separator_guarded (guarded_encode_all none ident.category) 0 none
      (slash :: (encodeAll [slash] ident.name ++ doubleQuote :: more))
    obtain ⟨_, _, none⟩ | ⟨separator, found, front, back⟩ := string_to_identity_ok read
    · exact bare none
    · rw [passed] at found
      by_cases hidden : ident.category.getLast? = some backslash
      · -- The slash after the category is skipped, so the category goes on behind it.
        rw [find_separator_skip fun _ => (last_or_escaped ident.category).mpr hidden] at found
        have range := find_separator_range found
        obtain ⟨rest, longer, some⟩ := unescape_more slash_plain [] ident.category
          (slash :: (encodeAll [slash] ident.name ++ doubleQuote :: more)) (by simp; omega) front
        exact longer_absurd longer (some (by simp; omega) (List.cons_ne_nil _ _))
      · -- The name is read behind the slash, with a quote in it.
        have seen : lastOr none (encodeAll [slash] ident.category) ≠ some backslash :=
          fun last => hidden ((last_or_escaped ident.category).mp last)
        rw [findSeparator, if_pos ⟨rfl, seen⟩] at found
        cases find_separator_kept found
        have name := back (by simp)
        have parts : encodeAll [slash] ident.category ++
            slash :: (encodeAll [slash] ident.name ++ doubleQuote :: more) =
            (encodeAll [slash] ident.category ++ [slash]) ++
              (encodeAll [slash] ident.name ++ doubleQuote :: more) := by simp
        have place : 0 + (encodeAll [slash] ident.category).length + 1 =
            (encodeAll [slash] ident.category ++ [slash]).length := by simp
        rw [parts, place] at name
        obtain ⟨rest, longer, some⟩ := unescape_more slash_plain
          (encodeAll [slash] ident.category ++ [slash]) ident.name (doubleQuote :: more)
          (by simp; omega) name
        exact longer_absurd longer (some (by simp; omega) (List.cons_ne_nil _ _))

end IceTouch.Proxies
