import IceTouch.Slice.Checksum

/-!
# What a checksum tells

The text of a definition is unambiguous although nothing ends an optional data member: a type
that follows a name begins with a colon or is one of a few words, none of which ends another.
Two definitions have one text exactly when they are one contract and the same operations have an
optional parameter before all required ones, for the separator of the first required parameter
is written then as well.
-/

namespace IceTouch.Slice.Checksum

open Bytes WireTypes Escape Scanning Texts

def Starts (chars : List Byte) (rest : Str) : Prop := ∃ char ∈ chars, ∃ more, rest = char :: more

variable {chars : List Byte} {rest : Str}

theorem starts_append {char : Byte} (listed : char ∈ chars) (mark rest : Str) :
    Starts chars ((char :: mark) ++ rest) := ⟨char, listed, mark ++ rest, rfl⟩

theorem Starts.stops {p : Byte → Bool} (starts : Starts chars rest)
    (others : ∀ char ∈ chars, p char = false) : Stops p rest := by
  obtain ⟨char, listed, more, rfl⟩ := starts
  exact stops_cons (others char listed) more

theorem Starts.apart {others : List Byte} {more : Str} (starts : Starts chars rest)
    (startsToo : Starts others more) (disjoint : ∀ char ∈ chars, char ∉ others) : rest ≠ more := by
  obtain ⟨char, listed, tail, rfl⟩ := starts
  obtain ⟨other, listedToo, rest, rfl⟩ := startsToo
  intro same
  rw [(List.cons.inj same).1] at listed
  exact disjoint other listed listedToo

/-- `[[:alnum:]_:]`. -/
def isScoped (char : Byte) : Bool := isAlnum char || char = colon

def isPlain (char : Byte) : Bool := isScoped char || char = 42

theorem scoped_unambiguous : Unambiguous (Stops isScoped) Scoped.name :=
  unambiguous_word Scoped.plain fun _ _ same => Scoped.ext same

def words : List Str :=
  [text "void", text "byte", text "boolean", text "short", text "int", text "long", text "float",
    text "double", text "string", text "Object", text "Object*"]

theorem words_plain : ∀ word ∈ words, ∀ char ∈ word, isPlain char = true ∧ char ≠ colon := by decide

theorem words_suffix : ∀ word ∈ words, ∀ other ∈ words, word <:+ other → word = other := by decide

theorem type_shape (type : Option TypeRef) :
    typeToString type ∈ words ∨ ∃ rest, typeToString type = colon :: rest := by
  match type with
  | none => exact .inl (by decide)
  | some (.builtin kind) => exact .inl (by cases kind <;> decide)
  | some (.proxy definition) =>
      obtain ⟨rest, shape⟩ := definition.first
      exact .inr ⟨rest ++ text "*", by rw [typeToString, shape, List.cons_append]⟩
  | some (.contained name) => exact .inr name.first

theorem type_plain (type : Option TypeRef) : ∀ char ∈ typeToString type, isPlain char = true := by
  have scopedPlain : ∀ name : Scoped, ∀ char ∈ name.name, isPlain char = true := by
    intro name char inside
    rw [isPlain, isScoped, name.plain char inside, Bool.true_or]
  match type with
  | none => decide
  | some (.builtin kind) => cases kind <;> decide
  | some (.proxy definition) =>
      intro char inside
      rcases List.mem_append.mp inside with name | star
      · exact scopedPlain definition char name
      · rw [List.mem_singleton.mp star]
        decide
  | some (.contained name) => exact scopedPlain name

theorem type_begins (type : Option TypeRef) :
    ∃ char rest, typeToString type = char :: rest ∧ isScoped char = true := by
  rcases type_shape type with word | ⟨rest, shape⟩
  · have begins : ∀ word ∈ words, word.head?.any isScoped = true := by decide
    have first := begins _ word
    cases shape : typeToString type with
    | nil =>
        rw [shape] at first
        cases first
    | cons char rest =>
        rw [shape] at first
        exact ⟨char, rest, rfl, first⟩
  · exact ⟨colon, rest, shape, by decide⟩

theorem star_not_scoped (name : Scoped) (first : Str) : first ++ text "*" ≠ name.name := by
  intro same
  have inside : (42 : Byte) ∈ name.name := by
    rw [← same]
    apply List.mem_append_right
    decide
  have plain := name.plain 42 inside
  revert plain
  decide

theorem builtin_table_injective : Function.Injective builtinTable := by
  intro kind other same
  cases kind <;> cases other <;> first | rfl | (revert same; decide)

theorem type_injective : Function.Injective typeToString := by
  have word : ∀ (name : Scoped) (more : Str) (kind : Builtin.Kind), builtinTable kind ≠ name.name ++ more := by
    intro name more kind same
    obtain ⟨rest, shape⟩ := name.first
    have head := congrArg List.head? same
    rw [shape] at head
    revert head
    cases kind <;> simp [builtinTable, text, colon]
  have void : ∀ (name : Scoped) (more : Str), text "void" ≠ name.name ++ more := by
    intro name more same
    obtain ⟨rest, shape⟩ := name.first
    have head := congrArg List.head? same
    rw [shape] at head
    revert head
    simp [text, colon]
  have named : ∀ kind, builtinTable kind ≠ text "void" := by
    intro kind
    cases kind <;> decide
  intro type other same
  match type, other with
  | none, none => rfl
  | none, some (.builtin kind) => exact absurd same.symm (named kind)
  | none, some (.proxy definition) => exact absurd same (void definition _)
  | none, some (.contained name) => exact absurd (same.trans (List.append_nil _).symm) (void name [])
  | some (.builtin kind), none => exact absurd same (named kind)
  | some (.builtin kind), some (.builtin other) => rw [builtin_table_injective same]
  | some (.builtin kind), some (.proxy definition) => exact absurd same (word definition _ kind)
  | some (.builtin kind), some (.contained name) =>
      exact absurd (same.trans (List.append_nil _).symm) (word name [] kind)
  | some (.proxy definition), none => exact absurd same.symm (void definition _)
  | some (.proxy definition), some (.builtin kind) => exact absurd same.symm (word definition _ kind)
  | some (.proxy definition), some (.proxy other) => rw [Scoped.ext (List.append_cancel_right same)]
  | some (.proxy definition), some (.contained name) => exact absurd same (star_not_scoped name _)
  | some (.contained name), none =>
      exact absurd (same.symm.trans (List.append_nil _).symm) (void name [])
  | some (.contained name), some (.builtin kind) =>
      exact absurd (same.symm.trans (List.append_nil _).symm) (word name [] kind)
  | some (.contained name), some (.proxy definition) => exact absurd same.symm (star_not_scoped name _)
  | some (.contained name), some (.contained other) => rw [Scoped.ext same]

theorem type_unambiguous : Unambiguous (fun _ => True) fun type => typeToString type ++ text " " := by
  apply Unambiguous.ended (unambiguous_word type_plain type_injective)
  intro rest _
  exact stops_cons (by decide) rest

theorem joined_types {name other : Identifier} {type otherType : Option TypeRef}
    (same : name.name ++ typeToString type = other.name ++ typeToString otherType) :
    name = other ∧ type = otherType := by
  have colonless : ∀ (name : Identifier) (type : Option TypeRef), typeToString type ∈ words →
      colon ∉ name.name ++ typeToString type := by
    intro name type word inside
    rcases List.mem_append.mp inside with early | late
    · have plain := name.plain colon early
      revert plain
      decide
    · exact (words_plain _ word colon late).2 rfl
  have colonful : ∀ (name : Identifier) (type : Option TypeRef) (rest : Str),
      typeToString type = colon :: rest → colon ∈ name.name ++ typeToString type := by
    intro name type rest shape
    rw [shape]
    exact List.mem_append_right _ List.mem_cons_self
  have cut : typeToString type = typeToString otherType → name = other ∧ type = otherType := by
    intro equal
    rw [equal] at same
    exact ⟨Identifier.ext (List.append_cancel_right same), type_injective equal⟩
  rcases type_shape type with word | ⟨rest, shape⟩
  · rcases type_shape otherType with otherWord | ⟨otherRest, otherShape⟩
    · have ends : typeToString type <:+ other.name ++ typeToString otherType := ⟨name.name, same⟩
      rcases List.suffix_or_suffix_of_suffix ends (List.suffix_append _ _) with shorter | longer
      · exact cut (words_suffix _ word _ otherWord shorter)
      · exact cut (words_suffix _ otherWord _ word longer).symm
    · exact absurd (same ▸ colonful other otherType otherRest otherShape) (colonless name type word)
  · rcases type_shape otherType with otherWord | ⟨otherRest, otherShape⟩
    · exact absurd (same ▸ colonful name type rest shape) (colonless other otherType otherWord)
    · apply cut
      rw [shape, otherShape] at same ⊢
      have stops : ∀ rest, Stops isAlnum (colon :: rest) := fun rest => stops_cons (by decide) rest
      exact (identifier_unambiguous name other _ _ (stops rest) (stops otherRest) same).2

/-- What comes after the name of a data member or an operation. Nothing ends an optional data
member; `leads` is the separator that stands before the first required parameter when it is not
the first of all. -/
inductive Ending where
  | line
  | bare
  | call (leads : Bool) (params : List ParamDecl) (throws : List Scoped)

structure Entry where
  type : Option TypeRef
  tag : Option Nat
  name : Identifier
  ending : Ending

def paramText (r : ParamDecl) : Str :=
  outText r.isOutParam ++ (typeToString (some r.type) ++ text " ") ++ tagText r.tag ++ r.name.name

def paramList : List ParamDecl → Str
  | [] => []
  | first :: rest => paramText first ++ rest.flatMap fun next => text ", " ++ paramText next

def Ending.text : Ending → Str
  | .line => endl
  | .bare => []
  | .call leads params throws =>
      Escape.text "(" ++ ((if leads then Escape.text ", " else []) ++ paramList params ++ Escape.text ")") ++
        (throwsText throws ++ endl)

def Entry.text (entry : Entry) : Str :=
  (typeToString entry.type ++ Escape.text " ") ++ tagText entry.tag ++
    (entry.name.name ++ entry.ending.text)

def Goes (rest : Str) : Prop :=
  rest = [] ∨ ∃ type more, rest = typeToString type ++ text " " ++ more

/-- A name stands before an ending or, when the ending is empty, before what comes then. -/
def NameEnds (rest : Str) : Prop := Goes rest ∨ Starts [10, 40] rest

theorem name_unambiguous : Unambiguous NameEnds Identifier.name := by
  -- a type, or nothing, and what is neither in a name nor in a type
  have split : ∀ rest, NameEnds rest → ∃ type : Option (Option TypeRef), ∃ more,
      rest = optionally typeToString type ++ more ∧ Stops isPlain more ∧
        (type = none ↔ ¬ Starts [32] more) := by
    rintro rest ((rfl | ⟨type, more, rfl⟩) | starts)
    · refine ⟨none, [], rfl, stops_nil isPlain, by simp [Starts]⟩
    · refine ⟨some type, text " " ++ more, List.append_assoc _ _ _, stops_cons (by decide) more, ?_⟩
      simp [Starts, text]
    · refine ⟨none, rest, rfl, starts.stops (by decide), ?_⟩
      refine ⟨fun _ blank => starts.apart blank (by decide) rfl, fun _ => rfl⟩
  have plainName : ∀ (name : Identifier) (type : Option (Option TypeRef)),
      ∀ char ∈ name.name ++ optionally typeToString type, isPlain char = true := by
    intro name type char inside
    rcases List.mem_append.mp inside with early | late
    · rw [isPlain, isScoped, name.plain char early]
      rfl
    · cases type with
      | none => cases late
      | some type => exact type_plain type char late
  intro name other rest more ends endsToo same
  obtain ⟨type, tail, rfl, stops, bare⟩ := split rest ends
  obtain ⟨otherType, otherTail, rfl, stopsToo, otherBare⟩ := split more endsToo
  have word : Unambiguous (Stops isPlain)
      (fun text : { text : Str // ∀ char ∈ text, isPlain char = true } => text.val) :=
    unambiguous_word Subtype.property Subtype.val_injective
  rw [← List.append_assoc, ← List.append_assoc] at same
  obtain ⟨joined, rfl⟩ := word ⟨_, plainName name type⟩ ⟨_, plainName other otherType⟩ tail otherTail
    stops stopsToo same
  have equal := congrArg Subtype.val joined
  cases type with
  | none =>
      have none : otherType = none := otherBare.mpr (bare.mp rfl)
      subst none
      exact ⟨Identifier.ext (List.append_cancel_right equal), rfl⟩
  | some type =>
      cases otherType with
      | none => cases bare.mpr (otherBare.mp rfl)
      | some otherType =>
          have both := joined_types equal
          exact ⟨both.1, by rw [both.2]⟩

theorem tag_unambiguous : Unambiguous (fun rest => ∃ char more, rest = char :: more ∧ isAlpha char = true)
    tagText := by
  have digits : Unambiguous (fun rest => ∃ char more, rest = char :: more ∧ isAlpha char = true)
      (optionally fun tag => decimal tag ++ text " ") := by
    apply Unambiguous.optionally
    · apply Unambiguous.ended (unambiguous_word decimal_digits _)
      · intro rest _
        exact stops_cons (by decide) rest
      · intro tag other same
        have read := congrArg readDecimal same
        rw [read_decimal_decimal, read_decimal_decimal] at read
        exact Option.some.inj read
    · rintro tag rest more _ ⟨char, tail, rfl, alpha⟩ same
      cases shape : decimal tag with
      | nil => exact decimal_ne_nil tag shape
      | cons digit digits =>
          rw [shape] at same
          have isDigit := decimal_digits tag digit (shape ▸ List.mem_cons_self)
          rw [(List.cons.inj same).1] at isDigit
          revert alpha isDigit
          simp only [isAlpha, Scanning.isDigit]
          grind
  intro tag other rest more goes goesOn same
  apply digits tag other rest more goes goesOn
  cases tag <;> cases other <;> exact same

/-- A name begins with a letter or an underscore, and what goes on after a tag is a name. -/
theorem identifier_begins (name : Identifier) (rest : Str) :
    ∃ char more, name.name ++ rest = char :: more ∧ isAlpha char = true := by
  obtain ⟨char, more, shape, alpha⟩ := name.first
  exact ⟨char, more ++ rest, by rw [shape, List.cons_append], alpha⟩

theorem out_not_type (type : Option TypeRef) : typeToString type ≠ text "out" := by
  intro same
  rcases type_shape type with word | ⟨rest, shape⟩
  · rw [same] at word
    revert word
    decide
  · rw [same] at shape
    have head := (List.cons.inj shape).1
    revert head
    decide

theorem out_unambiguous : Unambiguous (fun _ => True) fun param : Bool × TypeRef =>
    outText param.1 ++ (typeToString (some param.2) ++ text " ") := by
  have typed : Unambiguous (fun _ => True) fun type : TypeRef => typeToString (some type) ++ text " " :=
    type_unambiguous.comap (Option.some_injective TypeRef)
  have differ : ∀ (type other : TypeRef) (rest more : Str),
      text "out " ++ rest ≠ (typeToString (some other) ++ text " ") ++ more := by
    intro type other rest more same
    have word : Unambiguous (Stops isPlain)
        (fun text : { text : Str // ∀ char ∈ text, isPlain char = true } => text.val) :=
      unambiguous_word Subtype.property Subtype.val_injective
    have split : text "out" ++ (text " " ++ rest) = typeToString (some other) ++ (text " " ++ more) := by
      rw [← List.append_assoc, ← List.append_assoc]
      exact same
    have both := word ⟨text "out", by decide⟩ ⟨_, type_plain (some other)⟩ _ _
      (stops_cons (by decide) rest) (stops_cons (by decide) more) split
    exact out_not_type (some other) (congrArg Subtype.val both.1).symm
  rintro ⟨out, type⟩ ⟨otherOut, other⟩ rest more _ _ same
  cases out with
  | false =>
      cases otherOut with
      | false =>
          have both := typed type other rest more trivial trivial same
          exact ⟨by rw [both.1], both.2⟩
      | true =>
          have cut := same.trans (List.append_assoc (text "out ") _ more)
          exact absurd cut.symm (differ other type _ rest)
  | true =>
      cases otherOut with
      | false =>
          have cut := same.symm.trans (List.append_assoc (text "out ") _ rest)
          exact absurd cut.symm (differ type other _ more)
      | true =>
          have both := typed.marked (text "out ") type other rest more trivial trivial same
          exact ⟨by rw [both.1], both.2⟩

theorem param_unambiguous : Unambiguous (Stops isAlnum) paramText := by
  have parts := (out_unambiguous.pair tag_unambiguous (fun _ _ _ => trivial)).pair identifier_unambiguous
    (fun name rest _ => identifier_begins name rest)
  apply parts.comap (f := fun r : ParamDecl => (((r.isOutParam, r.type), r.tag), r.name))
  intro r other same
  cases r
  cases other
  simp only [Prod.mk.injEq] at same
  simp [same]

theorem param_begins (r : ParamDecl) :
    ∃ char rest, paramText r = char :: rest ∧ isScoped char = true := by
  obtain ⟨char, rest, begins, plain⟩ := type_begins (some r.type)
  rw [paramText, begins]
  cases r.isOutParam with
  | false => exact ⟨char, _, rfl, plain⟩
  | true => exact ⟨111, _, rfl, by decide⟩

/-- A list without its first item. -/
def uncons {α : Type} : List α → Option (α × List α)
  | [] => none
  | first :: rest => some (first, rest)

theorem uncons_injective {α : Type} : Function.Injective (uncons (α := α)) := by
  intro items others same
  match items, others, same with
  | [], [], _ => rfl
  | first :: rest, other :: others, same =>
      have both := Prod.mk.inj (Option.some.inj same)
      rw [both.1, both.2]

theorem separated_unambiguous {α : Type} {p : Byte → Bool} {write : α → Str} {follow : Str → Prop}
    (unambiguous : Unambiguous (Stops p) write) (comma : p 44 = false)
    (ends : ∀ rest, follow rest → Stops p rest) (others : ∀ rest, follow rest → ¬ Starts [44] rest) :
    Unambiguous follow fun items : α × List α =>
      write items.1 ++ items.2.flatMap fun next => text ", " ++ write next := by
  have more : Unambiguous follow (List.flatMap fun next => text ", " ++ write next) := by
    apply Unambiguous.many (unambiguous.marked (text ", "))
    · intro value rest
      rw [List.append_assoc]
      exact stops_cons comma _
    · exact ends
    · rintro value rest more goes rfl
      apply others _ goes
      rw [List.append_assoc]
      exact starts_append (List.mem_singleton_self 44) (text " ") _
  apply unambiguous.pair more
  intro items rest goes
  cases items with
  | nil => exact ends rest goes
  | cons next items =>
      rw [List.flatMap_cons, List.append_assoc, List.append_assoc]
      exact stops_cons comma _

theorem params_unambiguous : Unambiguous (fun _ => True) fun params => paramList params ++ text ")" := by
  have ends : ∀ rest, Starts [41] rest → Stops isAlnum rest := fun rest starts => starts.stops (by decide)
  have items : Unambiguous (Starts [41]) (optionally fun items : ParamDecl × List ParamDecl =>
      paramText items.1 ++ items.2.flatMap fun next => text ", " ++ paramText next) := by
    apply Unambiguous.optionally
    · apply separated_unambiguous param_unambiguous (by decide) ends
      exact fun rest starts comma => starts.apart comma (by decide) rfl
    · rintro ⟨r, params⟩ rest more _ starts same
      obtain ⟨char, tail, begins, plain⟩ := param_begins r
      rw [begins, List.cons_append, List.cons_append] at same
      have stops := starts.stops (p := isScoped) (by decide) char _ same.symm
      rw [plain] at stops
      cases stops
  have list : Unambiguous (Starts [41]) paramList := by
    intro params others rest more starts startsToo same
    apply items.comap uncons_injective params others rest more starts startsToo
    cases params <;> cases others <;> exact same
  apply list.ended
  exact fun rest _ => starts_append (List.mem_singleton_self 41) [] rest

def listed (mark : Str) (names : List Scoped) : Str :=
  if names = [] then [] else mark ++ commaSeparated names

theorem listed_unambiguous (mark : Str) : Unambiguous (Starts [10]) (listed (32 :: mark)) := by
  have names : Unambiguous (Starts [10]) (optionally fun names : Scoped × List Scoped =>
      (32 :: mark) ++ (names.1.name ++ names.2.flatMap fun next => text ", " ++ next.name)) := by
    apply Unambiguous.optionally
    · apply Unambiguous.marked
      apply separated_unambiguous scoped_unambiguous (by decide)
      · exact fun rest starts => starts.stops (by decide)
      · exact fun rest starts comma => starts.apart comma (by decide) rfl
    · rintro names rest more _ starts same
      rw [List.append_assoc] at same
      exact starts.apart (starts_append (List.mem_singleton_self 32) mark _) (by decide) same.symm
  intro items others rest more starts startsToo same
  apply names.comap uncons_injective items others rest more starts startsToo
  cases items <;> cases others <;> exact same

theorem goes_apart {more : Str} (goes : Goes rest) (starts : Starts [10, 40] more) :
    rest ≠ more := by
  rcases goes with rfl | ⟨type, tail, rfl⟩
  · obtain ⟨_, _, _, rfl⟩ := starts
    exact (List.cons_ne_nil _ _).symm
  · obtain ⟨char, rest, begins, plain⟩ := type_begins type
    rw [begins]
    intro same
    have stops := starts.stops (p := isScoped) (by decide) char _ same.symm
    rw [plain] at stops
    cases stops

theorem call_unambiguous : Unambiguous (fun _ => True) fun call : (Bool × List ParamDecl) × List Scoped =>
    text "(" ++ ((if call.1.1 then text ", " else []) ++ paramList call.1.2 ++ text ")") ++
      (throwsText call.2 ++ endl) := by
  -- the separator is followed by a parameter or a parenthesis, and neither is a comma
  have commaless : ∀ params rest, ¬ Starts [44] (paramList params ++ text ")" ++ rest) := by
    intro params rest starts
    cases params with
    | nil => exact starts.apart (starts_append (List.mem_singleton_self 41) [] rest) (by decide) rfl
    | cons r params =>
        obtain ⟨char, tail, begins, plain⟩ := param_begins r
        rw [paramList, begins] at starts
        have stops := starts.stops (p := isScoped) (by decide) char _ rfl
        rw [plain] at stops
        cases stops
  have leads : Unambiguous (fun _ => True) fun params : Bool × List ParamDecl =>
      (if params.1 then text ", " else []) ++ paramList params.2 ++ text ")" := by
    rintro ⟨lead, params⟩ ⟨otherLead, others⟩ rest more _ _ same
    have comma : ∀ params rest, Starts [44] (text ", " ++ paramList params ++ text ")" ++ rest) := by
      intro params rest
      rw [List.append_assoc, List.append_assoc]
      exact starts_append (List.mem_singleton_self 44) (text " ") _
    cases lead with
    | false =>
        cases otherLead with
        | false =>
            have both := params_unambiguous params others rest more trivial trivial same
            exact ⟨by rw [both.1], both.2⟩
        | true =>
            have starts := comma others more
            exact absurd (same ▸ starts) (commaless params rest)
    | true =>
        cases otherLead with
        | false =>
            have starts := comma params rest
            exact absurd (same ▸ starts) (commaless others more)
        | true =>
            have cut : text ", " ++ (paramList params ++ text ")") ++ rest =
                text ", " ++ (paramList others ++ text ")") ++ more := by
              rw [← List.append_assoc (text ", "), ← List.append_assoc (text ", ")]
              exact same
            have both := params_unambiguous.marked (text ", ") params others rest more trivial trivial cut
            exact ⟨by rw [both.1], both.2⟩
  have thrown : Unambiguous (fun _ => True) fun throws => throwsText throws ++ endl := by
    apply (listed_unambiguous (text "throws ")).ended
    exact fun rest _ => starts_append (List.mem_singleton_self 10) [] rest
  exact (leads.marked (text "(")).pair thrown fun _ _ _ => trivial

theorem ending_unambiguous : Unambiguous Goes Ending.text := by
  have line : ∀ rest, Starts [10, 40] (endl ++ rest) := fun rest => starts_append (by decide) [] rest
  have call : ∀ leads params throws rest,
      Starts [40] ((Ending.call leads params throws).text ++ rest) := by
    intro leads params throws rest
    rw [Ending.text, List.append_assoc, List.append_assoc]
    exact starts_append (List.mem_singleton_self 40) [] _
  have opened : ∀ leads params throws rest,
      Starts [10, 40] ((Ending.call leads params throws).text ++ rest) := by
    intro leads params throws rest
    obtain ⟨char, listed, more, shape⟩ := call leads params throws rest
    exact ⟨char, List.mem_cons_of_mem 10 listed, more, shape⟩
  have lineFirst : ∀ rest, Starts [10] (endl ++ rest) := fun rest =>
    starts_append (List.mem_singleton_self 10) [] rest
  intro ending other rest more goes goesOn same
  match ending, other with
  | .line, .line => exact ⟨rfl, List.append_cancel_left same⟩
  | .line, .bare => exact absurd same.symm (goes_apart goesOn (line rest))
  | .line, .call leads params throws =>
      exact absurd same ((lineFirst rest).apart (call leads params throws more) (by decide))
  | .bare, .line => exact absurd same (goes_apart goes (line more))
  | .bare, .bare => exact ⟨rfl, same⟩
  | .bare, .call leads params throws => exact absurd same (goes_apart goes (opened leads params throws more))
  | .call leads params throws, .line =>
      exact absurd same ((call leads params throws rest).apart (lineFirst more) (by decide))
  | .call leads params throws, .bare =>
      exact absurd same.symm (goes_apart goesOn (opened leads params throws rest))
  | .call leads params throws, .call otherLeads others otherThrows =>
      have both := call_unambiguous ((leads, params), throws) ((otherLeads, others), otherThrows) rest more
        trivial trivial same
      have parts := both.1
      simp only [Prod.mk.injEq] at parts
      exact ⟨by rw [parts.1.1, parts.1.2, parts.2], both.2⟩

theorem ending_begins (ending : Ending) (goes : Goes rest) : NameEnds (ending.text ++ rest) := by
  cases ending with
  | line => exact .inr (starts_append (by decide) [] rest)
  | bare => exact .inl goes
  | call leads params throws =>
      apply Or.inr
      rw [Ending.text, List.append_assoc, List.append_assoc]
      exact starts_append (by decide) [] _

theorem entry_unambiguous : Unambiguous Goes Entry.text := by
  have named := name_unambiguous.pair ending_unambiguous fun ending _ goes => ending_begins ending goes
  have parts := (type_unambiguous.pair tag_unambiguous fun _ _ _ => trivial).pair named (by
    intro value rest _
    rw [List.append_assoc]
    exact identifier_begins value.1 _)
  apply parts.comap (f := fun entry : Entry => ((entry.type, entry.tag), (entry.name, entry.ending)))
  intro entry other same
  cases entry
  cases other
  simp only [Prod.mk.injEq] at same
  simp [same]

theorem entries_unambiguous : Unambiguous (fun rest => rest = []) (List.flatMap Entry.text) := by
  have shape : ∀ (entry : Entry) rest, ∃ more,
      entry.text ++ rest = typeToString entry.type ++ text " " ++ more := by
    intro entry rest
    exact ⟨_, by rw [Entry.text, List.append_assoc, List.append_assoc]⟩
  apply entry_unambiguous.many
  · intro entry rest
    obtain ⟨more, written⟩ := shape entry rest
    exact .inr ⟨entry.type, more, written⟩
  · exact fun rest nothing => .inl nothing
  · rintro entry rest more rfl nothing
    obtain ⟨char, tail, begins, _⟩ := type_begins entry.type
    obtain ⟨more, written⟩ := shape entry rest
    rw [written, begins] at nothing
    cases nothing

end IceTouch.Slice.Checksum
