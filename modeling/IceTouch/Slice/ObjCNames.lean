import IceTouch.Slice.Names
import Mathlib.Data.List.Infix

/-!
# Objective-C class names

`slice2objc` names the class of an exception after its module, by the prefix of the module or by
all its identifiers, and after the exception. The run time gets a type id and looks the class up
by a name that it makes of the id: by the prefix of what stands before the last `::`, or else
without any `::`. The names of nested modules run into each other in this way, and so do the ids.
-/

namespace IceTouch.Slice.ObjC

open Bytes WireTypes Escape Scanning Texts

/-- The modules around a definition, the outermost first. -/
abbrev Path := List Identifier

/-- `scoped()`. -/
def scopedName (path : Path) : Str := path.flatMap fun name => text "::" ++ name.name

/-- The identifiers of `splitScopedName`, one after the other. -/
def concatenated (path : Path) : Str := path.flatMap Identifier.name

/-- A module as it is opened, with its `objc:prefix:` metadata. -/
structure ModuleDecl where
  path : Path
  objcPrefix : Option Identifier
deriving DecidableEq

/-- The name that `MetaDataVisitor::validate` adds for the module. -/
def ModuleDecl.name (m : ModuleDecl) : Str :=
  match m.objcPrefix with
  | some name => name.name
  | none => concatenated m.path

/-- `_modules`: the names of the modules by their scoped names. -/
abbrev ModuleMap := List (Str × Str)

/-- `ObjCGenerator::addModule`, which fails when the module has another name already. -/
def addModule (modules : ModuleMap) (m : ModuleDecl) : Option ModuleMap :=
  match modules.lookup (scopedName m.path) with
  | some name => if name = m.name then some modules else none
  | none => some (modules ++ [(scopedName m.path, m.name)])

def addModules (modules : ModuleMap) : List ModuleDecl → Option ModuleMap
  | [] => some modules
  | m :: rest => (addModule modules m).bind fun modules => addModules modules rest

structure ExceptionDecl where
  module : Path
  name : Identifier
deriving DecidableEq

def ExceptionDecl.scoped (e : ExceptionDecl) : Str := scopedName (e.module ++ [e.name])

/-- `ObjCGenerator::moduleName`, of what is in the map. -/
def moduleName (modules : ModuleMap) (path : Path) : Str := (modules.lookup (scopedName path)).getD []

/-- `ObjCGenerator::fixName`. -/
def fixName (modules : ModuleMap) (e : ExceptionDecl) : Str :=
  moduleName modules e.module ++ e.name.name

/-- A program: the translated modules and exceptions, and the other classes that the run time of
Objective-C knows. No two classes have one name. -/
structure Program where
  decls : List ModuleDecl
  modules : ModuleMap
  added : addModules [] decls = some modules
  exceptions : List ExceptionDecl
  placed : ∀ e ∈ exceptions, ∃ m ∈ decls, m.path = e.module
  nested : ∀ e ∈ exceptions, e.module ≠ []
  classes : List Str
  distinct : (exceptions.map (fixName modules) ++ classes).Nodup

/-- What `addPrefixes` adds to the prefix table. Entries with one key have one value. -/
def Program.prefixTable (program : Program) : List (Str × Str) :=
  program.decls.filterMap fun m =>
    m.objcPrefix.map fun _ => (scopedName m.path, moduleName program.modules m.path)

def cStr (s : Str) : Str := s.takeWhile fun char => char ≠ 0

/-- `find("::")`: what stands before and behind the first one. -/
def findScope : Str → Option (Str × Str)
  | [] => none
  | char :: rest =>
      if char = colon ∧ rest.head? = some colon then some ([], rest.tail)
      else (findScope rest).map fun found => (char :: found.1, found.2)

/-- `rfind("::")`: what stands before and behind the last one. -/
def rfindScope : Str → Option (Str × Str)
  | [] => none
  | char :: rest =>
      match rfindScope rest with
      | some found => some (char :: found.1, found.2)
      | none => if char = colon ∧ rest.head? = some colon then some ([], rest.tail) else none

/-- The loop that takes out one `::` after the other; each round shortens the string. -/
def removeScopes : Nat → Str → Str
  | 0, objcType => objcType
  | rounds + 1, objcType =>
      match findScope objcType with
      | none => objcType
      | some (before, behind) => removeScopes rounds (before ++ behind)

def toObjCSliceId (sliceId : Str) (prefixTable : List (Str × Str)) : Str :=
  if (text "::Ice::").isPrefixOf sliceId then
    text "ICE" ++ sliceId.drop 7
  else
    match (rfindScope sliceId).bind fun found =>
        (prefixTable.lookup (cStr found.1)).map fun name => name ++ found.2 with
    | some objcType => objcType
    | none => removeScopes sliceId.length sliceId

inductive ObjcClass where
  | exception (e : ExceptionDecl)
  | other (name : Str)
deriving DecidableEq

def ObjcClass.name (modules : ModuleMap) : ObjcClass → Str
  | .exception e => fixName modules e
  | .other name => name

def Program.allClasses (program : Program) : List ObjcClass :=
  program.exceptions.map .exception ++ program.classes.map .other

/-- `objc_lookUpClass`. -/
def Program.lookUpClass (program : Program) (name : Str) : Option ObjcClass :=
  program.allClasses.find? fun c => c.name program.modules = name

/-- The class of the exception that is thrown. Nothing is thrown when there is none, and the slice
is skipped. -/
def Program.createAndThrow (program : Program) (typeId : Str) : Option ObjcClass :=
  program.lookUpClass (cStr (toObjCSliceId typeId program.prefixTable))

structure Program.OwnClass (program : Program) (typeId : Str) : Prop where
  known : ∀ e ∈ program.exceptions, e.scoped = typeId →
    program.createAndThrow typeId = some (.exception e)
  unknown : (∀ e ∈ program.exceptions, e.scoped ≠ typeId) → program.createAndThrow typeId = none

/-- The characters of an id without `::`. -/
def letters : Str → Str
  | [] => []
  | [char] => [char]
  | char :: next :: rest =>
      if char = colon ∧ next = colon then letters rest else char :: letters (next :: rest)

/-- What an id spells: the rest of it behind `ICE`, or behind the prefix of its module, or all
its letters; to the first NUL. -/
def Program.spelling (program : Program) (typeId : Str) : Str :=
  cStr <|
    if (text "::Ice::").isPrefixOf typeId then
      text "ICE" ++ typeId.drop 7
    else
      match (rfindScope typeId).bind fun found =>
          (program.prefixTable.lookup (cStr found.1)).map fun name => name ++ found.2 with
      | some name => name
      | none => letters typeId

/-- An exception in the module `Ice` itself, whose prefix is `ICE`, or not under `Ice` at all. -/
def Program.ShortCut (program : Program) (e : ExceptionDecl) : Prop :=
  e.module.head?.map Identifier.name = some (text "Ice") →
    e.module.tail = [] ∧ moduleName program.modules e.module = text "ICE"

/-- The type id is that of an exception that the short-cut for `Ice` fits, or it is unknown and
spells the name of no class. -/
structure Program.Distinguished (program : Program) (typeId : Str) : Prop where
  known : ∀ e ∈ program.exceptions, e.scoped = typeId → program.ShortCut e
  unknown : (∀ e ∈ program.exceptions, e.scoped ≠ typeId) →
    ∀ c ∈ program.allClasses, c.name program.modules ≠ program.spelling typeId

theorem letters_cons {char : Byte} {rest : Str} (single : char = colon → rest.head? ≠ some colon) :
    letters (char :: rest) = char :: letters rest := by
  cases rest with
  | nil => rfl
  | cons next rest =>
      rw [letters, if_neg]
      rintro ⟨isColon, nextColon⟩
      exact single isColon (congrArg some nextColon)

theorem letters_scope (rest : Str) : letters (colon :: colon :: rest) = letters rest := by
  rw [letters, if_pos ⟨rfl, rfl⟩]

/-- A string without `::` is its letters, and taking out the first one leaves the letters. -/
theorem find_scope_letters (s : Str) :
    (findScope s = none → letters s = s) ∧
      ∀ found, findScope s = some found →
        letters s = letters (found.1 ++ found.2) ∧ (found.1 ++ found.2).length < s.length ∧
          (found.1 = [] → s.head? = some colon) ∧ (found.1 ≠ [] → found.1.head? = s.head?) := by
  induction s with
  | nil => exact ⟨fun _ => rfl, fun found none => by cases none⟩
  | cons char rest ih =>
      rw [findScope]
      by_cases scope : char = colon ∧ rest.head? = some colon
      · rw [if_pos scope]
        refine ⟨fun none => absurd none (Option.some_ne_none _), ?_⟩
        rintro _ ⟨⟩
        obtain ⟨isColon, next⟩ := scope
        cases rest with
        | nil => cases next
        | cons second rest =>
            have secondColon : second = colon := Option.some.inj next
            subst isColon secondColon
            refine ⟨letters_scope rest, ?_, fun _ => rfl, fun some => absurd rfl some⟩
            simp only [List.tail_cons, List.nil_append, List.length_cons]
            omega
      · rw [if_neg scope]
        have single : char = colon → rest.head? ≠ some colon := fun isColon next =>
          scope ⟨isColon, next⟩
        constructor
        · intro none
          rw [letters_cons single, ih.1 (Option.map_eq_none_iff.mp none)]
        · intro found some
          obtain ⟨inner, there, rfl⟩ := Option.map_eq_some_iff.mp some
          obtain ⟨same, shorter, empty, head⟩ := ih.2 inner there
          have stillSingle : char = colon → (inner.1 ++ inner.2).head? ≠ Option.some colon := by
            intro isColon next
            cases before : inner.1 with
            | nil => exact single isColon (empty before)
            | cons first more =>
                have first' := head (by rw [before]; exact List.cons_ne_nil _ _)
                rw [before] at first' next
                exact single isColon (first'.symm.trans next)
          refine ⟨?_, ?_, fun none => absurd none (List.cons_ne_nil _ _), fun _ => rfl⟩
          · rw [letters_cons single, same, List.cons_append, letters_cons stillSingle]
          · simp only [List.cons_append, List.length_cons]
            omega

theorem remove_scopes_letters (rounds : Nat) (s : Str) (enough : s.length ≤ rounds) :
    removeScopes rounds s = letters s := by
  induction rounds generalizing s with
  | zero =>
      rw [List.length_eq_zero_iff.mp (Nat.le_zero.mp enough)]
      rfl
  | succ rounds ih =>
      rw [removeScopes]
      cases search : findScope s with
      | none => exact ((find_scope_letters s).1 search).symm
      | some found =>
          obtain ⟨same, shorter, _, _⟩ := (find_scope_letters s).2 found search
          rw [same]
          exact ih _ (by omega)

theorem create_and_throw_spelling (program : Program) (typeId : Str) :
    program.createAndThrow typeId = program.lookUpClass (program.spelling typeId) := by
  rw [Program.createAndThrow, Program.spelling, toObjCSliceId,
    remove_scopes_letters typeId.length typeId (Nat.le_refl _)]

variable {m : ModuleDecl}

theorem add_module_lookup {modules after : ModuleMap} (added : addModule modules m = some after) :
    after.lookup (scopedName m.path) = some m.name ∧
      ∀ key name, modules.lookup key = some name → after.lookup key = some name := by
  rw [addModule] at added
  cases found : modules.lookup (scopedName m.path) with
  | some name =>
      rw [found] at added
      by_cases same : name = m.name
      · simp only [same, ↓reduceIte] at added
        cases added
        exact ⟨found.trans (congrArg some same), fun _ _ => id⟩
      · simp only [same, ↓reduceIte] at added
        cases added
  | none =>
      rw [found] at added
      cases added
      constructor
      · simp [List.lookup_append, found]
      · intro key name known
        simp [List.lookup_append, known]

theorem add_modules_lookup {decls : List ModuleDecl} {modules after : ModuleMap}
    (added : addModules modules decls = some after) :
    (∀ m ∈ decls, after.lookup (scopedName m.path) = some m.name) ∧
      ∀ key name, modules.lookup key = some name → after.lookup key = some name := by
  induction decls generalizing modules with
  | nil =>
      cases added
      exact ⟨by simp, fun _ _ => id⟩
  | cons m rest ih =>
      rw [addModules] at added
      obtain ⟨next, here, later⟩ := Option.bind_eq_some_iff.mp added
      obtain ⟨own, kept⟩ := add_module_lookup here
      obtain ⟨others, stay⟩ := ih later
      constructor
      · exact List.forall_mem_cons.mpr ⟨stay _ _ own, others⟩
      · exact fun key name known => stay key name (kept key name known)

variable {program : Program}

theorem module_name (declared : m ∈ program.decls) :
    moduleName program.modules m.path = m.name := by
  rw [moduleName, (add_modules_lookup program.added).1 m declared]
  rfl

theorem concatenated_plain (path : Path) : ∀ char ∈ concatenated path, isAlnum char = true := by
  intro char inside
  obtain ⟨name, _, here⟩ := List.mem_flatMap.mp inside
  exact name.plain char here

theorem decl_name_plain (m : ModuleDecl) : ∀ char ∈ m.name, isAlnum char = true := by
  rw [ModuleDecl.name]
  cases m.objcPrefix with
  | some name => exact name.plain
  | none => exact concatenated_plain m.path

theorem prefix_table_lookup (declared : m ∈ program.decls) :
    (∀ name, program.prefixTable.lookup (scopedName m.path) = some name →
      name = moduleName program.modules m.path) ∧
      (program.prefixTable.lookup (scopedName m.path) = none →
        moduleName program.modules m.path = concatenated m.path) := by
  constructor
  · intro name found
    obtain ⟨_, _, split, _⟩ := List.lookup_eq_some_iff.mp found
    have listed : (scopedName m.path, name) ∈ program.prefixTable := by
      rw [split]
      exact List.mem_append_right _ List.mem_cons_self
    obtain ⟨other, _, entry⟩ := List.mem_filterMap.mp listed
    obtain ⟨_, _, pair⟩ := Option.map_eq_some_iff.mp entry
    obtain ⟨key, value⟩ := Prod.mk.inj pair
    rw [← value, moduleName, key, moduleName]
  · intro none
    rw [module_name declared, ModuleDecl.name]
    cases given : m.objcPrefix with
    | none => rfl
    | some name =>
        have listed : (scopedName m.path, moduleName program.modules m.path) ∈ program.prefixTable := by
          apply List.mem_filterMap.mpr
          exact ⟨m, declared, by rw [given]; rfl⟩
        have differs := List.lookup_eq_none_iff.mp none _ listed
        simp at differs

variable {e : ExceptionDecl}

theorem fix_name_plain (listed : e ∈ program.exceptions) :
    ∀ char ∈ fixName program.modules e, isAlnum char = true := by
  obtain ⟨m, declared, path⟩ := program.placed e listed
  intro char inside
  rcases List.mem_append.mp inside with early | late
  · rw [← path, module_name declared] at early
    exact decl_name_plain m char early
  · exact e.name.plain char late

theorem find_of_nodup {α β : Type} [DecidableEq β] {f : α → β} {items : List α}
    (distinct : (items.map f).Nodup) {item : α} (listed : item ∈ items) :
    items.find? (fun other => f other = f item) = some item := by
  induction items with
  | nil => cases listed
  | cons first rest ih =>
      rw [List.map_cons, List.nodup_cons] at distinct
      rcases List.mem_cons.mp listed with rfl | later
      · exact List.find?_cons_of_pos (by simp)
      · have differ : f first ≠ f item := fun same =>
          distinct.1 (same ▸ List.mem_map_of_mem later)
        rw [List.find?_cons_of_neg (by simpa using differ)]
        exact ih distinct.2 later

theorem look_up_own {c : ObjcClass} (listed : c ∈ program.allClasses) :
    program.lookUpClass (c.name program.modules) = some c := by
  apply find_of_nodup _ listed
  have names : program.allClasses.map (ObjcClass.name program.modules) =
      program.exceptions.map (fixName program.modules) ++ program.classes := by
    simp [Program.allClasses, Function.comp_def, ObjcClass.name]
  rw [names]
  exact program.distinct

theorem look_up_none {name : Str} :
    program.lookUpClass name = none ↔ ∀ c ∈ program.allClasses, c.name program.modules ≠ name := by
  simp [Program.lookUpClass, List.find?_eq_none]

theorem look_up_name {name : Str} {c : ObjcClass} (found : program.lookUpClass name = some c) :
    c.name program.modules = name := by
  have holds := List.find?_some found
  exact of_decide_eq_true holds

theorem plain_not_colon {s : Str} (plain : ∀ char ∈ s, isAlnum char = true) : colon ∉ s := by
  intro inside
  have alnum := plain colon inside
  revert alnum
  decide

theorem c_str_plain {s : Str} (plain : ∀ char ∈ s, (isAlnum char || char = colon) = true) : cStr s = s := by
  apply List.takeWhile_eq_self_iff.mpr
  intro char inside
  rw [decide_eq_true_iff]
  rintro rfl
  have alnum := plain 0 inside
  revert alnum
  decide

theorem scoped_name_plain (path : Path) :
    ∀ char ∈ scopedName path, (isAlnum char || char = colon) = true := by
  intro char inside
  obtain ⟨name, _, here⟩ := List.mem_flatMap.mp inside
  have marks : ∀ char ∈ text "::", (isAlnum char || char = colon) = true := by decide
  rcases List.mem_append.mp here with mark | letter
  · exact marks char mark
  · rw [name.plain char letter, Bool.true_or]

theorem c_str_short_cut {rest : Str} (plain : ∀ char ∈ rest, (isAlnum char || char = colon) = true) :
    cStr (text "ICE" ++ rest) = text "ICE" ++ rest := by
  have marks : ∀ char ∈ text "ICE", (isAlnum char || char = colon) = true := by decide
  exact c_str_plain (List.forall_mem_append.mpr ⟨marks, plain⟩)

theorem rfind_scope_none {s : Str} (colonless : colon ∉ s) : rfindScope s = none := by
  induction s with
  | nil => rfl
  | cons char rest ih =>
      have apart : ¬ (char = colon ∧ rest.head? = some colon) := fun both =>
        colonless (both.1 ▸ List.mem_cons_self)
      rw [rfindScope, ih fun inside => colonless (List.mem_cons_of_mem char inside)]
      exact if_neg apart

theorem rfind_scope_last (before : Str) {name : Str} (colonless : colon ∉ name) :
    rfindScope (before ++ (text "::" ++ name)) = some (before, name) := by
  induction before with
  | nil =>
      have single : ¬ (colon = colon ∧ name.head? = some colon) := fun both =>
        colonless (List.mem_of_head? both.2)
      have inner : rfindScope (colon :: name) = none := by
        rw [rfindScope, rfind_scope_none colonless]
        exact if_neg single
      have shape : [] ++ (text "::" ++ name) = colon :: colon :: name := rfl
      rw [shape, rfindScope, inner]
      rfl
  | cons char before ih => rw [List.cons_append, rfindScope, ih]

theorem letters_word {word : Str} (colonless : colon ∉ word) (rest : Str) :
    letters (word ++ rest) = word ++ letters rest := by
  induction word with
  | nil => rfl
  | cons char word ih =>
      rw [List.cons_append, letters_cons, ih fun inside => colonless (List.mem_cons_of_mem char inside)]
      · rfl
      · rintro rfl
        exact absurd List.mem_cons_self colonless

theorem letters_scoped (path : Path) : letters (scopedName path) = concatenated path := by
  induction path with
  | nil => rfl
  | cons name path ih =>
      have shape : scopedName (name :: path) = colon :: colon :: (name.name ++ scopedName path) := rfl
      rw [shape, letters_scope, letters_word (plain_not_colon name.plain), ih]
      rfl

theorem scoped_split (e : ExceptionDecl) :
    e.scoped = scopedName e.module ++ (text "::" ++ e.name.name) := by
  simp [ExceptionDecl.scoped, scopedName]

def iceModule : Identifier := ⟨text "Ice", ⟨73, [99, 101], by decide, by decide⟩, by decide⟩

theorem ice_prefix (name : Identifier) (path : Path) (some : path ≠ []) :
    (text "::Ice::").isPrefixOf (scopedName (name :: path)) = true ↔ name = iceModule := by
  obtain ⟨next, rest, rfl⟩ := List.exists_cons_of_ne_nil some
  have shape : scopedName (name :: next :: rest) =
      text "::" ++ (name.name ++ (colon :: colon :: (next.name ++ scopedName rest))) := rfl
  rw [List.isPrefixOf_iff_prefix, shape]
  constructor
  · rintro ⟨tail, same⟩
    have cut : iceModule.name ++ (text "::" ++ tail) =
        name.name ++ (colon :: colon :: (next.name ++ scopedName rest)) := by
      rw [← List.append_assoc] at same ⊢
      exact @List.append_cancel_left _ (text "::") _ _ same
    have both := identifier_unambiguous iceModule name _ _ (stops_cons (by decide) _)
      (stops_cons (by decide) _) cut
    exact both.1.symm
  · rintro rfl
    exact ⟨next.name ++ scopedName rest, rfl⟩

theorem spelling_own (listed : e ∈ program.exceptions)
    (elsewhere : (text "::Ice::").isPrefixOf e.scoped = false) :
    program.spelling e.scoped = fixName program.modules e := by
  obtain ⟨m, declared, path⟩ := program.placed e listed
  obtain ⟨prefixed, bare⟩ := prefix_table_lookup declared
  rw [path] at prefixed bare
  have plain : cStr (fixName program.modules e) = fixName program.modules e := by
    apply c_str_plain
    intro char inside
    rw [fix_name_plain listed char inside, Bool.true_or]
  have split : rfindScope e.scoped = some (scopedName e.module, e.name.name) := by
    rw [scoped_split]
    exact rfind_scope_last _ (plain_not_colon e.name.plain)
  rw [Program.spelling, elsewhere, split, Option.bind_some, c_str_plain (scoped_name_plain e.module)]
  cases entry : program.prefixTable.lookup (scopedName e.module) with
  | some name =>
      rw [prefixed name entry]
      exact plain
  | none =>
      have spelled : letters e.scoped = fixName program.modules e := by
        rw [ExceptionDecl.scoped, letters_scoped, fixName, bare entry]
        simp [concatenated]
      simp only [Bool.false_eq_true, ↓reduceIte, Option.map_none]
      rw [spelled, plain]

theorem spelling_ice (direct : e.module = [iceModule]) :
    program.spelling e.scoped = text "ICE" ++ e.name.name := by
  have shape : e.scoped = text "::Ice::" ++ e.name.name := by
    rw [scoped_split, direct]
    rfl
  have starts : (text "::Ice::").isPrefixOf e.scoped = true := by
    rw [shape, List.isPrefixOf_iff_prefix]
    exact List.prefix_append _ _
  rw [Program.spelling, starts, shape]
  apply c_str_short_cut
  intro char letter
  rw [e.name.plain char letter, Bool.true_or]

theorem spelling_nested {e : ExceptionDecl} {next : Identifier} {more : Path}
    (nested : e.module = iceModule :: next :: more) : colon ∈ program.spelling e.scoped := by
  have shape : e.scoped = text "::Ice::" ++ (next.name ++ scopedName (more ++ [e.name])) := by
    rw [ExceptionDecl.scoped, nested]
    rfl
  have starts : (text "::Ice::").isPrefixOf e.scoped = true := by
    rw [shape, List.isPrefixOf_iff_prefix]
    exact List.prefix_append _ _
  have spelled : program.spelling e.scoped =
      text "ICE" ++ (next.name ++ scopedName (more ++ [e.name])) := by
    have plain : ∀ char ∈ next.name ++ scopedName (more ++ [e.name]),
        (isAlnum char || char = colon) = true := by
      intro char inside
      rcases List.mem_append.mp inside with letter | later
      · rw [next.plain char letter, Bool.true_or]
      · exact scoped_name_plain _ char later
    rw [Program.spelling, starts, shape]
    exact c_str_short_cut plain
  rw [spelled]
  apply List.mem_append_right
  apply List.mem_append_right
  obtain ⟨first, rest, split⟩ : ∃ first rest, more ++ [e.name] = first :: rest :=
    List.exists_cons_of_ne_nil (by simp)
  rw [split]
  exact List.mem_cons_self

/-- A known id is that of the class found exactly when the short-cut fits the exception. -/
theorem known_own_iff (listed : e ∈ program.exceptions) :
    program.createAndThrow e.scoped = some (.exception e) ↔ program.ShortCut e := by
  have inside : ObjcClass.exception e ∈ program.allClasses :=
    List.mem_append_left _ (List.mem_map_of_mem listed)
  obtain ⟨outer, inner, path⟩ := List.exists_cons_of_ne_nil (program.nested e listed)
  rw [create_and_throw_spelling, Program.ShortCut]
  by_cases ice : outer = iceModule
  · subst ice
    cases inner with
    | nil =>
        rw [spelling_ice path]
        constructor
        · intro found _
          have name : fixName program.modules e = text "ICE" ++ e.name.name := look_up_name found
          rw [path]
          rw [fixName, path] at name
          exact ⟨rfl, List.append_cancel_right name⟩
        · intro fits
          have name := (fits (by rw [path]; rfl)).2
          have own := look_up_own inside
          rwa [ObjcClass.name, fixName, name] at own
    | cons next more =>
        have colonful := @spelling_nested program e next more path
        constructor
        · intro found
          have name : fixName program.modules e = _ := look_up_name found
          rw [← name] at colonful
          exact absurd colonful (plain_not_colon (fix_name_plain listed))
        · intro fits
          have direct := (fits (by rw [path]; rfl)).1
          rw [path] at direct
          cases direct
  · have elsewhere : (text "::Ice::").isPrefixOf e.scoped = false := by
      apply Bool.eq_false_of_not_eq_true
      rw [ExceptionDecl.scoped, path, List.cons_append, ice_prefix outer _ (by simp)]
      exact ice
    rw [spelling_own listed elsewhere]
    constructor
    · intro _ head
      rw [path] at head
      have name : outer.name = iceModule.name := Option.some.inj head
      exact absurd (Identifier.ext name) ice
    · intro _
      exact look_up_own inside

/-- An exception is decoded by its own class, and an unknown one by none, exactly when the
short-cut for `Ice` fits the exception, or the unknown id spells the name of no class. -/
theorem own_class_iff (program : Program) (typeId : Str) :
    program.OwnClass typeId ↔ program.Distinguished typeId := by
  constructor
  · intro own
    constructor
    · rintro e listed rfl
      exact (known_own_iff listed).mp (own.known e listed rfl)
    · intro unknown
      have nothing := own.unknown unknown
      rw [create_and_throw_spelling, look_up_none] at nothing
      exact nothing
  · intro distinguished
    constructor
    · rintro e listed rfl
      exact (known_own_iff listed).mpr (distinguished.known e listed rfl)
    · intro unknown
      rw [create_and_throw_spelling, look_up_none]
      exact distinguished.unknown unknown

def moduleA : Identifier := ⟨text "A", ⟨65, [], by decide, by decide⟩, by decide⟩
def moduleSub : Identifier := ⟨text "Sub", ⟨83, _, rfl, by decide⟩, by decide⟩
def prefixIce : Identifier := ⟨text "ICE", ⟨73, _, rfl, by decide⟩, by decide⟩

/-- `::A::BC`. -/
def exceptionBC : ExceptionDecl := ⟨[moduleA], ⟨text "BC", ⟨66, _, rfl, by decide⟩, by decide⟩⟩

/-- `::Ice::Sub::E`. -/
def exceptionE : ExceptionDecl := ⟨[iceModule, moduleSub], ⟨text "E", ⟨69, _, rfl, by decide⟩, by decide⟩⟩

def smallProgram : Program where
  decls := [⟨[moduleA], none⟩, ⟨[iceModule], some prefixIce⟩, ⟨[iceModule, moduleSub], none⟩]
  modules := [(text "::A", text "A"), (text "::Ice", text "ICE"), (text "::Ice::Sub", text "IceSub")]
  added := by decide
  exceptions := [exceptionBC, exceptionE]
  placed := by decide
  nested := by decide
  classes := [text "NSObject"]
  distinct := by decide

/-- An unknown id is read as `::A::BC`, another one as an object that is no exception at all, and
the exception in a module of `Ice` is not found. -/
theorem ids_confused :
    smallProgram.createAndThrow (text "::A::BC") = some (.exception exceptionBC) ∧
      ¬ smallProgram.OwnClass (text "::AB::C") ∧ ¬ smallProgram.OwnClass (text "::NS::Object") ∧
      ¬ smallProgram.OwnClass (text "::Ice::Sub::E") := by
  have other : smallProgram.createAndThrow (text "::AB::C") = some (.exception exceptionBC) := by decide
  have foreign : smallProgram.createAndThrow (text "::NS::Object") = some (.other (text "NSObject")) := by
    decide
  have missed : smallProgram.createAndThrow (text "::Ice::Sub::E") = none := by decide
  refine ⟨by decide, ?_, ?_, ?_⟩
  · intro own
    have nothing := own.unknown (by decide)
    rw [other] at nothing
    cases nothing
  · intro own
    have nothing := own.unknown (by decide)
    rw [foreign] at nothing
    cases nothing
  · intro own
    have found := own.known exceptionE (by decide) (by decide)
    rw [missed] at found
    cases found

end IceTouch.Slice.ObjC
