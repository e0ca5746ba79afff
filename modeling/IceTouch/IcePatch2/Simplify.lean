import IceTouch.IcePatch2.Files
import IceTouch.Library.Substrings
import IceTouch.Ssl.RFC2253

/-!
# Simplified paths

`simplify` erases from a path what does not say where it leads. Each of its steps keeps what the
steps before it have reached, and a path that they all leave alone is simplified.
-/

namespace IceTouch.IcePatch2

open Bytes WireTypes Escape Scanning Substrings

def colon : Byte := 58

def isDriveRoot : Path → Bool
  | [drive, second, third] => Ssl.isAlpha drive && second = colon && third = slash
  | _ => false

/-- The root or the root of a drive. -/
def isTop (path : Path) : Bool := path = text "/" || isDriveRoot path

def isTopDot : Path → Bool
  | [first, second] => first = slash && second = dot
  | [drive, second, third, fourth] =>
      Ssl.isAlpha drive && second = colon && third = slash && fourth = dot
  | _ => false

/-- `while(result.substr(0, 4) == "/../") result.erase(0, 3)` -/
def stripParents (path : Path) : Path :=
  if text "/../" <+: path then stripParents (erase path 0 3) else path
termination_by path.length
decreasing_by
  have four : (text "/../").length ≤ path.length := List.IsPrefix.length_le ‹_›
  exact erase_shorter (by decide) (Nat.lt_of_lt_of_le (by decide) four)

def simplifyFront (path : Path) : Path :=
  let result := eraseEvery (text "//") 1 (by decide) path 0
  let result := eraseEvery (text "/./") 2 (by decide) result 0
  let result := stripParents result
  if text "./" <+: result then erase result 0 2 else result

def trimDot (path : Path) : Path :=
  if text "/." <:+ path then erase path (path.length - 2) 2 else path

def trimSlash (path : Path) : Path :=
  if text "/" <:+ path then erase path (path.length - 1) 1 else path

def simplifyBack (path : Path) : Path :=
  if isTopDot path then path.take (path.length - 1)
  else
    let result := trimDot path
    if isTop result then result
    else
      let result := trimSlash result
      if result = text "/.." then text "/" else result

/-- `simplify`, on a system where a backslash is a character like others. -/
def simplify (path : Path) : Path := simplifyBack (simplifyFront path)

def isSlash (char : Byte) : Bool := char = slash

def components (path : Path) : List Str := (words isSlash path).filter (· ≠ text ".")

structure Location where
  absolute : Bool
  names : List Str
deriving DecidableEq

def location (path : Path) : Location :=
  if path.head? = some slash then ⟨true, (components path).dropWhile (· = text "..")⟩
  else ⟨false, components path⟩

variable {path : Path}

theorem location_congr {other : Path} (first : path.head? = other.head?)
    (same : components path = components other) : location path = location other := by
  rw [location, location, first, same]

/-- The components of a path, with the beginning of the first one. -/
def names (current path : Path) : List Str :=
  (wordsFrom isSlash current path).filter (· ≠ text ".")

theorem names_append (current front rest : Path) :
    names current (front ++ slash :: rest) = names current front ++ components rest := by
  rw [names, words_from_append_blank current front (by rfl) rest, List.filter_append]
  rfl

theorem names_slash (current rest : Path) :
    names current (slash :: rest) = names current [] ++ components rest :=
  names_append current [] rest

theorem components_append (front rest : Path) :
    components (front ++ slash :: rest) = components front ++ components rest :=
  names_append [] front rest

theorem components_slash (rest : Path) : components (slash :: rest) = components rest :=
  components_append [] rest

theorem names_collapse {name : Path} (nameless : components name = []) (current path : Path) :
    names current (collapse slash name path) = names current path := by
  apply collapse_induction (motive := fun path after =>
    ∀ current, names current after = names current path) ?_ ?_ ?_ path current
  · intro current
    rfl
  · intro more after ih current
    rw [ih, names_slash, names_slash, components_append, nameless, List.nil_append]
  · intro char rest after other same ih current
    by_cases parts : char = slash
    · have later : components after = components rest := ih []
      rw [parts, names_slash, names_slash, later]
    · have plain : isSlash char = false := by simp [isSlash, parts]
      rw [names, names, wordsFrom, wordsFrom, if_neg (by simp [plain]), if_neg (by simp [plain])]
      exact ih (current ++ [char])

theorem location_collapse {name : Path} (nameless : components name = []) (path : Path) :
    location (collapse slash name path) = location path :=
  location_congr (head_collapse path) (names_collapse nameless [] path)

theorem location_end {front : Path} (started : front ≠ []) {last : Path}
    (nameless : components last = []) : location (front ++ slash :: last) = location front := by
  apply location_congr
  · exact List.head?_append_of_ne_nil front started
  · rw [components_append, nameless, List.append_nil]

theorem location_slash (rest : Path) :
    location (slash :: rest) = ⟨true, (components rest).dropWhile (· = text "..")⟩ := by
  rw [location, if_pos (List.head?_cons), components_slash]

theorem location_parent (rest : Path) :
    location (slash :: (text ".." ++ slash :: rest)) = location (slash :: rest) := by
  have parent : components (text "..") = [text ".."] := rfl
  rw [location_slash, location_slash, components_append, parent]
  rfl

theorem location_dot {rest : Path} (relative : rest.head? ≠ some slash) :
    location (dot :: slash :: rest) = location rest := by
  have here : components (text ".") = [] := rfl
  have same : components (dot :: slash :: rest) = components rest := by
    exact (components_append (text ".") rest).trans (by rw [here, List.nil_append])
  have relative' : (dot :: slash :: rest).head? ≠ some slash := by simp [dot, slash]
  rw [location, location, if_neg relative, if_neg relative', same]

structure Collapsed (path : Path) : Prop where
  single : ¬text "//" <:+: path
  dotless : ¬text "/./" <:+: path

theorem Collapsed.part {part : Path} (collapsed : Collapsed path) (within : part <:+: path) :
    Collapsed part where
  single := fun found => collapsed.single (found.trans within)
  dotless := fun found => collapsed.dotless (found.trans within)

theorem collapsed_collapse (path : Path) :
    Collapsed (collapse slash (text ".") (collapse slash [] path)) where
  single := fun found =>
    not_infix_collapse path List.not_mem_nil (infix_of_collapse _ List.not_mem_nil found)
  dotless :=
    have other : slash ∉ text "." := by decide
    not_infix_collapse (collapse slash [] path) other

structure Stripped (path : Path) : Prop extends Collapsed path where
  undotted : ¬text "./" <+: path
  inside : ¬text "/../" <+: path

theorem Stripped.front {front : Path} (stripped : Stripped path) (before : front <+: path) :
    Stripped front where
  toCollapsed := stripped.toCollapsed.part before.isInfix
  undotted := fun found => stripped.undotted (found.trans before)
  inside := fun found => stripped.inside (found.trans before)

theorem strip_parents_suffix (path : Path) : stripParents path <:+ path := by
  fun_induction stripParents path with
  | case1 path found ih => exact ih.trans (List.drop_suffix 3 path)
  | case2 path missing => exact List.suffix_rfl

theorem strip_parents_missing (path : Path) : ¬text "/../" <+: stripParents path := by
  fun_induction stripParents path with
  | case1 path found ih => exact ih
  | case2 path missing => exact missing

theorem strip_parents_location (path : Path) : location (stripParents path) = location path := by
  fun_induction stripParents path with
  | case1 path found ih =>
      obtain ⟨rest, same⟩ := found
      subst same
      rw [ih]
      exact (location_parent rest).symm
  | case2 path missing => rfl

theorem strip_parents_of_missing (missing : ¬text "/../" <+: path) : stripParents path = path := by
  rw [stripParents, if_neg missing]

theorem Collapsed.undotted {rest : Path} (collapsed : Collapsed (dot :: slash :: rest)) :
    rest.head? ≠ some slash ∧ ¬text "./" <+: rest := by
  constructor
  · intro first
    obtain ⟨more, same⟩ : ∃ more, rest = slash :: more := List.head?_eq_some_iff.mp first
    exact collapsed.single ⟨[dot], more, by rw [same]; rfl⟩
  · intro found
    obtain ⟨more, same⟩ := found
    exact collapsed.dotless ⟨[dot], more, by rw [← same]; rfl⟩

/-- What the three loops leave of a path. -/
def erased (path : Path) : Path :=
  stripParents (collapse slash (text ".") (collapse slash [] path))

theorem simplify_front_eq (path : Path) :
    simplifyFront path =
      if text "./" <+: erased path then (erased path).drop 2 else erased path := rfl

theorem erased_collapsed (path : Path) : Collapsed (erased path) :=
  (collapsed_collapse path).part (strip_parents_suffix _).isInfix

theorem erased_location (path : Path) : location (erased path) = location path := by
  rw [erased, strip_parents_location, location_collapse rfl, location_collapse rfl]

theorem simplify_front_spec (path : Path) :
    Stripped (simplifyFront path) ∧ location (simplifyFront path) = location path := by
  have collapsed := erased_collapsed path
  have missing : ¬text "/../" <+: erased path := strip_parents_missing _
  rw [simplify_front_eq, ← erased_location path]
  generalize erased path = result at collapsed missing
  by_cases dotted : text "./" <+: result
  · obtain ⟨rest, rfl⟩ := dotted
    have started : text "./" <+: text "./" ++ rest := List.prefix_append _ _
    have left : rest.head? ≠ some slash ∧ ¬text "./" <+: rest := Collapsed.undotted collapsed
    have later := collapsed.part (List.suffix_append (text "./") rest).isInfix
    have inside : ¬text "/../" <+: rest := by
      intro found
      obtain ⟨more, rfl⟩ := found
      exact left.1 rfl
    rw [if_pos started]
    exact ⟨⟨later, left.2, inside⟩, (location_dot left.1).symm⟩
  · rw [if_neg dotted]
    exact ⟨⟨collapsed, dotted, missing⟩, rfl⟩

theorem simplify_front_of_stripped (stripped : Stripped path) : simplifyFront path = path := by
  have once : collapse slash [] path = path := collapse_of_not_infix stripped.single
  have twice : collapse slash (text ".") path = path := collapse_of_not_infix stripped.dotless
  have same : erased path = path := by
    rw [erased, once, twice, strip_parents_of_missing stripped.inside]
  rw [simplify_front_eq, same, if_neg stripped.undotted]

theorem is_top_iff (path : Path) :
    isTop path = true ↔
      path = [slash] ∨ ∃ drive, Ssl.isAlpha drive = true ∧ path = [drive, colon, slash] := by
  constructor
  · intro top
    rcases Bool.or_eq_true _ _ ▸ top with root | drive
    · exact .inl (of_decide_eq_true root)
    · unfold isDriveRoot at drive
      split at drive
      · next first second third =>
          simp only [Bool.and_eq_true, decide_eq_true_eq] at drive
          obtain ⟨⟨alpha, rfl⟩, rfl⟩ := drive
          exact .inr ⟨first, alpha, rfl⟩
      · cases drive
  · intro shape
    rcases shape with rfl | ⟨drive, alpha, rfl⟩
    · rfl
    · simp [isTop, isDriveRoot, alpha]

theorem is_top_dot_iff (path : Path) :
    isTopDot path = true ↔ ∃ top, isTop top = true ∧ path = top ++ [dot] := by
  constructor
  · intro topDot
    unfold isTopDot at topDot
    split at topDot
    · next first second =>
        simp only [Bool.and_eq_true, decide_eq_true_eq] at topDot
        obtain ⟨rfl, rfl⟩ := topDot
        exact ⟨[slash], rfl, rfl⟩
    · next drive second third fourth =>
        simp only [Bool.and_eq_true, decide_eq_true_eq] at topDot
        obtain ⟨⟨⟨alpha, rfl⟩, rfl⟩, rfl⟩ := topDot
        exact ⟨[drive, colon, slash], (is_top_iff _).mpr (.inr ⟨drive, alpha, rfl⟩), rfl⟩
    · cases topDot
  · intro shape
    obtain ⟨top, isTop, rfl⟩ := shape
    rcases (is_top_iff top).mp isTop with rfl | ⟨drive, alpha, rfl⟩
    · rfl
    · simp [isTopDot, alpha]

theorem location_top_dot {top : Path} (isTop : isTop top = true) :
    location (top ++ [dot]) = location top := by
  rcases (is_top_iff top).mp isTop with rfl | ⟨drive, alpha, rfl⟩
  · rfl
  · have started : [drive, colon] ≠ [] := List.cons_ne_nil _ _
    have dotted : location ([drive, colon] ++ slash :: [dot]) = location [drive, colon] :=
      location_end started rfl
    have slashed : location ([drive, colon] ++ slash :: []) = location [drive, colon] :=
      location_end started rfl
    exact dotted.trans slashed.symm

theorem trim_dot_end (front : Path) : trimDot (front ++ text "/.") = front := by
  rw [trimDot, if_pos (List.suffix_append _ _)]
  exact erase_last front (text "/.")

theorem trim_slash_end (front : Path) : trimSlash (front ++ text "/") = front := by
  rw [trimSlash, if_pos (List.suffix_append _ _)]
  exact erase_last front (text "/")

/-- What `simplify` reaches. -/
structure Normal (path : Path) : Prop extends Stripped path where
  unslashed : isTop path = false → ¬text "/" <:+ path
  unended : isTop path = false → ¬text "/." <:+ path
  parentless : path ≠ text "/.."

theorem Stripped.normal_top (stripped : Stripped path) (top : isTop path = true) :
    Normal path where
  toStripped := stripped
  unslashed := fun other => absurd top (by rw [other]; exact Bool.false_ne_true)
  unended := fun other => absurd top (by rw [other]; exact Bool.false_ne_true)
  parentless := fun same => absurd top (by rw [same]; decide)

theorem trim_dot_spec (stripped : Stripped path) (other : isTopDot path = false) :
    Stripped (trimDot path) ∧ ¬text "/." <:+ trimDot path ∧
      location (trimDot path) = location path := by
  by_cases dotted : text "/." <:+ path
  · obtain ⟨front, rfl⟩ := dotted
    rw [trim_dot_end]
    refine ⟨stripped.front (List.prefix_append _ _), fun again => ?_, ?_⟩
    · obtain ⟨before, rfl⟩ := again
      exact stripped.dotless ⟨before, [dot], by rw [List.append_assoc, List.append_assoc]; rfl⟩
    · have started : front ≠ [] := by
        rintro rfl
        cases other
      exact (location_end started rfl).symm
  · have same : trimDot path = path := if_neg dotted
    rw [same]
    exact ⟨stripped, dotted, rfl⟩

theorem trim_slash_spec (stripped : Stripped path) (undotted : ¬text "/." <:+ path)
    (other : isTop path = false) :
    Stripped (trimSlash path) ∧ ¬text "/." <:+ trimSlash path ∧ ¬text "/" <:+ trimSlash path ∧
      location (trimSlash path) = location path := by
  by_cases slashed : text "/" <:+ path
  · obtain ⟨front, rfl⟩ := slashed
    rw [trim_slash_end]
    refine ⟨stripped.front (List.prefix_append _ _), fun again => ?_, fun again => ?_, ?_⟩
    · obtain ⟨before, rfl⟩ := again
      exact stripped.dotless ⟨before, [], by rw [List.append_nil, List.append_assoc]; rfl⟩
    · obtain ⟨before, rfl⟩ := again
      exact stripped.single ⟨before, [], by rw [List.append_nil, List.append_assoc]; rfl⟩
    · have started : front ≠ [] := by
        rintro rfl
        cases other
      exact (location_end started rfl).symm
  · have same : trimSlash path = path := if_neg slashed
    rw [same]
    exact ⟨stripped, undotted, slashed, rfl⟩

theorem normal_root : Normal (text "/") where
  single := by decide
  dotless := by decide
  undotted := by decide
  inside := by decide
  unslashed := by decide
  unended := by decide
  parentless := by decide

theorem simplify_back_spec (stripped : Stripped path) :
    Normal (simplifyBack path) ∧ location (simplifyBack path) = location path := by
  by_cases topDot : isTopDot path = true
  · obtain ⟨top, isTop, rfl⟩ := (is_top_dot_iff path).mp topDot
    have shorter : simplifyBack (top ++ [dot]) = top := by
      rw [simplifyBack, if_pos topDot, List.length_append, List.length_singleton,
        Nat.add_sub_cancel, List.take_left]
    rw [shorter]
    exact ⟨(stripped.front (List.prefix_append top [dot])).normal_top isTop,
      (location_top_dot isTop).symm⟩
  · obtain ⟨short, undotted, same⟩ := trim_dot_spec stripped (Bool.eq_false_iff.mpr topDot)
    rw [simplifyBack, if_neg topDot]
    generalize trimDot path = result at short undotted same
    by_cases top : isTop result = true
    · simp only [if_pos top]
      exact ⟨short.normal_top top, same⟩
    · obtain ⟨shorter, undotted', unslashed, same'⟩ :=
        trim_slash_spec short undotted (Bool.eq_false_iff.mpr top)
      simp only [if_neg top]
      generalize trimSlash result = last at shorter undotted' unslashed same'
      by_cases parent : last = text "/.."
      · rw [if_pos parent]
        have root : location (text "/") = location last := by
          rw [parent]
          rfl
        exact ⟨normal_root, root.trans (same'.trans same)⟩
      · rw [if_neg parent]
        exact ⟨⟨shorter, fun _ => unslashed, fun _ => undotted', parent⟩, same'.trans same⟩

theorem simplify_back_of_normal (normal : Normal path) : simplifyBack path = path := by
  have ends : ¬text "/." <:+ path := by
    intro ended
    by_cases top : isTop path = true
    · rcases (is_top_iff path).mp top with rfl | ⟨drive, alpha, rfl⟩
      · exact absurd ended (by decide)
      · have last : text "/." = [colon, slash] := List.suffix_iff_eq_drop.mp ended
        exact absurd last (by decide)
    · exact normal.unended (Bool.eq_false_iff.mpr top) ended
  have topDot : ¬isTopDot path = true := by
    intro topDot
    obtain ⟨top, isTop, same⟩ := (is_top_dot_iff path).mp topDot
    apply ends
    rcases (is_top_iff top).mp isTop with rfl | ⟨drive, alpha, rfl⟩
    · exact ⟨[], same.symm⟩
    · exact ⟨[drive, colon], same.symm⟩
  have whole : trimDot path = path := if_neg ends
  rw [simplifyBack, if_neg topDot, whole]
  by_cases top : isTop path = true
  · exact if_pos top
  · have whole' : trimSlash path = path :=
      if_neg (normal.unslashed (Bool.eq_false_iff.mpr top))
    simp only [if_neg top, whole', if_neg normal.parentless]

theorem simplify_normal (path : Path) : Normal (simplify path) :=
  (simplify_back_spec (simplify_front_spec path).1).1

theorem simplify_of_normal (normal : Normal path) : simplify path = path := by
  rw [simplify, simplify_front_of_stripped normal.toStripped, simplify_back_of_normal normal]

theorem simplify_location (path : Path) : location (simplify path) = location path :=
  (simplify_back_spec (simplify_front_spec path).1).2.trans (simplify_front_spec path).2

/-- A simplified path. -/
structure Simplified (path : Path) : Prop where
  single : ¬text "//" <:+: path
  dotless : ¬text "/./" <:+: path
  undotted : ¬text "./" <+: path
  unslashed : isTop path = false → ¬text "/" <:+ path
  unended : isTop path = false → ¬text "/." <:+ path

/-- To simplify is idempotent, and the simplified path leads where the path leads. -/
theorem simplify_normal_form (path : Path) :
    simplify (simplify path) = simplify path ∧ Simplified (simplify path) ∧
      location (simplify path) = location path := by
  have normal := simplify_normal path
  have simplified : Simplified (simplify path) :=
    { single := normal.single
      dotless := normal.dotless
      undotted := normal.undotted
      unslashed := normal.unslashed
      unended := normal.unended }
  exact ⟨simplify_of_normal normal, simplified, simplify_location path⟩

end IceTouch.IcePatch2
