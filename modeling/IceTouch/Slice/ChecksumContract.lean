import IceTouch.Slice.ChecksumText
import Mathlib.Data.List.Pairwise

/-!
# One text, one contract

The loops of `ChecksumVisitor` write the entries of a definition: the required data members, the
optional ones sorted by their tags, and the operations with their parameters in the same order.
As no two optional items have one tag, the sorted list is that of the set. All that is written
besides the contract is the separator of an operation in which an optional parameter comes first.
-/

namespace IceTouch.Slice.Checksum

open Bytes WireTypes Escape Scanning Texts

section Items

variable {α : Type} {tag : α → Option Nat}

theorem mem_sorted_optionals {items : List α} {item : α} :
    item ∈ sortedOptionals tag items ↔ item ∈ items ∧ (tag item).isSome = true := by
  rw [sortedOptionals, List.mem_insertionSort, List.mem_filter]

theorem optionals_pairwise {items : List α} (distinct : (items.filterMap tag).Nodup) :
    (items.filter fun item => (tag item).isSome).Pairwise fun one other => tag one ≠ tag other := by
  rw [List.Nodup, List.pairwise_filterMap] at distinct
  rw [List.pairwise_filter]
  apply distinct.imp
  intro one other apart isSome _ same
  obtain ⟨value, found⟩ := Option.isSome_iff_exists.mp isSome
  exact apart value found value (same ▸ found) rfl

theorem sorted_optionals_iff {first second : List α} (distinct : (first.filterMap tag).Nodup)
    (distinctToo : (second.filterMap tag).Nodup) :
    sortedOptionals tag first = sortedOptionals tag second ↔
      ∀ item, (tag item).isSome = true → (item ∈ first ↔ item ∈ second) := by
  constructor
  · intro same item isSome
    have members : item ∈ sortedOptionals tag first ↔ item ∈ sortedOptionals tag second := by rw [same]
    rw [mem_sorted_optionals, mem_sorted_optionals] at members
    constructor
    · exact fun listed => (members.mp ⟨listed, isSome⟩).1
    · exact fun listed => (members.mpr ⟨listed, isSome⟩).1
  · intro same
    have nodup : ∀ {items : List α}, (items.filterMap tag).Nodup →
        (items.filter fun item => (tag item).isSome).Nodup := by
      intro items distinct
      apply (optionals_pairwise distinct).imp
      rintro one other apart rfl
      exact apart rfl
    have perm : (sortedOptionals tag first).Perm (sortedOptionals tag second) := by
      apply (List.perm_insertionSort _ _).trans
      apply List.Perm.trans _ (List.perm_insertionSort _ _).symm
      apply (List.perm_ext_iff_of_nodup (nodup distinct) (nodup distinctToo)).mpr
      intro item
      rw [List.mem_filter, List.mem_filter]
      exact and_congr_left (same item)
    have total : Std.Total fun lhs rhs : α => (tag lhs).getD 0 ≤ (tag rhs).getD 0 :=
      ⟨fun _ _ => Nat.le_total _ _⟩
    have transitive : IsTrans α fun lhs rhs => (tag lhs).getD 0 ≤ (tag rhs).getD 0 :=
      ⟨fun _ _ _ => Nat.le_trans⟩
    have sorted : ∀ items : List α, (sortedOptionals tag items).Pairwise fun lhs rhs =>
        (tag lhs).getD 0 ≤ (tag rhs).getD 0 := fun items => List.pairwise_insertionSort _ _
    apply List.Perm.eq_of_pairwise _ (sorted first) (sorted second) perm
    intro one other isFirst isSecond le ge
    -- one tag stands for one item
    obtain ⟨oneListed, oneSome⟩ := mem_sorted_optionals.mp isFirst
    obtain ⟨otherListed, otherSome⟩ := mem_sorted_optionals.mp isSecond
    obtain ⟨value, found⟩ := Option.isSome_iff_exists.mp oneSome
    obtain ⟨value', found'⟩ := Option.isSome_iff_exists.mp otherSome
    rw [found, found'] at le ge
    have equal : value = value' := Nat.le_antisymm le ge
    by_contra differ
    have here : one ∈ first.filter fun item => (tag item).isSome :=
      List.mem_filter.mpr ⟨oneListed, oneSome⟩
    have there : other ∈ first.filter fun item => (tag item).isSome :=
      List.mem_filter.mpr ⟨(same other otherSome).mpr otherListed, otherSome⟩
    have symmetric : Std.Symm fun one other : α => tag one ≠ tag other := ⟨fun _ _ => Ne.symm⟩
    exact (optionals_pairwise distinct).forall here there differ (by rw [found, found', equal])

/-- The items in the order in which they are written. -/
def written (tag : α → Option Nat) (items : List α) : List α :=
  required tag items ++ sortedOptionals tag items

theorem written_iff {first second : List α} (distinct : (first.filterMap tag).Nodup)
    (distinctToo : (second.filterMap tag).Nodup) :
    written tag first = written tag second ↔ SameItems tag first second := by
  have requiredOf : ∀ items : List α,
      (written tag items).filter (fun item => (tag item).isNone) = required tag items := by
    intro items
    have none : (sortedOptionals tag items).filter (fun item => (tag item).isNone) = [] := by
      apply List.filter_eq_nil_iff.mpr
      intro item listed isNone
      have isSome := (mem_sorted_optionals.mp listed).2
      rw [Option.isNone_iff_eq_none.mp isNone] at isSome
      cases isSome
    rw [written, List.filter_append, none, List.append_nil, required, List.filter_filter]
    simp
  constructor
  · intro same
    have requireds := congrArg (List.filter fun item => (tag item).isNone) same
    rw [requiredOf, requiredOf] at requireds
    refine ⟨requireds, (sorted_optionals_iff distinct distinctToo).mp ?_⟩
    rw [written, written, requireds] at same
    exact List.append_cancel_left same
  · intro same
    rw [written, written, same.required, (sorted_optionals_iff distinct distinctToo).mpr same.optional]

end Items

def memberEntry (q : DataMember) : Entry :=
  ⟨some q.type, q.tag, q.name, if q.tag.isNone then .line else .bare⟩

theorem member_entry_injective : Function.Injective memberEntry := by
  rintro ⟨type, name, tag⟩ ⟨otherType, otherName, otherTag⟩ same
  simp only [memberEntry, Entry.mk.injEq, Option.some.injEq] at same
  rw [same.1, same.2.1, same.2.2.1]

theorem members_text (members : List DataMember) :
    membersText members = ((written DataMember.tag members).map memberEntry).flatMap Entry.text := by
  have requireds : requiredMembers members =
      ((required DataMember.tag members).map memberEntry).flatMap Entry.text := by
    induction members with
    | nil => rfl
    | cons q rest ih =>
        cases tag : q.tag with
        | some value => simp [requiredMembers, required, tag, ih]
        | none => simp [requiredMembers, required, tag, ih, memberEntry, Entry.text, Ending.text, tagText]
  have optionals : ∀ items : List DataMember, (∀ q ∈ items, q.tag.isSome = true) →
      optionalMembers items = (items.map memberEntry).flatMap Entry.text := by
    intro items tagged
    induction items with
    | nil => rfl
    | cons q rest ih =>
        have later := ih fun next listed => tagged next (List.mem_cons_of_mem q listed)
        obtain ⟨value, tag⟩ := Option.isSome_iff_exists.mp (tagged q List.mem_cons_self)
        have first : optionalMembers (q :: rest) = (memberEntry q).text ++ optionalMembers rest := by
          simp [optionalMembers, memberEntry, Entry.text, Ending.text, tag]
        rw [first, later, List.map_cons, List.flatMap_cons]
  rw [membersText, requireds, optionals _ fun q listed => (mem_sorted_optionals.mp listed).2, written,
    List.map_append, List.flatMap_append]

def operationEntry (q : Operation) : Entry :=
  ⟨q.returnType, q.returnTag, q.name,
    .call (optionalLeads q) (written ParamDecl.tag q.parameters) q.throws⟩

theorem required_params_later (params : List ParamDecl) :
    requiredParams false params =
      (required ParamDecl.tag params).flatMap fun next => text ", " ++ paramText next := by
  induction params with
  | nil => rfl
  | cons r rest ih =>
      cases tag : r.tag with
      | some value => simp [requiredParams, required, tag, ih]
      | none => simp [requiredParams, required, tag, ih, paramText, tagText]

theorem optional_params_later (more : Bool) (params : List ParamDecl) :
    optionalParams more false params = params.flatMap fun next => text ", " ++ paramText next := by
  induction params with
  | nil => rfl
  | cons r rest ih => simp [optionalParams, ih, paramText]

theorem required_params_text (params : List ParamDecl) :
    requiredParams true params =
      (if (params.head?.any fun r => r.tag.isSome) && params.any fun r => r.tag.isNone then text ", "
        else []) ++ paramList (required ParamDecl.tag params) := by
  cases params with
  | nil => rfl
  | cons r rest =>
      cases tag : r.tag with
      | none =>
          simp [requiredParams, required, tag, required_params_later, paramList, paramText, tagText]
      | some value =>
          rw [requiredParams, tag, required_params_later]
          have skipped : required ParamDecl.tag (r :: rest) = required ParamDecl.tag rest := by
            simp [required, tag]
          rw [skipped]
          cases shape : required ParamDecl.tag rest with
          | nil =>
              have none : rest.any (fun r => r.tag.isNone) = false := by
                simpa [required] using shape
              simp [tag, none, paramList]
          | cons first others =>
              have inside : first ∈ required ParamDecl.tag rest := shape ▸ List.mem_cons_self
              obtain ⟨listed, isNone⟩ := List.mem_filter.mp inside
              have some : rest.any (fun r => r.tag.isNone) = true :=
                List.any_eq_true.mpr ⟨first, listed, isNone⟩
              simp [tag, some, paramList]

theorem required_or_optional (params : List ParamDecl) :
    (required ParamDecl.tag params).length + (sortedOptionals ParamDecl.tag params).length =
      params.length := by
  rw [sortedOptionals, List.length_insertionSort]
  induction params with
  | nil => rfl
  | cons r rest ih =>
      cases tag : r.tag <;> simp [required, tag] at ih ⊢ <;> omega

theorem params_text (params : List ParamDecl) :
    paramsText params =
      (if (params.head?.any fun r => r.tag.isSome) && params.any fun r => r.tag.isNone then text ", "
        else []) ++ paramList (written ParamDecl.tag params) := by
  have count := required_or_optional params
  have optionals : ∀ required items : List ParamDecl,
      paramList required ++ optionalParams (decide (0 < required.length)) true items =
        paramList (required ++ items) := by
    intro required items
    cases items with
    | nil => simp [optionalParams]
    | cons r items =>
        cases required with
        | nil => simp [optionalParams, optional_params_later, paramList, paramText]
        | cons first rest => simp [optionalParams, optional_params_later, paramList, paramText]
  have more : decide ((sortedOptionals ParamDecl.tag params).length < params.length) =
      decide (0 < (required ParamDecl.tag params).length) := by
    congr 1
    rw [eq_iff_iff]
    omega
  rw [paramsText, required_params_text, more, List.append_assoc, optionals, written]

theorem operation_text (q : Operation) : operationText q = (operationEntry q).text := by
  rw [operationText, params_text]
  simp [operationEntry, Entry.text, Ending.text, optionalLeads]

/-- Two operations are written in one way when they are the same and either both or neither of
them has an optional parameter first. -/
theorem operation_entry_iff (first second : Operation) :
    operationEntry first = operationEntry second ↔
      SameOperation first second ∧ optionalLeads first = optionalLeads second := by
  rw [operationEntry, operationEntry, Entry.mk.injEq, Ending.call.injEq,
    written_iff first.distinct second.distinct]
  constructor
  · rintro ⟨returnType, returnTag, name, leads, parameters, throws⟩
    exact ⟨⟨name, returnType, returnTag, throws, parameters⟩, leads⟩
  · rintro ⟨same, leads⟩
    exact ⟨same.returnType, same.returnTag, same.name, leads, same.parameters, same.throws⟩

theorem operations_iff (first second : List Operation) :
    first.map operationEntry = second.map operationEntry ↔
      List.Forall₂ SameOperation first second ∧ first.map optionalLeads = second.map optionalLeads := by
  induction first generalizing second with
  | nil => cases second <;> simp
  | cons q rest ih =>
      cases second with
      | nil => simp
      | cons other others =>
          rw [List.map_cons, List.map_cons, List.cons.injEq, operation_entry_iff, ih,
            List.forall₂_cons, List.map_cons, List.map_cons, List.cons.injEq]
          exact and_and_and_comm

def entries (members : List DataMember) (operations : List Operation) : List Entry :=
  (written DataMember.tag members).map memberEntry ++ operations.map operationEntry

def Ending.isCall : Ending → Bool
  | .call _ _ _ => true
  | _ => false

theorem entries_iff {members others : List DataMember} {operations otherOperations : List Operation}
    (distinct : (members.filterMap DataMember.tag).Nodup)
    (distinctToo : (others.filterMap DataMember.tag).Nodup) :
    entries members operations = entries others otherOperations ↔
      SameItems DataMember.tag members others ∧
        operations.map operationEntry = otherOperations.map operationEntry := by
  have calls : ∀ members operations,
      (entries members operations).filter (fun entry => entry.ending.isCall) =
        operations.map operationEntry := by
    intro members operations
    have none : ((written DataMember.tag members).map memberEntry).filter
        (fun entry => entry.ending.isCall) = [] := by
      apply List.filter_eq_nil_iff.mpr
      intro entry listed
      obtain ⟨q, _, rfl⟩ := List.mem_map.mp listed
      rw [memberEntry]
      split <;> simp [Ending.isCall]
    rw [entries, List.filter_append, none, List.nil_append]
    apply List.filter_eq_self.mpr
    intro entry listed
    obtain ⟨q, _, rfl⟩ := List.mem_map.mp listed
    rfl
  rw [← written_iff distinct distinctToo]
  constructor
  · intro same
    have operationsSame := congrArg (List.filter fun entry => entry.ending.isCall) same
    rw [calls, calls] at operationsSame
    rw [entries, entries, operationsSame] at same
    exact ⟨member_entry_injective.list_map (List.append_cancel_right same), operationsSame⟩
  · rintro ⟨membersSame, operationsSame⟩
    rw [entries, entries, membersSame, operationsSame]

theorem entries_text (members : List DataMember) (operations : List Operation) :
    membersText members ++ operations.flatMap operationText =
      (entries members operations).flatMap Entry.text := by
  have calls : operations.flatMap operationText = (operations.map operationEntry).flatMap Entry.text := by
    rw [List.flatMap_map]
    congr 1
    funext q
    exact operation_text q
  rw [entries, List.flatMap_append, members_text, calls]

def headText {τ : Type} (write : τ → Str) (head : (Identifier × Option Nat) × τ) : Str :=
  head.1.1.name ++ optionally (fun id => text "(" ++ decimal id ++ text ")") head.1.2 ++
    write head.2 ++ endl

theorem head_unambiguous {τ : Type} {write : τ → Str} (unambiguous : Unambiguous (Starts [10]) write)
    (begins : ∀ value rest, Starts [10] rest → Starts [10, 32] (write value ++ rest)) :
    Unambiguous (fun _ => True) (headText write) := by
  have ids : Unambiguous (Starts [10, 32]) (optionally fun id => text "(" ++ decimal id ++ text ")") := by
    apply Unambiguous.optionally
    · have numbers : Unambiguous (Stops isDigit) decimal := by
        apply unambiguous_word decimal_digits
        intro id other same
        have read := congrArg readDecimal same
        rw [read_decimal_decimal, read_decimal_decimal] at read
        exact Option.some.inj read
      apply (numbers.marked (text "(")).ended
      exact fun rest _ => stops_cons (by decide) rest
    · intro id rest more _ starts same
      rw [List.append_assoc, List.append_assoc] at same
      exact starts.apart (starts_append (List.mem_singleton_self 40) [] _) (by decide) same.symm
  have parts := (identifier_unambiguous.pair ids (by
    intro id rest starts
    cases id with
    | none => exact starts.stops (by decide)
    | some id => exact stops_cons (by decide) _)).pair unambiguous begins
  apply parts.ended endl
  exact fun rest _ => starts_append (List.mem_singleton_self 10) [] rest

variable {rest : Str} {bases : List Base}

theorem listed_begins (mark : Str) (names : List Scoped) (starts : Starts [10] rest) :
    Starts [10, 32] (listed (32 :: mark) names ++ rest) := by
  cases names with
  | nil =>
      obtain ⟨char, inside, more, shape⟩ := starts
      exact ⟨char, List.mem_append_left [32] inside, more, shape⟩
  | cons name names => exact ⟨32, by decide, _, rfl⟩

def extendsText : Option Scoped → Str := optionally fun base => text " extends " ++ base.name

theorem class_bases_unambiguous : Unambiguous (Starts [10]) fun bases : Option Scoped × List Scoped =>
    extendsText bases.1 ++ listed (text " implements ") bases.2 := by
  have follows : Unambiguous (fun rest => Starts [10] rest ∨ ∃ more, rest = text " i" ++ more)
      extendsText := by
    apply Unambiguous.optionally
    · apply Unambiguous.marked
      apply scoped_unambiguous.narrow
      rintro rest (starts | ⟨more, rfl⟩)
      · exact starts.stops (by decide)
      · exact stops_cons (by decide) _
    · rintro base rest more _ (starts | ⟨tail, rfl⟩) same
      · rw [List.append_assoc] at same
        exact starts.apart (starts_append (List.mem_singleton_self 32) (text "extends ") _) (by decide)
          same.symm
      · have second := congrArg (fun written => written[1]?) same
        revert second
        simp [text]
  apply follows.pair (listed_unambiguous (text "implements "))
  intro names rest starts
  cases names with
  | nil => exact .inl starts
  | cons name names => exact .inr ⟨_, rfl⟩

theorem class_bases_begin (bases : Option Scoped × List Scoped) (starts : Starts [10] rest) :
    Starts [10, 32] (extendsText bases.1 ++ listed (text " implements ") bases.2 ++ rest) := by
  cases bases.1 with
  | none => exact listed_begins (text "implements ") bases.2 starts
  | some base => exact ⟨32, by decide, _, rfl⟩

theorem extends_unambiguous : Unambiguous (Starts [10]) extendsText := by
  apply Unambiguous.optionally
  · apply Unambiguous.marked
    apply scoped_unambiguous.narrow
    exact fun rest starts => starts.stops (by decide)
  · intro base rest more _ starts same
    rw [List.append_assoc] at same
    exact starts.apart (starts_append (List.mem_singleton_self 32) (text "extends ") _) (by decide) same.symm

theorem extends_begins (base : Option Scoped) (starts : Starts [10] rest) :
    Starts [10, 32] (extendsText base ++ rest) := by
  cases base with
  | none =>
      obtain ⟨char, inside, more, shape⟩ := starts
      exact ⟨char, List.mem_append_left [32] inside, more, shape⟩
  | some base => exact ⟨32, by decide, _, rfl⟩

theorem definition_unambiguous {τ : Type} {write : τ → Str}
    (unambiguous : Unambiguous (Starts [10]) write)
    (begins : ∀ value rest, Starts [10] rest → Starts [10, 32] (write value ++ rest)) (kind : Str)
    {head other : (Identifier × Option Nat) × τ} {list others : List Entry}
    (same : kind ++ (headText write head ++ list.flatMap Entry.text) =
      kind ++ (headText write other ++ others.flatMap Entry.text)) : head = other ∧ list = others := by
  have both := ((head_unambiguous unambiguous begins).pair entries_unambiguous
    (fun _ _ _ => trivial)).marked kind (head, list) (other, others) [] [] rfl rfl
    (by rw [List.append_nil, List.append_nil]; exact same)
  exact Prod.mk.inj both.1

def compact (compactId : Int) : Option Nat := if 0 ≤ compactId then some compactId.toNat else none

theorem compact_injective {id other : Int} (identified : -1 ≤ id) (identifiedToo : -1 ≤ other)
    (same : compact id = compact other) : id = other := by
  rw [compact, compact] at same
  split at same <;> split at same
  · have equal := Option.some.inj same
    omega
  · cases same
  · cases same
  · omega

theorem compact_text (compactId : Int) :
    compactIdText compactId =
      optionally (fun id => text "(" ++ decimal id ++ text ")") (compact compactId) := by
  rw [compactIdText, compact]
  split
  · have positive : ¬ compactId < 0 := by omega
    have magnitude : compactId.natAbs = compactId.toNat := by omega
    rw [printInt, if_neg positive, magnitude]
    rfl
  · rfl

def classBases : List Base → Option Scoped × List Scoped
  | [] => (none, [])
  | front :: rest =>
      if front.isInterface then (none, (front :: rest).map Base.scopedName)
      else (some front.scopedName, rest.map Base.scopedName)

theorem interfaces_named (interfaces : ∀ base ∈ bases, base.isInterface = true) :
    (bases.map Base.scopedName).map (fun name => Base.mk name true) = bases := by
  induction bases with
  | nil => rfl
  | cons base rest ih =>
      have later := ih fun next listed => interfaces next (List.mem_cons_of_mem base listed)
      have here := interfaces base List.mem_cons_self
      rw [List.map_cons, List.map_cons, later, ← here]

theorem class_bases_injective {others : List Base}
    (implemented : ∀ base ∈ bases.tail, base.isInterface = true)
    (implementedToo : ∀ base ∈ others.tail, base.isInterface = true)
    (same : classBases bases = classBases others) : bases = others := by
  have rebuilt : ∀ {bases : List Base}, (∀ base ∈ bases.tail, base.isInterface = true) →
      (classBases bases).1.toList.map (fun name => Base.mk name false) ++
        (classBases bases).2.map (fun name => Base.mk name true) = bases := by
    intro bases implemented
    cases bases with
    | nil => rfl
    | cons front rest =>
        rw [classBases]
        by_cases interface : front.isInterface = true
        · rw [if_pos interface]
          exact interfaces_named (List.forall_mem_cons.mpr ⟨interface, implemented⟩)
        · rw [if_neg interface]
          have isClass := Bool.eq_false_of_not_eq_true interface
          have named := interfaces_named implemented
          rw [List.tail_cons] at named
          simp [named, ← isClass]
  rw [← rebuilt implemented, same, rebuilt implementedToo]

theorem class_bases_text (bases : List Base) :
    basesText false bases =
      extendsText (classBases bases).1 ++ listed (text " implements ") (classBases bases).2 := by
  cases bases with
  | nil => rfl
  | cons front rest =>
      rw [basesText, classBases]
      by_cases interface : front.isInterface = true
      · simp [interface, extendsText, optionally, listed]
      · cases rest <;> simp [interface, extendsText, optionally, listed]

theorem interface_bases_text (interfaces : ∀ base ∈ bases, base.isInterface = true) :
    basesText true bases = listed (text " extends ") (bases.map Base.scopedName) := by
  cases bases with
  | nil => rfl
  | cons front rest =>
      rw [basesText, if_pos (interfaces front List.mem_cons_self)]
      simp [listed]

theorem visit_class_text (p : ClassDef) (isClass : p.isInterface = false) :
    visitClassDefStart p = text "class " ++
      (headText (fun bases => extendsText bases.1 ++ listed (text " implements ") bases.2)
          ((p.name, compact p.compactId), classBases p.bases) ++
        (entries p.dataMembers p.operations).flatMap Entry.text) := by
  rw [← entries_text, visitClassDefStart, isClass, class_bases_text, compact_text, headText]
  simp only [Bool.false_eq_true, ↓reduceIte, List.append_assoc]

theorem visit_interface_text (p : ClassDef) (interface : p.isInterface = true) :
    visitClassDefStart p = text "interface " ++
      (headText (listed (text " extends ")) ((p.name, compact p.compactId), p.bases.map Base.scopedName) ++
        (entries p.dataMembers p.operations).flatMap Entry.text) := by
  rw [← entries_text, visitClassDefStart, interface, interface_bases_text (p.extended interface),
    compact_text, headText]
  simp only [↓reduceIte, List.append_assoc]

theorem visit_exception_text (p : Exception) :
    visitExceptionStart p = text "exception " ++
      (headText extendsText ((p.name, none), p.base) ++ (entries p.dataMembers []).flatMap Entry.text) := by
  rw [← entries_text, visitExceptionStart, headText]
  cases p.base <;> simp [extendsText, optionally]

theorem kinds_apart {kind other more : Str} (differ : kind.head? ≠ other.head?) (some : kind ≠ [])
    (someToo : other ≠ []) : kind ++ rest ≠ other ++ more := by
  intro same
  apply differ
  have heads := congrArg List.head? same
  rwa [List.head?_append_of_ne_nil _ some, List.head?_append_of_ne_nil _ someToo] at heads

theorem class_text_iff (p q : ClassDef) :
    visitClassDefStart p = visitClassDefStart q ↔
      SameClass p q ∧ p.operations.map optionalLeads = q.operations.map optionalLeads := by
  -- what the header and the entries tell, when the bases are told
  have contract : p.isInterface = q.isInterface → p.bases = q.bases →
      (p.name, compact p.compactId) = (q.name, compact q.compactId) →
      entries p.dataMembers p.operations = entries q.dataMembers q.operations →
      SameClass p q ∧ p.operations.map optionalLeads = q.operations.map optionalLeads := by
    intro kind bases head list
    obtain ⟨name, id⟩ := Prod.mk.inj head
    obtain ⟨members, calls⟩ := (entries_iff p.distinct q.distinct).mp list
    obtain ⟨operations, leads⟩ := (operations_iff p.operations q.operations).mp calls
    exact ⟨⟨kind, name, compact_injective p.identified q.identified id, bases, members, operations⟩, leads⟩
  constructor
  · intro same
    cases kind : p.isInterface with
    | true =>
        cases otherKind : q.isInterface with
        | true =>
            rw [visit_interface_text p kind, visit_interface_text q otherKind] at same
            obtain ⟨head, list⟩ := definition_unambiguous (listed_unambiguous (text "extends "))
              (fun names _ => listed_begins (text "extends ") names) (text "interface ") same
            obtain ⟨named, names⟩ := Prod.mk.inj head
            have bases : p.bases = q.bases := by
              rw [← interfaces_named (p.extended kind), names, interfaces_named (q.extended otherKind)]
            exact contract (kind.trans otherKind.symm) bases named list
        | false =>
            rw [visit_interface_text p kind, visit_class_text q otherKind] at same
            exact absurd same (kinds_apart (by decide) (by decide) (by decide))
    | false =>
        cases otherKind : q.isInterface with
        | true =>
            rw [visit_class_text p kind, visit_interface_text q otherKind] at same
            exact absurd same (kinds_apart (by decide) (by decide) (by decide))
        | false =>
            rw [visit_class_text p kind, visit_class_text q otherKind] at same
            obtain ⟨head, list⟩ := definition_unambiguous class_bases_unambiguous
              (fun bases _ => class_bases_begin bases) (text "class ") same
            obtain ⟨named, bases⟩ := Prod.mk.inj head
            exact contract (kind.trans otherKind.symm)
              (class_bases_injective p.implemented q.implemented bases) named list
  · rintro ⟨same, leads⟩
    have calls := (operations_iff p.operations q.operations).mpr ⟨same.operations, leads⟩
    have list := (entries_iff p.distinct q.distinct).mpr ⟨same.dataMembers, calls⟩
    have body := congrArg (List.flatMap Entry.text) list
    rw [← entries_text, ← entries_text] at body
    rw [visitClassDefStart, visitClassDefStart, same.isInterface, same.name, same.compactId, same.bases,
      List.append_assoc _ (membersText p.dataMembers), body, List.append_assoc _ (membersText q.dataMembers)]

theorem exception_text_iff (p q : Exception) :
    visitExceptionStart p = visitExceptionStart q ↔ SameException p q := by
  have told : entries p.dataMembers [] = entries q.dataMembers [] ↔
      SameItems DataMember.tag p.dataMembers q.dataMembers :=
    (entries_iff p.distinct q.distinct).trans (and_iff_left rfl)
  rw [visit_exception_text, visit_exception_text]
  constructor
  · intro same
    obtain ⟨head, list⟩ := definition_unambiguous extends_unambiguous
      (fun base _ => extends_begins base) (text "exception ") same
    obtain ⟨named, base⟩ := Prod.mk.inj head
    exact ⟨(Prod.mk.inj named).1, base, told.mp list⟩
  · intro same
    rw [same.name, same.base, told.mpr same.dataMembers]

theorem class_not_exception (p : ClassDef) (q : Exception) : visitClassDefStart p ≠ visitExceptionStart q := by
  rw [visit_exception_text]
  cases kind : p.isInterface with
  | true =>
      rw [visit_interface_text p kind]
      exact kinds_apart (by decide) (by decide) (by decide)
  | false =>
      rw [visit_class_text p kind]
      exact kinds_apart (by decide) (by decide) (by decide)

/-- The text tells the contract, and in which operations an optional parameter comes before all
required ones. -/
theorem text_tells (p q : Definition) :
    checksumText p = checksumText q ↔ SameContract p q ∧ leads p = leads q := by
  match p, q with
  | .classDef p, .classDef q => exact class_text_iff p q
  | .exception p, .exception q => exact (exception_text_iff p q).trans (and_iff_left rfl).symm
  | .classDef p, .exception q =>
      exact ⟨fun same => absurd same (class_not_exception p q), fun both => both.1.elim⟩
  | .exception p, .classDef q =>
      exact ⟨fun same => absurd same.symm (class_not_exception q p), fun both => both.1.elim⟩

/-- Two definitions have one text exactly when they are one contract, unless they are one contract
with an operation in which an optional parameter comes first in one definition only. -/
theorem checksum_sees_contract_iff (p q : Definition) :
    (checksumText p = checksumText q ↔ SameContract p q) ↔ (SameContract p q → leads p = leads q) := by
  rw [text_tells]
  constructor
  · intro exact same
    exact (exact.mpr same).2
  · intro covered
    exact ⟨And.left, fun same => ⟨same, covered same⟩⟩

def identifier (name : String) (first : ∃ char rest, text name = char :: rest ∧ isAlpha char = true)
    (plain : ∀ char ∈ text name, isAlnum char = true) : Identifier := ⟨text name, first, plain⟩

def scopedB : Scoped := ⟨text "::B", ⟨text ":B", by decide⟩, by decide⟩

/-- `exception D extends ::B { .. };`. -/
def derivedException (dataMembers : List DataMember)
    (distinct : (dataMembers.filterMap DataMember.tag).Nodup) : Definition :=
  .exception ⟨identifier "D" ⟨68, [], by decide, by decide⟩ (by decide), some scopedB, dataMembers,
    distinct⟩

/-- `optional(1) ::B* a`. -/
def optionalMember : DataMember :=
  ⟨.proxy scopedB, identifier "a" ⟨97, [], by decide, by decide⟩ (by decide), some 1⟩

/-- `int b`. -/
def requiredMember : DataMember :=
  ⟨.builtin .int, identifier "b" ⟨98, [], by decide, by decide⟩ (by decide), none⟩

/-- The place of an optional data member does not count. -/
example :
    checksumText (derivedException [optionalMember, requiredMember] (by decide)) =
        text "exception D extends ::B\nint b\n::B* 1 a" ∧
      checksumText (derivedException [requiredMember, optionalMember] (by decide)) =
        text "exception D extends ::B\nint b\n::B* 1 a" := by
  decide

/-- `interface I { void op(..); }`. -/
def oneOperation (params : List ParamDecl) (distinct : (params.filterMap ParamDecl.tag).Nodup) :
    Definition :=
  .classDef ⟨true, identifier "I" ⟨73, [], by decide, by decide⟩ (by decide), -1, [], [],
    [⟨none, none, identifier "op" ⟨111, [112], by decide, by decide⟩ (by decide), params, [], distinct⟩],
    by decide, by simp, by simp, by decide⟩

/-- `optional(1) int a`. -/
def optionalA : ParamDecl := ⟨false, .builtin .int, identifier "a" ⟨97, [], by decide, by decide⟩ (by decide), some 1⟩

/-- `int b`. -/
def requiredB : ParamDecl := ⟨false, .builtin .int, identifier "b" ⟨98, [], by decide, by decide⟩ (by decide), none⟩

/-- `void op(optional(1) int a, int b)` and `void op(int b, optional(1) int a)` are one operation
and have two checksum texts. -/
theorem leading_optional_seen :
    SameContract (oneOperation [optionalA, requiredB] (by decide))
        (oneOperation [requiredB, optionalA] (by decide)) ∧
      checksumText (oneOperation [optionalA, requiredB] (by decide)) =
        text "interface I\nvoid op(, int b, int 1 a)\n" ∧
      checksumText (oneOperation [requiredB, optionalA] (by decide)) =
        text "interface I\nvoid op(int b, int 1 a)\n" ∧
      ¬ (checksumText (oneOperation [optionalA, requiredB] (by decide)) =
          checksumText (oneOperation [requiredB, optionalA] (by decide)) ↔
        SameContract (oneOperation [optionalA, requiredB] (by decide))
          (oneOperation [requiredB, optionalA] (by decide))) := by
  have same : SameContract (oneOperation [optionalA, requiredB] (by decide))
      (oneOperation [requiredB, optionalA] (by decide)) := by
    refine ⟨rfl, rfl, rfl, rfl, ⟨rfl, by simp⟩, ?_⟩
    refine List.forall₂_cons.mpr ⟨⟨rfl, rfl, rfl, rfl, ⟨rfl, ?_⟩⟩, .nil⟩
    intro param _
    rw [List.mem_pair, List.mem_pair]
    exact or_comm
  have differ : checksumText (oneOperation [optionalA, requiredB] (by decide)) ≠
      checksumText (oneOperation [requiredB, optionalA] (by decide)) := by decide
  exact ⟨same, by decide, by decide, fun exact => differ (exact.mpr same)⟩

end IceTouch.Slice.Checksum
