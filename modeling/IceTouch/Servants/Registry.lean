import IceTouch.Library.Machine
import IceTouch.Servants.ServantManager
import Mathlib.Logic.Function.Basic

/-!
# What the active servant map is for

A registry is three maps and the knowledge whether it has been destroyed. The servant manager
represents it, and every operation gives the outcome the registry prescribes.
-/

namespace IceTouch.Servants

open WireTypes Identities IteratorMap Machine

variable {σ μ : Type}

structure Registry (σ μ : Type) where
  isOpen : Prop
  servants : Identity × Str → Option σ
  defaults : Str → Option σ
  locators : Str → Option μ

abbrev Prescribed (σ μ : Type) := Outcome σ μ (Str → Option σ) (Str → Option μ)

def Outcome.view : CodeOutcome σ μ → Prescribed σ μ
  | .done => .done
  | .servant found => .servant found
  | .facets found => .facets found.lookup
  | .present found => .present found
  | .locator found => .locator found
  | .deactivated locators => .deactivated locators.lookup
  | .alreadyRegistered kindOfObject id => .alreadyRegistered kindOfObject id
  | .notRegistered kindOfObject id => .notRegistered kindOfObject id

namespace Registry

open scoped Classical in
noncomputable def guarded (registry : Registry σ μ)
    (result : Prescribed σ μ × Registry σ μ) : Except Fault (Prescribed σ μ × Registry σ μ) :=
  if registry.isOpen then .ok result else .error .assertion

def defaultFor (registry : Registry σ μ) (category : Str) : Option σ :=
  (registry.defaults category).or (registry.defaults [])

def emptied (registry : Registry σ μ) : Registry σ μ :=
  { registry with
    isOpen := False
    servants := fun _ => none
    defaults := fun _ => none
    locators := fun _ => none }

open scoped Classical in
noncomputable def perform : Operation σ μ → Registry σ μ →
    Except Fault (Prescribed σ μ × Registry σ μ)
  | .addServant object ident facet, registry => registry.guarded <|
      match registry.servants (ident, facet) with
      | some _ => (.alreadyRegistered "servant" (servantId ident facet), registry)
      | none => (.done, { registry with
          servants := Function.update registry.servants (ident, facet) (some object) })
  | .addDefaultServant object category, registry => registry.guarded <|
      match registry.defaults category with
      | some _ => (.alreadyRegistered "default servant" category, registry)
      | none => (.done, { registry with
          defaults := Function.update registry.defaults category (some object) })
  | .removeServant ident facet, registry => registry.guarded <|
      match registry.servants (ident, facet) with
      | none => (.notRegistered "servant" (servantId ident facet), registry)
      | some servant => (.servant (some servant), { registry with
          servants := Function.update registry.servants (ident, facet) none })
  | .removeDefaultServant category, registry => registry.guarded <|
      match registry.defaults category with
      | none => (.notRegistered "default servant" category, registry)
      | some servant => (.servant (some servant), { registry with
          defaults := Function.update registry.defaults category none })
  | .removeAllFacets ident, registry => registry.guarded <|
      if ∀ facet, registry.servants (ident, facet) = none then
        (.notRegistered "servant" (servantId ident []), registry)
      else
        (.facets fun facet => registry.servants (ident, facet), { registry with
          servants := fun key => if key.1 = ident then none else registry.servants key })
  | .findServant ident facet, registry =>
      .ok (.servant ((registry.servants (ident, facet)).or (registry.defaultFor ident.category)),
        registry)
  | .findDefaultServant category, registry => .ok (.servant (registry.defaults category), registry)
  | .findAllFacets ident, registry => registry.guarded <|
      (.facets fun facet => registry.servants (ident, facet), registry)
  | .hasServant ident, registry =>
      .ok (.present (decide (∃ facet, registry.servants (ident, facet) ≠ none)), registry)
  | .addServantLocator locator category, registry => registry.guarded <|
      match registry.locators category with
      | some _ => (.alreadyRegistered "servant locator" category, registry)
      | none => (.done, { registry with
          locators := Function.update registry.locators category (some locator) })
  | .removeServantLocator category, registry => registry.guarded <|
      match registry.locators category with
      | none => (.notRegistered "servant locator" category, registry)
      | some locator => (.locator (some locator), { registry with
          locators := Function.update registry.locators category none })
  | .findServantLocator category, registry => .ok (.locator (registry.locators category), registry)
  | .destroy, registry => registry.guarded (.deactivated registry.locators, registry.emptied)

def initial : Registry σ μ where
  isOpen := True
  servants := fun _ => none
  defaults := fun _ => none
  locators := fun _ => none

end Registry

/-- The manager stores the registry, its hints can be dereferenced, and it keeps no identity
without a facet. -/
structure Represents (manager : ServantManager σ μ) (registry : Registry σ μ) : Prop where
  isOpen : registry.isOpen ↔ manager.hasInstance = true
  servants : ∀ ident facet, registry.servants (ident, facet) =
    (manager.servantMapMap.lookup ident).bind fun facets => facets.lookup facet
  defaults : registry.defaults = manager.defaultServantMap.lookup
  locators : registry.locators = manager.locatorMap.lookup
  occupied : ∀ ident facets, manager.servantMapMap.lookup ident = some facets → facets.nodes ≠ []
  servantHint : manager.servantMapMap.Valid manager.servantMapMapHint
  locatorHint : manager.locatorMap.Valid manager.locatorMapHint

theorem initial_represents : Represents (initial : ServantManager σ μ) Registry.initial where
  isOpen := by simp [Registry.initial, initial]
  servants := fun _ _ => rfl
  defaults := rfl
  locators := rfl
  occupied := fun _ _ found => nomatch found
  servantHint := Table.valid_end _
  locatorHint := Table.valid_end _

section hints

variable {κ α : Type} [LinearOrder κ]

theorem hinted_eq {table : Table κ α} {hint : Option Iterator} (valid : table.Valid hint)
    (key : κ) : hinted table hint key = .ok (table.find key) := by
  cases hint with
  | none => rfl
  | some iterator =>
      obtain ⟨node, inside, id⟩ := valid iterator rfl
      have found : table.deref iterator = some node := Table.deref_eq.mpr ⟨inside, id⟩
      by_cases same : node.key = key
      · have here : table.find key = some iterator := Table.find_eq.mpr ⟨node, found, same⟩
        simp only [hinted, found, same, ne_eq, not_true_eq_false, if_false, here]
      · simp only [hinted, found, same, ne_eq, not_false_eq_true, if_true]

theorem find_cases (table : Table κ α) (key : κ) :
    (table.find key = none ∧ table.lookup key = none) ∨
      ∃ iterator node, table.find key = some iterator ∧ table.deref iterator = some node ∧
        node.key = key ∧ table.lookup key = some node.value := by
  cases found : table.find key with
  | none => exact .inl ⟨rfl, Table.find_eq_none.mp found⟩
  | some iterator =>
      obtain ⟨node, here, same⟩ := Table.find_eq.mp found
      refine .inr ⟨iterator, node, rfl, here, same, ?_⟩
      rw [← same]
      exact Table.lookup_of_deref here

theorem arrow_eq {table : Table κ α} {iterator : Iterator} {node : Node κ α}
    (found : table.deref iterator = some node) : arrow table iterator = .ok node := by
  rw [arrow, found]

end hints

def Agrees : Except Fault (Result σ μ) → Except Fault (Prescribed σ μ × Registry σ μ) → Prop
  | .ok (outcome, after), .ok (prescribed, registry) =>
      prescribed = outcome.view ∧ Represents after registry
  | .error fault, .error expected => expected = fault
  | _, _ => False

section operations

variable {manager : ServantManager σ μ} {registry : Registry σ μ}

theorem guard_agrees (rep : Represents manager registry) {rest : Except Fault (Result σ μ)}
    {result : Prescribed σ μ × Registry σ μ} (agrees : Agrees rest (.ok result)) :
    Agrees (mustHaveInstance manager >>= fun _ => rest) (registry.guarded result) := by
  by_cases isSet : manager.hasInstance = true
  · simpa [mustHaveInstance, Registry.guarded, isSet, rep.isOpen.mpr isSet, bind, Except.bind]
      using agrees
  · have closed : ¬ registry.isOpen := fun isOpen => isSet (rep.isOpen.mp isOpen)
    simp [mustHaveInstance, Registry.guarded, isSet, closed, Agrees, bind, Except.bind]

variable {hint : Option Iterator} {ident : Identity}

variable {table : Table Identity (FacetMap σ)} {servants : Identity × Str → Option σ}
  {node : Node Identity (FacetMap σ)} {facets : FacetMap σ}

section

variable (rep : Represents manager registry)

include rep

theorem Represents.servants_changed (same : ∀ ident facet, servants (ident, facet) =
      (table.lookup ident).bind fun facets => facets.lookup facet)
    (occupied : ∀ ident facets, table.lookup ident = some facets → facets.nodes ≠ [])
    (valid : table.Valid hint) :
    Represents { manager with servantMapMap := table, servantMapMapHint := hint }
      { registry with servants := servants } where
  isOpen := rep.isOpen
  servants := same
  defaults := rep.defaults
  locators := rep.locators
  occupied := occupied
  servantHint := valid
  locatorHint := rep.locatorHint

theorem Represents.defaults_changed {table : Table Str σ} {defaults : Str → Option σ}
    (same : ∀ category, defaults category = table.lookup category) :
    Represents { manager with defaultServantMap := table }
      { registry with defaults := defaults } where
  isOpen := rep.isOpen
  servants := rep.servants
  defaults := by
    apply funext
    exact same
  locators := rep.locators
  occupied := rep.occupied
  servantHint := rep.servantHint
  locatorHint := rep.locatorHint

theorem Represents.locators_changed {table : Table Str μ} {locators : Str → Option μ}
    (same : ∀ category, locators category = table.lookup category) (valid : table.Valid hint) :
    Represents { manager with locatorMap := table, locatorMapHint := hint }
      { registry with locators := locators } where
  isOpen := rep.isOpen
  servants := rep.servants
  defaults := rep.defaults
  locators := by
    apply funext
    exact same
  occupied := rep.occupied
  servantHint := rep.servantHint
  locatorHint := valid

theorem Represents.servant_hint {iterator : Iterator}
    (found : manager.servantMapMap.deref iterator = some node) :
    Represents { manager with servantMapMapHint := some iterator } registry :=
  rep.servants_changed rep.servants rep.occupied (by
    intro hint isHint
    cases isHint
    exact ⟨node, Table.deref_eq.mp found⟩)

theorem Represents.unregistered (absent : manager.servantMapMap.lookup ident = none) (facet : Str) :
    registry.servants (ident, facet) = none := by
  rw [rep.servants, absent, Option.bind_none]

theorem Represents.registered (present : manager.servantMapMap.lookup ident = some facets)
    (facet : Str) : registry.servants (ident, facet) = facets.lookup facet := by
  rw [rep.servants, present, Option.bind_some]

end

theorem lookup_of_nonempty (occupied : facets.nodes ≠ []) :
    ∃ facet, facets.lookup facet ≠ none := by
  by_contra unknown
  push Not at unknown
  exact occupied (Table.nodes_eq_nil.mpr unknown)

theorem Represents.facets_changed (rep : Represents manager registry) {facet : Str}
    (facets : FacetMap σ) {servant : Option σ} (valid : table.Valid hint)
    (changed : ∀ other, table.lookup other =
      if other = ident then some facets else manager.servantMapMap.lookup other)
    (nonempty : facets.nodes ≠ [])
    (lookup : ∀ other, facets.lookup other =
      if other = facet then servant else registry.servants (ident, other)) :
    Represents { manager with servantMapMap := table, servantMapMapHint := hint }
      { registry with
        servants := Function.update registry.servants (ident, facet) servant } := by
  refine rep.servants_changed ?_ ?_ valid
  · intro other otherFacet
    rw [changed, Function.update_apply]
    by_cases same : other = ident
    · rw [if_pos same, Option.bind_some, lookup, same]
      simp only [Prod.mk.injEq, true_and]
    · rw [if_neg same, if_neg (fun eq => same (Prod.mk.inj eq).1)]
      exact rep.servants other otherFacet
  · intro other found present
    rw [changed] at present
    split_ifs at present
    · cases present
      exact nonempty
    · exact rep.occupied other found present

theorem nonempty_of_lookup (facet : Str) (servant : σ)
    (present : facets.lookup facet = some servant) : facets.nodes ≠ [] := by
  intro none
  rw [Table.nodes_eq_nil.mp none facet] at present
  cases present

section

variable (rep : Represents manager registry)

include rep

theorem add_servant_agrees (object : σ) (ident : Identity) (facet : Str) :
    Agrees (addServant manager object ident facet)
      (Registry.perform (.addServant object ident facet) registry) := by
  apply guard_agrees rep
  rw [hinted_eq rep.servantHint]
  rcases find_cases manager.servantMapMap ident with
    ⟨missing, absent⟩ | ⟨iterator, node, found, here, same, present⟩
  · rw [missing, rep.unregistered absent]
    obtain ⟨lookup, ⟨fresh, stands, freshKey, freshValue⟩, -⟩ :=
      Table.insert_spec (.empty : FacetMap σ) absent
    have unfilled : (.empty : FacetMap σ).lookup facet = none := Table.lookup_empty facet
    obtain ⟨added, -, -⟩ := Table.insert_spec object unfilled
    simp only [bind, Except.bind]
    generalize manager.servantMapMap.insert ident (.empty : FacetMap σ) = inserted
      at lookup stands ⊢
    have changed := Table.lookup_modify (fun facets : FacetMap σ => (facets.insert facet object).1)
      stands
    refine ⟨rfl, rep.facets_changed ((.empty : FacetMap σ).insert facet object).1
      ?_ ?_ ?_ ?_⟩
    · refine Table.valid_modify (fun hint isHint => ?_) _ _
      cases isHint
      exact ⟨fresh, Table.deref_eq.mp stands⟩
    · intro other
      rw [changed, freshKey, freshValue, lookup]
      split_ifs <;> rfl
    · apply nonempty_of_lookup facet object
      rw [added, if_pos rfl]
    · intro other
      rw [added, rep.unregistered absent, Table.lookup_empty]
      congr
  · rw [found]
    simp only [bind, Except.bind, arrow_eq here]
    rw [rep.registered present]
    rcases find_cases node.value facet with
      ⟨missing, absent⟩ | ⟨position, entry, isFound, -, -, isThere⟩
    · rw [missing, absent]
      obtain ⟨added, -, -⟩ := Table.insert_spec object absent
      refine ⟨rfl, rep.facets_changed (node.value.insert facet object).1 ?_ ?_ ?_ ?_⟩
      · refine Table.valid_modify (fun hint isHint => ?_) _ _
        cases isHint
        exact ⟨node, Table.deref_eq.mp here⟩
      · intro other
        rw [Table.lookup_modify _ here, same]
        congr
      · apply nonempty_of_lookup facet object
        rw [added, if_pos rfl]
      · intro other
        rw [added, rep.registered present]
        congr
    · rw [isFound, isThere]
      exact ⟨rfl, rep⟩

theorem Represents.default_servant (category : Str) :
    defaultServant manager category = .ok (registry.defaults category) := by
  rw [rep.defaults, defaultServant]
  rcases find_cases manager.defaultServantMap category with
    ⟨missing, absent⟩ | ⟨iterator, node, found, here, -, present⟩
  · rw [missing, absent]
  · rw [found, present]
    simp only [arrow_eq here, bind, Except.bind]

theorem add_default_servant_agrees (object : σ) (category : Str) :
    Agrees (addDefaultServant manager object category)
      (Registry.perform (.addDefaultServant object category) registry) := by
  apply guard_agrees rep
  rw [rep.defaults]
  rcases find_cases manager.defaultServantMap category with
    ⟨missing, absent⟩ | ⟨iterator, node, found, -, -, present⟩
  · rw [missing, absent]
    obtain ⟨added, -, -⟩ := Table.insert_spec object absent
    refine ⟨rfl, rep.defaults_changed fun other => ?_⟩
    rw [added, Function.update_apply]
    congr
  · rw [found, present]
    exact ⟨rfl, rep⟩

theorem remove_default_servant_agrees (category : Str) :
    Agrees (removeDefaultServant manager category)
      (Registry.perform (.removeDefaultServant category) registry) := by
  apply guard_agrees rep
  rw [rep.defaults]
  rcases find_cases manager.defaultServantMap category with
    ⟨missing, absent⟩ | ⟨iterator, node, found, here, same, present⟩
  · rw [missing, absent]
    exact ⟨rfl, rep⟩
  · rw [found, present]
    simp only [arrow_eq here, bind, Except.bind]
    refine ⟨rfl, rep.defaults_changed fun other => ?_⟩
    rw [Table.lookup_erase here, Function.update_apply, same]
    congr

theorem Represents.identity_erased {iterator : Iterator}
    (here : manager.servantMapMap.deref iterator = some node)
    (same : ∀ ident facet, servants (ident, facet) =
      if ident = node.key then none else registry.servants (ident, facet)) :
    Represents (eraseServants manager iterator) { registry with servants := servants } := by
  have lookup := Table.lookup_erase here
  have servantsSame : ∀ ident facet, servants (ident, facet) =
      ((manager.servantMapMap.erase iterator).lookup ident).bind
        fun facets => facets.lookup facet := by
    intro ident facet
    rw [same, lookup, rep.servants]
    by_cases erased : ident = node.key
    · rw [if_pos erased, if_pos erased, Option.bind_none]
    · rw [if_neg erased, if_neg erased]
  have occupied : ∀ ident facets, (manager.servantMapMap.erase iterator).lookup ident = some facets →
      facets.nodes ≠ [] := by
    intro ident facets present
    rw [lookup] at present
    split_ifs at present
    exact rep.occupied ident facets present
  unfold eraseServants
  split
  · exact rep.servants_changed servantsSame occupied (Table.valid_next iterator)
  · next elsewhere =>
      refine rep.servants_changed servantsSame occupied ?_
      have valid := rep.servantHint
      generalize manager.servantMapMapHint = hint at valid elsewhere
      cases hint with
      | none => exact Table.valid_end _
      | some other => exact Table.valid_erase valid fun eq => elsewhere (by rw [eq])

theorem remove_servant_agrees (ident : Identity) (facet : Str) :
    Agrees (removeServant manager ident facet)
      (Registry.perform (.removeServant ident facet) registry) := by
  apply guard_agrees rep
  rw [hinted_eq rep.servantHint]
  rcases find_cases manager.servantMapMap ident with
    ⟨missing, absent⟩ | ⟨iterator, node, found, here, same, present⟩
  · rw [missing, rep.unregistered absent]
    exact ⟨rfl, rep⟩
  · rw [found]
    simp only [bind, Except.bind, arrow_eq here]
    have facets := rep.registered present
    rw [facets facet]
    rcases find_cases node.value facet with
      ⟨missing, absent⟩ | ⟨position, entry, isFound, stands, sameFacet, isThere⟩
    · rw [missing, absent]
      exact ⟨rfl, rep⟩
    · rw [isFound, isThere]
      simp only [arrow_eq stands]
      have left := Table.lookup_erase stands
      split
      · next emptied =>
          refine ⟨rfl, rep.identity_erased here fun other otherFacet => ?_⟩
          rw [Function.update_apply, same]
          by_cases isIdent : other = ident
          · rw [if_pos isIdent, isIdent, facets]
            split_ifs with isFacet
            · rfl
            · have gone := Table.nodes_eq_nil.mp emptied otherFacet
              rw [left, sameFacet, if_neg fun eq => isFacet (by rw [eq])] at gone
              exact gone
          · rw [if_neg isIdent, if_neg fun eq => isIdent (Prod.mk.inj eq).1]
      · next remaining =>
          refine ⟨rfl, rep.facets_changed (node.value.erase position)
            (Table.valid_modify rep.servantHint _ _) ?_ remaining ?_⟩
          · intro other
            rw [Table.lookup_modify _ here, same]
            congr
          · intro other
            rw [left, sameFacet, facets]
            congr

theorem remove_all_facets_agrees (ident : Identity) :
    Agrees (removeAllFacets manager ident)
      (Registry.perform (.removeAllFacets ident) registry) := by
  apply guard_agrees rep
  rw [hinted_eq rep.servantHint]
  rcases find_cases manager.servantMapMap ident with
    ⟨missing, absent⟩ | ⟨iterator, node, found, here, same, present⟩
  · rw [missing, if_pos (rep.unregistered absent)]
    exact ⟨rfl, rep⟩
  · have facets := rep.registered present
    obtain ⟨facet, isThere⟩ := lookup_of_nonempty (rep.occupied ident node.value present)
    have registered : ¬ ∀ facet, registry.servants (ident, facet) = none := by
      intro none
      rw [← facets] at isThere
      exact isThere (none facet)
    rw [found, if_neg registered]
    simp only [bind, Except.bind, arrow_eq here]
    refine ⟨?_, rep.identity_erased here fun other otherFacet => ?_⟩
    · have all : (fun facet => registry.servants (ident, facet)) = node.value.lookup := by
        apply funext
        exact facets
      rw [Outcome.view, all]
    · rw [same]

theorem Represents.fallback_agrees {facet : Str} (absent : registry.servants (ident, facet) = none) :
    Agrees (fallback manager ident) (Registry.perform (.findServant ident facet) registry) := by
  simp only [fallback, Registry.perform, absent, Option.none_or, rep.default_servant,
    Registry.defaultFor, bind, Except.bind]
  cases registry.defaults ident.category with
  | none => exact ⟨rfl, rep⟩
  | some servant => exact ⟨rfl, rep⟩

theorem find_servant_agrees (ident : Identity) (facet : Str) :
    Agrees (findServant manager ident facet)
      (Registry.perform (.findServant ident facet) registry) := by
  unfold findServant
  rw [hinted_eq rep.servantHint]
  rcases find_cases manager.servantMapMap ident with
    ⟨missing, absent⟩ | ⟨iterator, node, found, here, -, present⟩
  · rw [missing]
    exact rep.fallback_agrees (rep.unregistered absent facet)
  · rw [found]
    simp only [bind, Except.bind, arrow_eq here]
    have facets := rep.registered present facet
    rcases find_cases node.value facet with
      ⟨missing, absent⟩ | ⟨position, entry, isFound, stands, -, isThere⟩
    · rw [missing]
      exact rep.fallback_agrees (facets.trans absent)
    · rw [isFound]
      simp only [arrow_eq stands, Registry.perform, facets, isThere, Option.some_or]
      exact ⟨rfl, rep.servant_hint here⟩

theorem find_all_facets_agrees (ident : Identity) :
    Agrees (findAllFacets manager ident)
      (Registry.perform (.findAllFacets ident) registry) := by
  apply guard_agrees rep
  rw [hinted_eq rep.servantHint]
  rcases find_cases manager.servantMapMap ident with
    ⟨missing, absent⟩ | ⟨iterator, node, found, here, -, present⟩
  · rw [missing]
    have all : (fun facet => registry.servants (ident, facet)) = (.empty : FacetMap σ).lookup := by
      funext facet
      exact rep.unregistered absent facet
    exact ⟨by rw [Outcome.view, all], rep⟩
  · rw [found]
    simp only [bind, Except.bind, arrow_eq here]
    have all : (fun facet => registry.servants (ident, facet)) = node.value.lookup := by
      apply funext
      exact rep.registered present
    exact ⟨by rw [Outcome.view, all], rep.servant_hint here⟩

theorem has_servant_agrees (ident : Identity) :
    Agrees (hasServant manager ident) (Registry.perform (.hasServant ident) registry) := by
  unfold hasServant
  rw [hinted_eq rep.servantHint]
  rcases find_cases manager.servantMapMap ident with
    ⟨missing, absent⟩ | ⟨iterator, node, found, here, -, present⟩
  · rw [missing]
    have nowhere : ¬ ∃ facet, registry.servants (ident, facet) ≠ none :=
      fun ⟨facet, registered⟩ => registered (rep.unregistered absent facet)
    simp only [Registry.perform, nowhere, decide_false]
    exact ⟨rfl, rep⟩
  · have occupied := rep.occupied ident node.value present
    have somewhere : ∃ facet, registry.servants (ident, facet) ≠ none := by
      obtain ⟨facet, isThere⟩ := lookup_of_nonempty occupied
      exact ⟨facet, by rwa [rep.registered present]⟩
    rw [found]
    simp only [bind, Except.bind, arrow_eq here, if_neg occupied, Registry.perform, somewhere,
      decide_true]
    exact ⟨rfl, rep.servant_hint here⟩

theorem add_servant_locator_agrees (locator : μ) (category : Str) :
    Agrees (addServantLocator manager locator category)
      (Registry.perform (.addServantLocator locator category) registry) := by
  apply guard_agrees rep
  rw [hinted_eq rep.locatorHint, rep.locators]
  rcases find_cases manager.locatorMap category with
    ⟨missing, absent⟩ | ⟨iterator, node, found, here, -, present⟩
  · rw [missing, absent]
    obtain ⟨added, ⟨fresh, stands, -, -⟩, -⟩ := Table.insert_spec locator absent
    simp only [bind, Except.bind]
    generalize manager.locatorMap.insert category locator = inserted at added stands ⊢
    refine ⟨rfl, rep.locators_changed (fun other => ?_) fun hint isHint => ?_⟩
    · rw [added, Function.update_apply]
      congr
    · cases isHint
      exact ⟨fresh, Table.deref_eq.mp stands⟩
  · rw [found, present]
    exact ⟨rfl, rep⟩

theorem remove_servant_locator_agrees (category : Str) :
    Agrees (removeServantLocator manager category)
      (Registry.perform (.removeServantLocator category) registry) := by
  apply guard_agrees rep
  rw [hinted_eq rep.locatorHint, rep.locators]
  rcases find_cases manager.locatorMap category with
    ⟨missing, absent⟩ | ⟨iterator, node, found, here, same, present⟩
  · rw [missing, absent]
    exact ⟨rfl, rep⟩
  · rw [found, present]
    simp only [bind, Except.bind, arrow_eq here]
    refine ⟨rfl, rep.locators_changed (fun other => ?_) (Table.valid_begin _)⟩
    rw [Table.lookup_erase here, Function.update_apply, same]
    congr

theorem find_servant_locator_agrees (category : Str) :
    Agrees (findServantLocator manager category)
      (Registry.perform (.findServantLocator category) registry) := by
  simp only [findServantLocator, hinted_eq rep.locatorHint, Registry.perform, rep.locators, bind,
    Except.bind]
  rcases find_cases manager.locatorMap category with
    ⟨missing, absent⟩ | ⟨iterator, node, found, here, -, present⟩
  · rw [missing, absent]
    exact ⟨rfl, rep⟩
  · rw [found, present]
    simp only [arrow_eq here]
    refine ⟨rfl, rep.locators_changed (congrFun rep.locators) fun hint isHint => ?_⟩
    cases isHint
    exact ⟨node, Table.deref_eq.mp here⟩

theorem destroy_agrees (cleared : registry.isOpen → ∀ category, registry.defaults category = none) :
    Agrees (destroy manager) (Registry.perform .destroy registry) := by
  by_cases isOpen : registry.isOpen
  · apply guard_agrees rep
    refine ⟨by rw [Outcome.view, rep.locators], ?_⟩
    have none := cleared isOpen
    exact
      { isOpen := by simp [Registry.emptied]
        servants := fun _ _ => rfl
        defaults := by
          apply funext
          intro category
          have absent := none category
          rw [rep.defaults] at absent
          exact absent.symm
        locators := rfl
        occupied := fun _ _ found => nomatch found
        servantHint := Table.valid_end _
        locatorHint := Table.valid_end _ }
  · have destroyed : ¬ manager.hasInstance = true := fun isSet => isOpen (rep.isOpen.mpr isSet)
    simp [destroy, mustHaveInstance, destroyed, Registry.perform, Registry.guarded, isOpen, Agrees,
      bind, Except.bind]

/-- When a manager is destroyed no default servant is registered. -/
def ClearsDefaults (operation : Operation σ μ) (registry : Registry σ μ) : Prop :=
  match operation with
  | .destroy => registry.isOpen → ∀ category, registry.defaults category = none
  | _ => True

theorem perform_agrees (operation : Operation σ μ) (clears : ClearsDefaults operation registry) :
    Agrees (perform operation manager) (Registry.perform operation registry) := by
  cases operation with
  | addServant object ident facet => exact add_servant_agrees rep object ident facet
  | addDefaultServant object category => exact add_default_servant_agrees rep object category
  | removeServant ident facet => exact remove_servant_agrees rep ident facet
  | removeDefaultServant category => exact remove_default_servant_agrees rep category
  | removeAllFacets ident => exact remove_all_facets_agrees rep ident
  | findServant ident facet => exact find_servant_agrees rep ident facet
  | findDefaultServant category =>
      simp only [perform, findDefaultServant, rep.default_servant, bind, Except.bind]
      exact ⟨rfl, rep⟩
  | findAllFacets ident => exact find_all_facets_agrees rep ident
  | hasServant ident => exact has_servant_agrees rep ident
  | addServantLocator locator category => exact add_servant_locator_agrees rep locator category
  | removeServantLocator category => exact remove_servant_locator_agrees rep category
  | findServantLocator category => exact find_servant_locator_agrees rep category
  | destroy => exact destroy_agrees rep clears

end

end operations

variable {operation : Operation σ μ}

variable {after : Registry σ μ} {prescribed : Prescribed σ μ}

theorem closed_performed {registry : Registry σ μ} (closed : ¬ registry.isOpen)
    (performed : Registry.perform operation registry = .ok (prescribed, after)) :
    after = registry := by
  cases operation <;>
    simp only [Registry.perform, Registry.guarded, closed, if_false, reduceCtorEq, Except.ok.injEq,
      Prod.mk.injEq] at performed
  all_goals exact performed.2.symm

def Left (manager : ServantManager σ μ) : Prop :=
  ∃ registry, Represents manager registry ∧ ¬ registry.isOpen ∧
    ∃ category, registry.defaults category ≠ none

theorem left_performed {manager after : ServantManager σ μ} {outcome : CodeOutcome σ μ}
    (left : Left manager) (performed : perform operation manager = .ok (outcome, after)) :
    Left after := by
  obtain ⟨registry, rep, closed, remaining⟩ := left
  have clears : ClearsDefaults operation registry := by
    cases operation <;> first | trivial | exact fun isOpen => absurd isOpen closed
  have agrees := perform_agrees rep operation clears
  rw [performed] at agrees
  cases expected : Registry.perform operation registry with
  | error fault => rw [expected] at agrees; exact agrees.elim
  | ok result =>
      rw [expected] at agrees
      have same := closed_performed closed expected
      exact ⟨result.2, agrees.2, by rwa [same], by rwa [same]⟩

theorem left_run (operations : List (Operation σ μ)) {manager : ServantManager σ μ}
    (left : Left manager) : Left (outcomes perform operations manager).2.1 := by
  induction operations generalizing manager with
  | nil => exact left
  | cons operation operations ih =>
      unfold outcomes
      split
      · exact left
      · next performed => exact ih (left_performed left performed)

theorem destroy_leaves {manager : ServantManager σ μ} {registry : Registry σ μ}
    (rep : Represents manager registry) (isOpen : registry.isOpen)
    (registered : ∃ category, registry.defaults category ≠ none) :
    ∃ outcome after, perform .destroy manager = .ok (outcome, after) ∧ Left after := by
  have isSet := rep.isOpen.mp isOpen
  refine ⟨.deactivated manager.locatorMap, _, by
    simp only [perform, destroy, mustHaveInstance, isSet, if_true, bind, Except.bind]; rfl,
    { registry.emptied with defaults := registry.defaults }, ?_, not_false, registered⟩
  exact
    { isOpen := by simp [Registry.emptied]
      servants := fun _ _ => rfl
      defaults := rep.defaults
      locators := rfl
      occupied := fun _ _ found => nomatch found
      servantHint := Table.valid_end _
      locatorHint := Table.valid_end _ }

/-- The outcomes are those the registry prescribes, and a manager that has been destroyed
keeps nothing in its maps. -/
def MeetsRegistry (operations : List (Operation σ μ)) (manager : ServantManager σ μ)
    (registry : Registry σ μ) : Prop :=
  let code := outcomes perform operations manager
  let prescribed := outcomes Registry.perform operations registry
  code.1.map Outcome.view = prescribed.1 ∧ code.2.2 = prescribed.2.2 ∧
    (code.2.1.hasInstance = false → code.2.1.servantMapMap.nodes = [] ∧
      code.2.1.defaultServantMap.nodes = [] ∧ code.2.1.locatorMap.nodes = [])

def Registry.Sealed (registry : Registry σ μ) : Prop :=
  ¬ registry.isOpen → (∀ key, registry.servants key = none) ∧
    (∀ category, registry.defaults category = none) ∧
      ∀ category, registry.locators category = none

theorem sealed_performed {registry : Registry σ μ} (sealed : registry.Sealed)
    (performed : Registry.perform operation registry = .ok (prescribed, after)) : after.Sealed := by
  by_cases isOpen : registry.isOpen
  · intro closed
    cases operation <;>
      simp only [Registry.perform, Registry.guarded, if_pos isOpen, Except.ok.injEq] at performed
    case destroy =>
      cases performed
      exact ⟨fun _ => rfl, fun _ => rfl, fun _ => rfl⟩
    all_goals
      first
        | (split at performed <;> (cases performed; exact absurd isOpen closed))
        | (cases performed; exact absurd isOpen closed)
  · rw [closed_performed isOpen performed]
    exact sealed

theorem Represents.emptied {manager : ServantManager σ μ} {registry : Registry σ μ}
    (rep : Represents manager registry) (sealed : registry.Sealed)
    (destroyed : manager.hasInstance = false) : manager.servantMapMap.nodes = [] ∧
      manager.defaultServantMap.nodes = [] ∧ manager.locatorMap.nodes = [] := by
  have closed : ¬ registry.isOpen := fun isOpen => by
    rw [rep.isOpen.mp isOpen] at destroyed
    cases destroyed
  obtain ⟨servants, defaults, locators⟩ := sealed closed
  refine ⟨Table.nodes_eq_nil.mpr fun ident => ?_, Table.nodes_eq_nil.mpr fun category => ?_,
    Table.nodes_eq_nil.mpr fun category => ?_⟩
  · rcases found : manager.servantMapMap.lookup ident with _ | facets
    · rfl
    · obtain ⟨facet, isThere⟩ := lookup_of_nonempty (rep.occupied ident facets found)
      rw [← rep.registered found, servants] at isThere
      exact absurd rfl isThere
  · rw [← rep.defaults, defaults]
  · rw [← rep.locators, locators]

theorem run_meets_registry {manager : ServantManager σ μ} {registry : Registry σ μ}
    (rep : Represents manager registry) (sealed : registry.Sealed)
    (operations : List (Operation σ μ)) :
    MeetsRegistry operations manager registry ↔
      Every Registry.perform ClearsDefaults operations registry := by
  induction operations generalizing manager registry with
  | nil => exact ⟨fun _ => trivial, fun _ => ⟨rfl, rfl, rep.emptied sealed⟩⟩
  | cons operation operations ih =>
      by_cases clears : ClearsDefaults operation registry
      · have agrees := perform_agrees rep operation clears
        cases performed : perform operation manager with
        | error fault =>
            cases expected : Registry.perform operation registry with
            | ok result => rw [performed, expected] at agrees; exact agrees.elim
            | error other =>
                rw [performed, expected] at agrees
                have same : other = fault := agrees
                simp only [MeetsRegistry, outcomes, performed, expected, Every, clears, same,
                  List.map_nil, true_and]
                constructor
                · intro _ outcome after impossible
                  cases impossible
                · intro _
                  exact rep.emptied sealed
        | ok result =>
            obtain ⟨outcome, after⟩ := result
            cases expected : Registry.perform operation registry with
            | error other => rw [performed, expected] at agrees; exact agrees.elim
            | ok result =>
                obtain ⟨prescribed, later⟩ := result
                rw [performed, expected] at agrees
                obtain ⟨same, represents⟩ := agrees
                have rest := ih represents (sealed_performed sealed expected)
                have first : MeetsRegistry (operation :: operations) manager registry ↔
                    MeetsRegistry operations after later := by
                  simp only [MeetsRegistry, outcomes, performed, expected, List.map_cons, same,
                    List.cons.injEq, true_and]
                rw [first, rest]
                constructor
                · rintro every
                  refine ⟨clears, fun _ _ eq => ?_⟩
                  rw [expected] at eq
                  cases eq
                  exact every
                · rintro ⟨-, every⟩
                  exact every prescribed later expected
      · refine ⟨fun meets => ?_, fun every => absurd every.1 clears⟩
        cases operation with
        | destroy =>
            simp only [ClearsDefaults, Classical.not_imp, not_forall] at clears
            obtain ⟨isOpen, registered⟩ := clears
            obtain ⟨outcome, after, performed, left⟩ := destroy_leaves rep isOpen registered
            obtain ⟨final, represents, closed, category, remaining⟩ :=
              left_run operations left
            have emptied := meets.2.2
            simp only [outcomes, performed] at emptied
            have destroyed : (outcomes perform operations after).2.1.hasInstance = false :=
              Bool.eq_false_iff.mpr fun isSet => closed (represents.isOpen.mpr isSet)
            rw [represents.defaults, Table.nodes_eq_nil.mp (emptied destroyed).2.1] at remaining
            exact absurd rfl remaining
        | _ => exact absurd trivial clears

/-- Every sequence of operations has the outcomes of the registry, and leaves nothing behind in
a destroyed manager, exactly when no default servant is registered where it calls `destroy`. -/
theorem servant_manager_refines (operations : List (Operation σ μ)) :
    MeetsRegistry operations initial Registry.initial ↔
      Every Registry.perform ClearsDefaults operations Registry.initial :=
  run_meets_registry initial_represents (fun closed => absurd trivial closed) operations

/-- A default servant is registered, the manager destroyed, and the default servant found. -/
def defaultServantRun : List (Operation Unit Unit) :=
  [.addDefaultServant () [], .destroy, .findServant { name := [97], category := [] } []]

theorem default_servant_survives_destroy :
    (outcomes perform defaultServantRun initial).1[2]? = some (.servant (some ())) ∧
      ¬ MeetsRegistry defaultServantRun initial Registry.initial := by
  constructor
  · rfl
  · intro meets
    have kept : (outcomes perform defaultServantRun initial).2.1.defaultServantMap.nodes =
        [{ id := 0, key := [], value := () }] := rfl
    have emptied := meets.2.2 rfl
    rw [kept] at emptied
    cases emptied.2.1

end IceTouch.Servants
