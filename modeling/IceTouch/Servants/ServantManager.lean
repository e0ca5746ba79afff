import IceTouch.Library.IteratorMap
import IceTouch.Strings.Identities
import Mathlib.Data.List.Lex
import Mathlib.Data.Prod.Lex

/-!
# The active servant map

`ServantManager` with its three maps and the two iterators it keeps into them. A servant and
a servant locator are pointers the manager only stores. An operation fails when an assertion
does not hold and when an iterator is dereferenced that dangles.
-/

namespace IceTouch.Servants

open WireTypes Escape Identities IteratorMap

instance : LinearOrder Str :=
  LinearOrder.lift' (fun s : Str => s.map UInt8.toNat)
    (List.map_injective_iff.mpr fun _ _ same => UInt8.toNat_inj.mp same)

instance : LinearOrder Identity :=
  LinearOrder.lift' (fun ident : Identity => toLex (ident.name, ident.category)) (by
    rintro ⟨name, category⟩ ⟨name', category'⟩ same
    have pair : (name, category) = (name', category') := same
    cases pair
    rfl)

inductive Fault where
  | assertion
  | danglingIterator
deriving DecidableEq, Repr

variable (σ μ : Type)

abbrev FacetMap := Table Str σ

structure ServantManager where
  /-- Whether `_instance` is set. -/
  hasInstance : Bool
  servantMapMap : Table Identity (FacetMap σ)
  servantMapMapHint : Option Iterator
  defaultServantMap : Table Str σ
  locatorMap : Table Str μ
  locatorMapHint : Option Iterator

inductive Operation where
  | addServant (object : σ) (ident : Identity) (facet : Str)
  | addDefaultServant (object : σ) (category : Str)
  | removeServant (ident : Identity) (facet : Str)
  | removeDefaultServant (category : Str)
  | removeAllFacets (ident : Identity)
  | findServant (ident : Identity) (facet : Str)
  | findDefaultServant (category : Str)
  | findAllFacets (ident : Identity)
  | hasServant (ident : Identity)
  | addServantLocator (locator : μ) (category : Str)
  | removeServantLocator (category : Str)
  | findServantLocator (category : Str)
  | destroy

/-- What an operation returns or throws; `φ` is the type of the facet maps and `χ` that of the
locators `destroy` deactivates. -/
inductive Outcome (φ χ : Type) where
  | done
  | servant (found : Option σ)
  | facets (found : φ)
  | present (found : Bool)
  | locator (found : Option μ)
  | deactivated (locators : χ)
  | alreadyRegistered (kindOfObject : String) (id : Str)
  | notRegistered (kindOfObject : String) (id : Str)

variable {σ μ}

abbrev CodeOutcome (σ μ : Type) := Outcome σ μ (FacetMap σ) (Table Str μ)

abbrev Result (σ μ : Type) := CodeOutcome σ μ × ServantManager σ μ

def initial : ServantManager σ μ where
  hasInstance := true
  servantMapMap := .empty
  servantMapMapHint := none
  defaultServantMap := .empty
  locatorMap := .empty
  locatorMapHint := none

def returned : Except IllegalArgument Str → Str
  | .ok s => s
  | .error _ => []

/-- `ex.id` for a servant. -/
def servantId (ident : Identity) (facet : Str) : Str :=
  if facet = [] then returned (identityToString ident)
  else returned (identityToString ident) ++ text " -f " ++ returned (escapeString facet [])

/-- The search every operation starts with: `p = hint`, and `p = find(key)` where the hint is
the end or stands at another key. -/
def hinted {κ α : Type} [LinearOrder κ] (table : Table κ α) (hint : Option Iterator) (key : κ) :
    Except Fault (Option Iterator) :=
  match hint with
  | none => .ok (table.find key)
  | some iterator =>
      match table.deref iterator with
      | none => .error .danglingIterator
      | some node => if node.key ≠ key then .ok (table.find key) else .ok (some iterator)

def arrow {κ α : Type} [LinearOrder κ] (table : Table κ α) (iterator : Iterator) :
    Except Fault (Node κ α) :=
  match table.deref iterator with
  | none => .error .danglingIterator
  | some node => .ok node

def mustHaveInstance (manager : ServantManager σ μ) : Except Fault Unit :=
  if manager.hasInstance then .ok () else .error .assertion

def addServant (manager : ServantManager σ μ) (object : σ) (ident : Identity) (facet : Str) :
    Except Fault (Result σ μ) := do
  mustHaveInstance manager
  match ← hinted manager.servantMapMap manager.servantMapMapHint ident with
  | none =>
      let (inserted, p) := manager.servantMapMap.insert ident .empty
      .ok (.done, { manager with
        servantMapMap := inserted.modify p fun facets => (facets.insert facet object).1
        servantMapMapHint := some p })
  | some p =>
      let node ← arrow manager.servantMapMap p
      if (node.value.find facet).isSome then
        .ok (.alreadyRegistered "servant" (servantId ident facet), manager)
      else
        .ok (.done, { manager with
          servantMapMap := manager.servantMapMap.modify p fun facets =>
            (facets.insert facet object).1
          servantMapMapHint := some p })

def addDefaultServant (manager : ServantManager σ μ) (object : σ) (category : Str) :
    Except Fault (Result σ μ) := do
  mustHaveInstance manager
  match manager.defaultServantMap.find category with
  | some _ => .ok (.alreadyRegistered "default servant" category, manager)
  | none =>
      .ok (.done, { manager with
        defaultServantMap := (manager.defaultServantMap.insert category object).1 })

def eraseServants (manager : ServantManager σ μ) (p : Iterator) : ServantManager σ μ :=
  if some p = manager.servantMapMapHint then
    { manager with
      servantMapMap := manager.servantMapMap.erase p
      servantMapMapHint := manager.servantMapMap.next p }
  else
    { manager with servantMapMap := manager.servantMapMap.erase p }

def removeServant (manager : ServantManager σ μ) (ident : Identity) (facet : Str) :
    Except Fault (Result σ μ) := do
  mustHaveInstance manager
  match ← hinted manager.servantMapMap manager.servantMapMapHint ident with
  | none => .ok (.notRegistered "servant" (servantId ident facet), manager)
  | some p =>
      let node ← arrow manager.servantMapMap p
      match node.value.find facet with
      | none => .ok (.notRegistered "servant" (servantId ident facet), manager)
      | some q =>
          let servant ← arrow node.value q
          let left := node.value.erase q
          if left.nodes = [] then
            .ok (.servant (some servant.value), eraseServants manager p)
          else
            .ok (.servant (some servant.value), { manager with
              servantMapMap := manager.servantMapMap.modify p fun facets => facets.erase q })

def removeDefaultServant (manager : ServantManager σ μ) (category : Str) :
    Except Fault (Result σ μ) := do
  mustHaveInstance manager
  match manager.defaultServantMap.find category with
  | none => .ok (.notRegistered "default servant" category, manager)
  | some p =>
      let node ← arrow manager.defaultServantMap p
      .ok (.servant (some node.value), { manager with
        defaultServantMap := manager.defaultServantMap.erase p })

def removeAllFacets (manager : ServantManager σ μ) (ident : Identity) :
    Except Fault (Result σ μ) := do
  mustHaveInstance manager
  match ← hinted manager.servantMapMap manager.servantMapMapHint ident with
  | none => .ok (.notRegistered "servant" (servantId ident []), manager)
  | some p =>
      let node ← arrow manager.servantMapMap p
      .ok (.facets node.value, eraseServants manager p)

/-- The default servant of a category, as `findServant` and `findDefaultServant` look it up. -/
def defaultServant (manager : ServantManager σ μ) (category : Str) : Except Fault (Option σ) :=
  match manager.defaultServantMap.find category with
  | none => .ok none
  | some p => do
      let node ← arrow manager.defaultServantMap p
      .ok (some node.value)

/-- `findServant` where no servant is registered for the identity and facet. -/
def fallback (manager : ServantManager σ μ) (ident : Identity) : Except Fault (Result σ μ) := do
  match ← defaultServant manager ident.category with
  | some servant => .ok (.servant (some servant), manager)
  | none =>
      let servant ← defaultServant manager []
      .ok (.servant servant, manager)

def findServant (manager : ServantManager σ μ) (ident : Identity) (facet : Str) :
    Except Fault (Result σ μ) := do
  match ← hinted manager.servantMapMap manager.servantMapMapHint ident with
  | none => fallback manager ident
  | some p =>
      let node ← arrow manager.servantMapMap p
      match node.value.find facet with
      | none => fallback manager ident
      | some q =>
          let servant ← arrow node.value q
          .ok (.servant (some servant.value), { manager with servantMapMapHint := some p })

def findDefaultServant (manager : ServantManager σ μ) (category : Str) :
    Except Fault (Result σ μ) := do
  let servant ← defaultServant manager category
  .ok (.servant servant, manager)

def findAllFacets (manager : ServantManager σ μ) (ident : Identity) :
    Except Fault (Result σ μ) := do
  mustHaveInstance manager
  match ← hinted manager.servantMapMap manager.servantMapMapHint ident with
  | none => .ok (.facets .empty, manager)
  | some p =>
      let node ← arrow manager.servantMapMap p
      .ok (.facets node.value, { manager with servantMapMapHint := some p })

def hasServant (manager : ServantManager σ μ) (ident : Identity) : Except Fault (Result σ μ) := do
  match ← hinted manager.servantMapMap manager.servantMapMapHint ident with
  | none => .ok (.present false, manager)
  | some p =>
      let node ← arrow manager.servantMapMap p
      if node.value.nodes = [] then .error .assertion
      else .ok (.present true, { manager with servantMapMapHint := some p })

def addServantLocator (manager : ServantManager σ μ) (locator : μ) (category : Str) :
    Except Fault (Result σ μ) := do
  mustHaveInstance manager
  match ← hinted manager.locatorMap manager.locatorMapHint category with
  | some _ => .ok (.alreadyRegistered "servant locator" category, manager)
  | none =>
      let (inserted, p) := manager.locatorMap.insert category locator
      .ok (.done, { manager with locatorMap := inserted, locatorMapHint := some p })

def removeServantLocator (manager : ServantManager σ μ) (category : Str) :
    Except Fault (Result σ μ) := do
  mustHaveInstance manager
  match ← hinted manager.locatorMap manager.locatorMapHint category with
  | none => .ok (.notRegistered "servant locator" category, manager)
  | some p =>
      let node ← arrow manager.locatorMap p
      let left := manager.locatorMap.erase p
      .ok (.locator (some node.value), { manager with
        locatorMap := left, locatorMapHint := left.begin })

def findServantLocator (manager : ServantManager σ μ) (category : Str) :
    Except Fault (Result σ μ) := do
  match ← hinted manager.locatorMap manager.locatorMapHint category with
  | none => .ok (.locator none, manager)
  | some p =>
      let node ← arrow manager.locatorMap p
      .ok (.locator (some node.value), { manager with locatorMapHint := some p })

/-- The locators are deactivated in the order of their categories; what they throw is only
logged. -/
def destroy (manager : ServantManager σ μ) : Except Fault (Result σ μ) := do
  mustHaveInstance manager
  .ok (.deactivated manager.locatorMap, { manager with
    hasInstance := false
    servantMapMap := .empty
    servantMapMapHint := none
    locatorMap := .empty
    locatorMapHint := none })

def perform : Operation σ μ → ServantManager σ μ → Except Fault (Result σ μ)
  | .addServant object ident facet, manager => addServant manager object ident facet
  | .addDefaultServant object category, manager => addDefaultServant manager object category
  | .removeServant ident facet, manager => removeServant manager ident facet
  | .removeDefaultServant category, manager => removeDefaultServant manager category
  | .removeAllFacets ident, manager => removeAllFacets manager ident
  | .findServant ident facet, manager => findServant manager ident facet
  | .findDefaultServant category, manager => findDefaultServant manager category
  | .findAllFacets ident, manager => findAllFacets manager ident
  | .hasServant ident, manager => hasServant manager ident
  | .addServantLocator locator category, manager => addServantLocator manager locator category
  | .removeServantLocator category, manager => removeServantLocator manager category
  | .findServantLocator category, manager => findServantLocator manager category
  | .destroy, manager => destroy manager

end IceTouch.Servants
