import IceTouch.Ssl.DistinguishedNames
import IceTouch.Properties.PropertiesI

/-!
# The trust manager

`TrustManager` with the rules of the properties `IceSSL.TrustOnly*`, and when its decision is
the one that the entries ask for. An entry whose components all occur in a subject is passed
over if the subject has another value for one of their types as well.
-/

namespace IceTouch.Ssl

open Bytes WireTypes Escape Properties OrderedMap
open ByteOrder

/-- The inner loop of `match`: whether the type is found, unless its value is another one. -/
def matchComponent (component : Rdn) : List Rdn → Option Bool
  | [] => some false
  | other :: rest =>
      if component.1 = other.1 then
        if component.2 ≠ other.2 then none
        else (matchComponent component rest).map fun _ => true
      else
        matchComponent component rest

/-- `DistinguishedName::match`. -/
def DistinguishedName.matches_ (name other : DistinguishedName) : Bool :=
  other.unescaped.all fun component => matchComponent component name.unescaped = some true

abbrev Names := List DistinguishedName

structure AdapterNames where
  entries : List (Str × Names)
  nonempty : ∀ entry ∈ entries, entry.2 ≠ []

structure TrustManager where
  rejectAll : Names
  acceptAll : Names
  rejectClient : Names
  acceptClient : Names
  rejectAllServer : Names
  acceptAllServer : Names
  rejectServer : AdapterNames
  acceptServer : AdapterNames

def sortEntries : List RDNEntry → Except ParseException (Names × Names)
  | [] => .ok ([], [])
  | entry :: rest => do
      let name ← DistinguishedName.ofRdns entry.rdn
      let (reject, accept) ← sortEntries rest
      .ok (if entry.negate then (name :: reject, accept) else (reject, name :: accept))

/-- `TrustManager::parse`. -/
def parseRules (value : Str) : Except ParseException (Names × Names) :=
  if value ≠ [] then do
    let dns ← parse value
    sortEntries dns
  else .ok ([], [])

/-- `operator[]` and an assignment, for a list that is not empty. -/
def AdapterNames.add (map : AdapterNames) (name : Str) (names : Names) : AdapterNames :=
  if some : names ≠ [] then
    { entries := assign name names map.entries
      nonempty := by
        intro entry inside
        obtain rfl | old := mem_assign inside
        · exact some
        · exact map.nonempty entry old }
  else map

inductive PluginException where
  | pluginInitialization (reason : Str)
deriving DecidableEq

def invalidProperty {α : Type} (key : Str) :
    Except ParseException α → Except PluginException α
  | .error ex => .error (.pluginInitialization
      (text "IceSSL: invalid property " ++ key ++ text ":\n" ++ ex.reason))
  | .ok value => .ok value

def serverPrefix : Str := text "IceSSL.TrustOnly.Server."

def parseServers (reject accept : AdapterNames) :
    List (Str × Str) → Except PluginException (AdapterNames × AdapterNames)
  | [] => .ok (reject, accept)
  | (key, value) :: rest => do
      let name := key.drop serverPrefix.length
      let rules ← invalidProperty key (parseRules value)
      parseServers (reject.add name rules.1) (accept.add name rules.2) rest

def TrustManager.ofProperties {names : PropertyNames} (properties : PropertiesI names) :
    Except PluginException TrustManager := do
  let rules (key : String) :=
    invalidProperty (text key) (parseRules (properties.getProperty (text key)))
  let all ← rules "IceSSL.TrustOnly"
  let client ← rules "IceSSL.TrustOnly.Client"
  let allServer ← rules "IceSSL.TrustOnly.Server"
  let none : AdapterNames := ⟨[], List.forall_mem_nil _⟩
  let server ← parseServers none none (properties.getPropertiesForPrefix serverPrefix)
  .ok
    { rejectAll := all.1, acceptAll := all.2
      rejectClient := client.1, acceptClient := client.2
      rejectAllServer := allServer.1, acceptAllServer := allServer.2
      rejectServer := server.1, acceptServer := server.2 }

/-- What `verify` reads of a connection: of its certificates the names of their subjects. -/
structure NativeConnectionInfo where
  incoming : Bool
  adapterName : Str
  nativeCerts : List DistinguishedName

def applicable (all client allServer : Names) (server : AdapterNames)
    (info : NativeConnectionInfo) : List Names :=
  let nonempty (names : Names) := if 0 < names.length then [names] else []
  let direction :=
    if info.incoming then
      nonempty allServer ++
        if 0 < info.adapterName.length then
          (find info.adapterName server.entries).toList
        else []
    else nonempty client
  nonempty all ++ direction

def TrustManager.reject (manager : TrustManager) (info : NativeConnectionInfo) : List Names :=
  applicable manager.rejectAll manager.rejectClient manager.rejectAllServer manager.rejectServer
    info

def TrustManager.accept (manager : TrustManager) (info : NativeConnectionInfo) : List Names :=
  applicable manager.acceptAll manager.acceptClient manager.acceptAllServer manager.acceptServer
    info

/-- `TrustManager::match`. -/
def matchAny (matchSet : Names) (subject : DistinguishedName) : Bool :=
  matchSet.any fun name => subject.matches_ name

def TrustManager.verify (manager : TrustManager) (info : NativeConnectionInfo) : Bool :=
  let reject := manager.reject info
  let accept := manager.accept info
  if reject = [] ∧ accept = [] then true
  else
    match info.nativeCerts with
    | [] => false
    | subject :: _ =>
        if reject.any fun names => matchAny names subject then false
        else if accept.any fun names => matchAny names subject then true
        else decide (accept = [])

/-- Every component of the entry is one of the subject. -/
def Satisfied (entry subject : DistinguishedName) : Prop :=
  ∀ component ∈ entry.unescaped, component ∈ subject.unescaped

instance decidableSatisfied (entry subject : DistinguishedName) :
    Decidable (Satisfied entry subject) :=
  inferInstanceAs (Decidable (∀ component ∈ entry.unescaped, component ∈ subject.unescaped))

/-- The subject has another value for a type of the entry. -/
def Clashes (entry subject : DistinguishedName) : Prop :=
  ∃ component ∈ entry.unescaped, ∃ other ∈ subject.unescaped,
    other.1 = component.1 ∧ other.2 ≠ component.2

inductive Applies (all client allServer : Names) (server : AdapterNames)
    (info : NativeConnectionInfo) (entry : DistinguishedName) : Prop
  | all (inside : entry ∈ all)
  | client (outgoing : info.incoming = false) (inside : entry ∈ client)
  | server (incoming : info.incoming = true) (inside : entry ∈ allServer)
  | adapter (incoming : info.incoming = true) (named : info.adapterName ≠ []) (names : Names)
      (found : find info.adapterName server.entries = some names) (inside : entry ∈ names)

def TrustManager.Rejects (manager : TrustManager) (info : NativeConnectionInfo)
    (entry : DistinguishedName) : Prop :=
  Applies manager.rejectAll manager.rejectClient manager.rejectAllServer manager.rejectServer info
    entry

def TrustManager.Accepts (manager : TrustManager) (info : NativeConnectionInfo)
    (entry : DistinguishedName) : Prop :=
  Applies manager.acceptAll manager.acceptClient manager.acceptAllServer manager.acceptServer info
    entry

/-- No list applies, or there is a certificate that no entry rejects, and one accepts it or there
are none that could. -/
def TrustManager.Trusted (manager : TrustManager) (info : NativeConnectionInfo) : Prop :=
  (∀ entry, ¬manager.Rejects info entry ∧ ¬manager.Accepts info entry) ∨
    ∃ subject ∈ info.nativeCerts.head?,
      (∀ entry, manager.Rejects info entry → ¬Satisfied entry subject) ∧
      ((∀ entry, ¬manager.Accepts info entry) ∨
        ∃ entry, manager.Accepts info entry ∧ Satisfied entry subject)

/-- Clashes leave the decision as it is: where an entry rejects the subject, one of them does
not clash or all entries that accept it do; where only entries that accept it are satisfied,
one of them does not clash. -/
def TrustManager.Unmisled (manager : TrustManager) (info : NativeConnectionInfo) : Prop :=
  ∀ subject ∈ info.nativeCerts.head?,
    ((∃ entry, manager.Rejects info entry ∧ Satisfied entry subject) →
      (∃ entry, manager.Rejects info entry ∧ Satisfied entry subject ∧ ¬Clashes entry subject) ∨
      ((∃ entry, manager.Accepts info entry) ∧
        ∀ entry, manager.Accepts info entry → Satisfied entry subject → Clashes entry subject)) ∧
    ((∀ entry, manager.Rejects info entry → ¬Satisfied entry subject) →
      (∃ entry, manager.Accepts info entry ∧ Satisfied entry subject) →
      ∃ entry, manager.Accepts info entry ∧ Satisfied entry subject ∧ ¬Clashes entry subject)

theorem match_component_iff (component : Rdn) (names : List Rdn) :
    (matchComponent component names ≠ none ↔
      ∀ other ∈ names, other.1 = component.1 → other.2 = component.2) ∧
    (matchComponent component names = some true ↔ component ∈ names ∧
      ∀ other ∈ names, other.1 = component.1 → other.2 = component.2) := by
  induction names with
  | nil => simp [matchComponent]
  | cons head rest ih =>
      obtain ⟨total, found⟩ := ih
      rw [matchComponent, List.forall_mem_cons]
      by_cases sameType : component.1 = head.1
      · rw [if_pos sameType]
        by_cases sameValue : component.2 = head.2
        · have same : component = head := Prod.ext sameType sameValue
          rw [if_neg (not_not.mpr sameValue), ← total]
          cases matchComponent component rest <;> simp [same]
        · rw [if_pos sameValue]
          simp [sameType.symm, Ne.symm sameValue]
      · have other : component ≠ head := fun same => sameType (by rw [same])
        rw [if_neg sameType, total, found, List.mem_cons]
        simp [Ne.symm sameType, other]

theorem matches_iff (subject entry : DistinguishedName) :
    subject.matches_ entry = true ↔ Satisfied entry subject ∧ ¬Clashes entry subject := by
  have each (component : Rdn) := (match_component_iff component subject.unescaped).2
  simp only [DistinguishedName.matches_, List.all_eq_true, decide_eq_true_eq, each, Satisfied,
    Clashes]
  constructor
  · intro every
    refine ⟨fun component inside => (every component inside).1, ?_⟩
    rintro ⟨component, inside, other, among, sameType, different⟩
    exact different ((every component inside).2 other among sameType)
  · rintro ⟨satisfied, noClash⟩ component inside
    refine ⟨satisfied component inside, fun other among sameType => ?_⟩
    by_contra different
    exact noClash ⟨component, inside, other, among, sameType, different⟩

section Lists

variable {all client allServer : Names} {server : AdapterNames} {info : NativeConnectionInfo}

theorem applicable_entries (entry : DistinguishedName) :
    (∃ names ∈ applicable all client allServer server info, entry ∈ names) ↔
      Applies all client allServer server info entry := by
  have nonempty (names : Names) :
      (∃ found ∈ if 0 < names.length then [names] else [], entry ∈ found) ↔ entry ∈ names := by
    cases names with
    | nil => simp
    | cons name rest => simp
  simp only [applicable, List.mem_append, or_and_right, exists_or, nonempty]
  constructor
  · rintro (inside | ⟨names, among, inside⟩)
    · exact .all inside
    · by_cases incoming : info.incoming = true
      · rw [if_pos incoming] at among
        obtain here | there := List.mem_append.mp among
        · exact .server incoming ((nonempty allServer).mp ⟨names, here, inside⟩)
        · by_cases named : 0 < info.adapterName.length
          · rw [if_pos named] at there
            exact .adapter incoming (List.length_pos_iff.mp named) names
              (Option.mem_toList.mp there) inside
          · rw [if_neg named] at there
            cases there
      · rw [if_neg incoming] at among
        exact .client (by simpa using incoming) ((nonempty client).mp ⟨names, among, inside⟩)
  · intro applies
    cases applies with
    | all inside => exact .inl inside
    | client outgoing inside =>
        obtain ⟨names, among, inside⟩ := (nonempty client).mpr inside
        exact .inr ⟨names, by rw [if_neg (by simp [outgoing])]; exact among, inside⟩
    | server incoming inside =>
        obtain ⟨names, among, inside⟩ := (nonempty allServer).mpr inside
        refine .inr ⟨names, ?_, inside⟩
        rw [if_pos incoming]
        exact List.mem_append_left _ among
    | adapter incoming named names found inside =>
        refine .inr ⟨names, ?_, inside⟩
        rw [if_pos incoming, if_pos (List.length_pos_iff.mpr named)]
        exact List.mem_append_right _ (Option.mem_toList.mpr found)

theorem applicable_nonempty :
    ∀ names ∈ applicable all client allServer server info, names ≠ [] := by
  have nonempty (names : Names) : ∀ found ∈ if 0 < names.length then [names] else [],
      found ≠ [] := by
    cases names with
    | nil => simp
    | cons name rest => simp
  intro names inside
  obtain here | inside := List.mem_append.mp inside
  · exact nonempty all names here
  · by_cases incoming : info.incoming = true
    · rw [if_pos incoming] at inside
      obtain here | inside := List.mem_append.mp inside
      · exact nonempty allServer names here
      · by_cases named : 0 < info.adapterName.length
        · rw [if_pos named] at inside
          exact server.nonempty _ (mem_of_find (Option.mem_toList.mp inside))
        · rw [if_neg named] at inside
          cases inside
    · rw [if_neg incoming] at inside
      exact nonempty client names inside

theorem applicable_none :
    applicable all client allServer server info = [] ↔
      ∀ entry, ¬Applies all client allServer server info entry := by
  constructor
  · intro none entry applies
    obtain ⟨names, among, _⟩ := (applicable_entries entry).mpr applies
    rw [none] at among
    cases among
  · intro none
    by_contra some
    obtain ⟨names, among⟩ := List.exists_mem_of_ne_nil _ some
    obtain ⟨entry, inside⟩ := List.exists_mem_of_ne_nil _ (applicable_nonempty names among)
    exact none entry ((applicable_entries entry).mp ⟨names, among, inside⟩)

theorem applicable_matches (subject : DistinguishedName) :
    ((applicable all client allServer server info).any fun names => matchAny names subject) = true ↔
      ∃ entry, Applies all client allServer server info entry ∧ Satisfied entry subject ∧
        ¬Clashes entry subject := by
  simp only [matchAny, List.any_eq_true, matches_iff, ← applicable_entries]
  constructor
  · rintro ⟨names, among, entry, inside, isMatch⟩
    exact ⟨entry, ⟨names, among, inside⟩, isMatch⟩
  · rintro ⟨entry, ⟨names, among, inside⟩, isMatch⟩
    exact ⟨names, among, entry, inside, isMatch⟩

end Lists

theorem verify_iff (manager : TrustManager) (info : NativeConnectionInfo) :
    manager.verify info = true ↔
      (∀ entry, ¬manager.Rejects info entry ∧ ¬manager.Accepts info entry) ∨
        ∃ subject ∈ info.nativeCerts.head?,
          (¬∃ entry, manager.Rejects info entry ∧ Satisfied entry subject ∧
            ¬Clashes entry subject) ∧
          ((∀ entry, ¬manager.Accepts info entry) ∨
            ∃ entry, manager.Accepts info entry ∧ Satisfied entry subject ∧
              ¬Clashes entry subject) := by
  have noReject : manager.reject info = [] ↔ ∀ entry, ¬manager.Rejects info entry :=
    applicable_none
  have noAccept : manager.accept info = [] ↔ ∀ entry, ¬manager.Accepts info entry :=
    applicable_none
  unfold TrustManager.verify
  dsimp only
  by_cases free : manager.reject info = [] ∧ manager.accept info = []
  · rw [if_pos free]
    exact iff_of_true rfl
      (.inl fun entry => ⟨noReject.mp free.1 entry, noAccept.mp free.2 entry⟩)
  · rw [if_neg free]
    have some : ¬∀ entry, ¬manager.Rejects info entry ∧ ¬manager.Accepts info entry :=
      fun none => free ⟨noReject.mpr fun entry => (none entry).1,
        noAccept.mpr fun entry => (none entry).2⟩
    rw [or_iff_right some]
    cases info.nativeCerts with
    | nil => simp
    | cons subject rest =>
        have rejected : ((manager.reject info).any fun names => matchAny names subject) = true ↔
            ∃ entry, manager.Rejects info entry ∧ Satisfied entry subject ∧
              ¬Clashes entry subject := applicable_matches subject
        have accepted : ((manager.accept info).any fun names => matchAny names subject) = true ↔
            ∃ entry, manager.Accepts info entry ∧ Satisfied entry subject ∧
              ¬Clashes entry subject := applicable_matches subject
        dsimp only
        simp only [List.head?_cons, Option.mem_some_iff, exists_eq_left', ← rejected, ← accepted,
          ← noAccept]
        cases (manager.reject info).any fun names => matchAny names subject
        · cases (manager.accept info).any fun names => matchAny names subject <;> simp
        · simp

/-- The decision is the one the entries ask for exactly when it is not misled by clashes. For a
subject with more components a satisfied entry matches unless it clashes. -/
theorem verify_trusted (manager : TrustManager) :
    (∀ info, (manager.verify info = true ↔ manager.Trusted info) ↔ manager.Unmisled info) ∧
    ∀ entry subject more : DistinguishedName, Satisfied entry subject →
      subject.unescaped ⊆ more.unescaped →
      (more.matches_ entry = true ↔ ¬Clashes entry more) := by
  constructor
  · intro info
    rw [verify_iff, TrustManager.Trusted, TrustManager.Unmisled]
    by_cases free : ∀ entry, ¬manager.Rejects info entry ∧ ¬manager.Accepts info entry
    · refine iff_of_true (iff_of_true (.inl free) (.inl free)) fun subject _ => ⟨?_, ?_⟩
      · rintro ⟨entry, rejects, _⟩
        exact absurd rejects (free entry).1
      · rintro _ ⟨entry, accepts, _⟩
        exact absurd accepts (free entry).2
    · rw [or_iff_right free, or_iff_right free]
      cases info.nativeCerts.head? with
      | none => simp
      | some subject =>
          simp only [Option.mem_some_iff, exists_eq_left', forall_eq']
          constructor
          · intro same
            constructor
            · rintro ⟨entry, rejects, satisfied⟩
              by_cases matched : ∃ entry, manager.Rejects info entry ∧ Satisfied entry subject ∧
                  ¬Clashes entry subject
              · exact .inl matched
              · have refused := fun accepted =>
                  (same.mp ⟨matched, accepted⟩).1 entry rejects satisfied
                have some : ∃ entry, manager.Accepts info entry := by
                  by_contra none
                  exact refused (.inl fun other accepts => none ⟨other, accepts⟩)
                refine .inr ⟨some, fun other accepts satisfied => ?_⟩
                by_contra clashes
                exact refused (.inr ⟨other, accepts, satisfied, clashes⟩)
            · rintro unrejected ⟨entry, accepts, satisfied⟩
              obtain none | found :=
                (same.mpr ⟨unrejected, .inr ⟨entry, accepts, satisfied⟩⟩).2
              · exact absurd accepts (none entry)
              · exact found
          · rintro ⟨rejecting, accepting⟩
            constructor
            · rintro ⟨unmatched, accepted⟩
              have unrejected : ∀ entry, manager.Rejects info entry → ¬Satisfied entry subject := by
                intro entry rejects satisfied
                obtain matched | ⟨⟨other, accepts⟩, clashing⟩ :=
                  rejecting ⟨entry, rejects, satisfied⟩
                · exact unmatched matched
                · obtain none | ⟨found, foundAccepts, foundSatisfied, noClash⟩ := accepted
                  · exact none other accepts
                  · exact noClash (clashing found foundAccepts foundSatisfied)
              obtain none | ⟨found, accepts, satisfied, _⟩ := accepted
              · exact ⟨unrejected, .inl none⟩
              · exact ⟨unrejected, .inr ⟨found, accepts, satisfied⟩⟩
            · rintro ⟨unrejected, accepted⟩
              refine ⟨?_, accepted.imp_right (accepting unrejected)⟩
              rintro ⟨entry, rejects, satisfied, _⟩
              exact unrejected entry rejects satisfied
  · intro entry subject more satisfied grown
    have still : Satisfied entry more :=
      fun component inside => grown (satisfied component inside)
    rw [matches_iff]
    exact and_iff_right still

def comName : DistinguishedName :=
  ⟨[(text "DC", text "com")], [(text "DC", text "com")], rfl⟩

def evilCom : DistinguishedName :=
  ⟨[(text "DC", text "evil"), (text "DC", text "com")],
    [(text "DC", text "evil"), (text "DC", text "com")], rfl⟩

/-- What `IceSSL.TrustOnly=!DC=com` makes. -/
def rejectCom : TrustManager where
  rejectAll := [comName]
  acceptAll := []
  rejectClient := []
  acceptClient := []
  rejectAllServer := []
  acceptAllServer := []
  rejectServer := ⟨[], List.forall_mem_nil _⟩
  acceptServer := ⟨[], List.forall_mem_nil _⟩

theorem second_component_trusted :
    rejectCom.verify ⟨true, [], [evilCom]⟩ = true ∧ ¬rejectCom.Trusted ⟨true, [], [evilCom]⟩ := by
  have rejects : rejectCom.Rejects ⟨true, [], [evilCom]⟩ comName := .all List.mem_cons_self
  have satisfied : Satisfied comName evilCom := by decide
  refine ⟨by decide, ?_⟩
  rintro (free | ⟨subject, presented, unrejected, _⟩)
  · exact (free comName).1 rejects
  · rw [← Option.some.inj presented] at unrejected
    exact unrejected comName rejects satisfied

end IceTouch.Ssl
