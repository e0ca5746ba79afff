import IceTouch.Library.Lists
import IceTouch.Library.Machine
import IceTouch.Library.Results
import IceTouch.Metrics.Retention

/-!
# Observers and the entries they hold

The calls of an observer factory and of its observers, one hold of a map's lock at a time. The
calls of a party come one after the other, and those of several parties interleave.
-/

namespace IceTouch.Metrics

open ByteOrder WireTypes OrderedMap

structure Ref where
  map : Nat
  entry : Nat
deriving DecidableEq

structure Observer where
  objects : List Ref
  previousDelay : Int

def Observer.getEntry (map : Nat) (observer : Observer) : Option Nat :=
  (observer.objects.find? fun ref => ref.map = map).map Ref.entry

inductive Party where
  | matching (helper : Helper) (old : Option Observer) (found : List Ref) (rest : List Nat)
  | replacing (observer : Observer) (rest : List Ref)
  | live (observer : Observer)
  | detaching (lifetime : Int) (rest : List Ref)
  | gone

def looked (map : Nat) (found : List Ref) : Option Nat → List Ref
  | none => found
  | some entry => found ++ [{ map := map, entry := entry }]

/-- The entries have been looked up; `delay` is what the watch of the old observer shows. -/
def matched (old : Option Observer) (found : List Ref) (delay : Int) : Party :=
  match old, found with
  | none, [] => .gone
  | some old, [] => .detaching (old.previousDelay + delay) old.objects
  | none, found => .live { objects := found, previousDelay := 0 }
  | some old, found =>
      .replacing { objects := found, previousDelay := old.previousDelay + delay } old.objects

structure System where
  maps : Nat → MetricsMap
  parties : List Party
  fault : Option (Nat × Fault)

inductive Event where
  /-- `maps` are those of the factory when the call takes its lock. -/
  | getObserver (helper : Helper) (maps : List Nat)
  | replace (party : Nat) (helper : Helper) (maps : List Nat)
  | detach (party : Nat) (delay : Int)
  | advance (party : Nat) (delay : Int)
  | destroy (map : Nat)

namespace System

def set (party : Nat) (after : Party) (system : System) : System :=
  { system with parties := system.parties.set party after }

def locked (map party : Nat) (result : Except Fault (Party × MetricsMap)) (system : System) :
    System :=
  match result with
  | .error fault => { system with fault := some (map, fault) }
  | .ok (after, changed) =>
      { system with
        maps := Function.update system.maps map changed
        parties := system.parties.set party after }

def advance (party : Nat) (delay : Int) (system : System) : Party → Option System
  | .matching _ old found [] => some (system.set party (matched old found delay))
  | .matching helper old found (map :: rest) =>
      let previous := old.bind fun old => old.getEntry map
      let result := (system.maps map).getMatching helper previous
      some (system.locked map party (result.map fun result =>
        (.matching helper old (looked map found result.1) rest, result.2)))
  | .replacing observer [] => some (system.set party (.live observer))
  | .replacing observer (ref :: rest) =>
      if ref ∈ observer.objects then
        some (system.set party (.replacing observer rest))
      else
        let result := (system.maps ref.map).detach ref.entry observer.previousDelay
        some (system.locked ref.map party (result.map fun map => (.replacing observer rest, map)))
  | .detaching _ [] => some (system.set party .gone)
  | .detaching lifetime (ref :: rest) =>
      let result := (system.maps ref.map).detach ref.entry lifetime
      some (system.locked ref.map party (result.map fun map => (.detaching lifetime rest, map)))
  | .live _ => none
  | .gone => none

/-- Nothing happens after a fault, and a factory has no map twice. -/
def step (event : Event) (system : System) : Option System :=
  if system.fault.isSome then
    none
  else
    match event with
    | .getObserver helper maps =>
        if maps.Nodup then
          some { system with parties := system.parties ++ [.matching helper none [] maps] }
        else
          none
    | .replace party helper maps =>
        match system.parties[party]? with
        | some (.live old) =>
            if maps.Nodup then some (system.set party (.matching helper (some old) [] maps))
            else none
        | _ => none
    | .detach party delay =>
        match system.parties[party]? with
        | some (.live observer) =>
            some (system.set party (.detaching (observer.previousDelay + delay) observer.objects))
        | _ => none
    | .advance party delay => system.parties[party]?.bind (system.advance party delay)
    | .destroy map =>
        some { system with maps := Function.update system.maps map (system.maps map).destroy }

def new (settings : Nat → Settings) : System :=
  { maps := fun map => MetricsMap.new (settings map), parties := [], fault := none }

end System

namespace Party

def refs : Party → List Ref
  | matching _ none found _ => found
  | matching _ (some old) found _ => old.objects ++ found
  | replacing observer rest => observer.objects ++ rest
  | live observer => observer.objects
  | detaching _ rest => rest
  | gone => []

def Distinct (refs : List Ref) : Prop :=
  (refs.map Ref.map).Nodup

theorem mem_matching {helper : Helper} {old : Option Observer} {found : List Ref}
    {rest : List Nat} {ref : Ref} :
    ref ∈ (matching helper old found rest).refs ↔
      (∃ observer, old = some observer ∧ ref ∈ observer.objects) ∨ ref ∈ found := by
  cases old with
  | none => simp [refs]
  | some observer => simp [refs]

def WellFormed : Party → Prop
  | matching _ old found rest =>
      (∀ observer, old = some observer → Distinct observer.objects) ∧ Distinct found ∧
        rest.Nodup ∧ ∀ ref ∈ found, ref.map ∉ rest
  | replacing observer rest => Distinct observer.objects ∧ Distinct rest
  | live observer => Distinct observer.objects
  | detaching _ rest => Distinct rest
  | gone => True

end Party

def System.holders (ref : Ref) (system : System) : Nat :=
  system.parties.countP fun party => decide (ref ∈ party.refs)

section entries

variable {observer : Observer} {map id : Nat}

theorem get_entry_mem (found : observer.getEntry map = some id) :
    { map := map, entry := id } ∈ observer.objects := by
  obtain ⟨ref, isFirst, same⟩ := Option.map_eq_some_iff.mp found
  have here : ref.map = map := by
    have passed := List.find?_some isFirst
    exact of_decide_eq_true passed
  have shape : ref = { map := map, entry := id } := by
    cases ref
    simp only at here same
    rw [here, same]
  rw [← shape]
  exact List.mem_of_find?_eq_some isFirst

theorem get_entry_of_mem (distinct : Party.Distinct observer.objects)
    (inside : { map := map, entry := id } ∈ observer.objects) :
    observer.getEntry map = some id := by
  rw [Observer.getEntry]
  cases found : observer.objects.find? fun ref => ref.map = map with
  | none =>
      rw [List.find?_eq_none] at found
      exact absurd (decide_eq_true rfl) (found _ inside)
  | some ref =>
      have here : ref.map = map := by
        have passed := List.find?_some found
        exact of_decide_eq_true passed
      have same := List.inj_on_of_nodup_map distinct (List.mem_of_find?_eq_some found) inside here
      rw [same]
      rfl

end entries

namespace MetricsMap

/-- A map that is destroyed, where it may be, only counts. -/
def Sound (limit : Int) (destroyable : Prop) (map : MetricsMap) : Prop :=
  (destroyable ∧ map.destroyed) ∨ Kept limit none map

variable {map : MetricsMap} {limit : Int} {destroyable : Prop}

theorem Sound.getMatching (sound : map.Sound limit destroyable) (helper : Helper) {previous : Option Nat}
    (held : ∀ id, previous = some id → (map.entries id).current ≠ 0) :
    map.getMatching helper previous = .ok (none, map) ∨
      ∃ id after, map.getMatching helper previous = .ok (some id, after) ∧ after.Sound limit destroyable ∧
        ((previous = some id ∧ after = map) ∨
          (previous ≠ some id ∧ ∀ other, (after.entries other).current =
            (map.entries other).current + if other = id then 1 else 0)) := by
  by_cases accepted : map.settings.accepts helper
  · rw [MetricsMap.getMatching, if_pos accepted]
    cases map.settings.key helper with
    | none => exact .inl rfl
    | some key =>
        obtain destroyed | kept := sound
        · left
          dsimp only
          rw [MetricsMap.lookup, if_pos destroyed.2]
        · obtain ⟨id, after, done, keeps, counts⟩ :=
            kept.lookup key fun id same => kept.held id (held id same)
          exact .inr ⟨id, after, done, .inr keeps, counts⟩
  · rw [MetricsMap.getMatching, if_neg accepted]
    exact .inl rfl

theorem Sound.detach (sound : map.Sound limit destroyable) {id : Nat} (attached : 1 ≤ (map.entries id).current)
    (lifetime : Int) :
    ∃ after, map.detach id lifetime = .ok after ∧ after.Sound limit destroyable ∧
      ∀ other, (after.entries other).current =
        (map.entries other).current - if other = id then 1 else 0 := by
  obtain destroyed | kept := sound
  · refine ⟨map.change id ((map.entries id).detach lifetime), ?_, .inl destroyed, ?_⟩
    · rw [MetricsMap.detach]
      split
      · exact if_pos (Or.inr destroyed.2)
      · rfl
    · intro other
      by_cases same : other = id
      · rw [same, change_self, if_pos rfl]
        rfl
      · rw [change_other same, if_neg same, Int.sub_zero]
  · obtain ⟨after, done, keeps, counts⟩ := kept.detach attached lifetime
    exact ⟨after, done, .inr keeps, counts⟩

end MetricsMap

namespace System

/-- The invariant of the system, as it concerns one map. -/
structure Consistent (limit : Int) (destroyable : Prop) (map : Nat) (system : System) :
    Prop where
  formed : ∀ party ∈ system.parties, party.WellFormed
  sound : (system.maps map).Sound limit destroyable
  counted : ∀ id, ((system.maps map).entries id).current =
    system.holders { map := map, entry := id }
  faultless : ∀ fault, system.fault ≠ some (map, fault)

variable {limit : Int} {destroyable : Prop} {map party : Nat} {system : System}
  {before after : Party}

theorem formed_set (formed : ∀ party ∈ system.parties, party.WellFormed)
    (wellFormed : after.WellFormed) :
    ∀ other ∈ system.parties.set party after, other.WellFormed := by
  intro other inside
  obtain old | new := List.mem_or_eq_of_mem_set inside
  · exact formed other old
  · rw [new]
    exact wellFormed

theorem holders_set (there : system.parties[party]? = some before) (after : Party) (ref : Ref) :
    ((system.set party after).holders ref : Int) =
      system.holders ref + (if ref ∈ after.refs then 1 else 0) -
        if ref ∈ before.refs then 1 else 0 := by
  have counted := Lists.count_replaced (fun party : Party => decide (ref ∈ party.refs)) after there
  simpa [holders, set] using counted

variable {ref : Ref} {target : Nat} {helper : Helper} {old : Option Observer}
  {settings : Nat → Settings}

theorem holders_same (there : system.parties[party]? = some before)
    (same : ref ∈ after.refs ↔ ref ∈ before.refs) :
    (system.set party after).holders ref = system.holders ref := by
  have counted := holders_set there after ref
  simp only [same] at counted
  omega

section

variable (consistent : Consistent limit destroyable map system)

include consistent

section

variable (there : system.parties[party]? = some before)

include there

theorem Consistent.set (wellFormed : after.WellFormed)
    (same : ∀ ref, ref ∈ after.refs ↔ ref ∈ before.refs) :
    Consistent limit destroyable map (system.set party after) where
  formed := formed_set consistent.formed wellFormed
  sound := consistent.sound
  counted := by
    intro id
    rw [holders_same there (same _)]
    exact consistent.counted id
  faultless := consistent.faultless

/-- A party holds the lock of a map: of the one the invariant is about, or of another one. -/
theorem Consistent.locked {result : Except Fault (Party × MetricsMap)}
    (formed : ∀ after changed, result = .ok (after, changed) → after.WellFormed)
    (here : target = map → ∃ after changed, result = .ok (after, changed) ∧ changed.Sound limit destroyable ∧
      ∀ id, (changed.entries id).current = ((system.maps map).entries id).current +
        (if { map := map, entry := id } ∈ after.refs then 1 else 0) -
          if { map := map, entry := id } ∈ before.refs then 1 else 0)
    (elsewhere : target ≠ map → ∀ after changed, result = .ok (after, changed) →
      ∀ id, { map := map, entry := id } ∈ after.refs ↔ { map := map, entry := id } ∈ before.refs) :
    Consistent limit destroyable map (system.locked target party result) := by
  by_cases same : target = map
  · obtain ⟨after, changed, done, sound, counts⟩ := here same
    rw [done, System.locked, same]
    exact
      { formed := formed_set consistent.formed (formed after changed done)
        sound := by
          dsimp only
          rw [Function.update_self]
          exact sound
        counted := by
          intro id
          have moved := holders_set there after { map := map, entry := id }
          have counted := consistent.counted id
          dsimp only
          rw [Function.update_self, counts id, counted]
          exact moved.symm
        faultless := consistent.faultless }
  · cases done : result with
    | error fault =>
        exact
          { formed := consistent.formed
            sound := consistent.sound
            counted := consistent.counted
            faultless := by
              intro other failed
              simp only [System.locked, Option.some.injEq, Prod.mk.injEq] at failed
              exact same failed.1 }
    | ok pair =>
        obtain ⟨after, changed⟩ := pair
        have untouched : Function.update system.maps target changed map = system.maps map :=
          Function.update_of_ne (Ne.symm same) _ _
        exact
          { formed := formed_set consistent.formed (formed after changed done)
            sound := by
              rw [System.locked]
              dsimp only
              rw [untouched]
              exact consistent.sound
            counted := by
              intro id
              have held := holders_same there (elsewhere same after changed done id)
              rw [System.locked]
              dsimp only
              rw [untouched, consistent.counted id, ← held]
              rfl
            faultless := consistent.faultless }

theorem Consistent.attached {id : Nat} (held : { map := map, entry := id } ∈ before.refs) :
    1 ≤ ((system.maps map).entries id).current := by
  rw [consistent.counted id]
  have positive : 0 < system.holders { map := map, entry := id } :=
    List.countP_pos_iff.mpr ⟨before, List.mem_of_getElem? there, decide_eq_true held⟩
  omega

theorem Consistent.detach {lifetime : Int} (wellFormed : after.WellFormed) (had : ref ∈ before.refs)
    (left : ref ∉ after.refs)
    (others : ∀ other, other ≠ ref → (other ∈ after.refs ↔ other ∈ before.refs)) :
    Consistent limit destroyable map (system.locked ref.map party
      (((system.maps ref.map).detach ref.entry lifetime).map fun map => (after, map))) := by
  have inversion : ∀ result changed,
      ((system.maps ref.map).detach ref.entry lifetime).map (fun map => (after, map)) =
        .ok (result, changed) → result = after := by
    intro result changed done
    obtain ⟨_, _, same⟩ := Results.map_ok done
    exact (congrArg Prod.fst same).symm
  apply consistent.locked there
  · intro result changed done
    rw [inversion result changed done]
    exact wellFormed
  · intro same
    obtain ⟨there', entry⟩ := ref
    simp only at same had left others ⊢
    subst same
    obtain ⟨changed, done, sound, counts⟩ :=
      consistent.sound.detach (consistent.attached there had) lifetime
    refine ⟨after, changed, ?_, sound, ?_⟩
    · rw [done]
      rfl
    · intro id
      rw [counts id]
      by_cases same : id = entry
      · subst same
        rw [if_pos rfl, if_neg left, if_pos had]
        omega
      · have other := others { map := there', entry := id } (by simp [same])
        rw [if_neg same]
        simp only [other]
        omega
  · intro different result changed done id
    rw [inversion result changed done]
    apply others
    intro same
    exact different (congrArg Ref.map same).symm

end

end

variable {found : List Ref}

theorem looked_formed {rest : List Nat} (result : Option Nat)
    (formed : (Party.matching helper old found (target :: rest)).WellFormed) :
    (Party.matching helper old (looked target found result) rest).WellFormed := by
  obtain ⟨ofOld, distinct, nodup, apart⟩ := formed
  rw [List.nodup_cons] at nodup
  cases result with
  | none =>
      refine ⟨ofOld, distinct, nodup.2, ?_⟩
      intro ref inside later
      exact apart ref inside (List.mem_cons_of_mem target later)
  | some entry =>
      refine ⟨ofOld, ?_, nodup.2, ?_⟩
      · rw [Party.Distinct, looked, List.map_append, List.nodup_append]
        refine ⟨distinct, List.pairwise_singleton _ _, ?_⟩
        intro map before other last same
        obtain ⟨ref, inside, here⟩ := List.mem_map.mp before
        apply apart ref inside
        rw [here, same, List.mem_singleton.mp last]
        exact List.mem_cons_self
      · intro ref inside later
        obtain before | last := List.mem_append.mp inside
        · exact apart ref before (List.mem_cons_of_mem target later)
        · rw [List.mem_singleton.mp last] at later
          exact nodup.1 later

theorem mem_looked {entry : Nat} :
    ref ∈ looked target found (some entry) ↔
      ref ∈ found ∨ ref = { map := target, entry := entry } := by
  simp [looked]

theorem Consistent.getMatching (consistent : Consistent limit destroyable map system)
    {rest : List Nat}
    (there : system.parties[party]? = some (.matching helper old found (target :: rest))) :
    Consistent limit destroyable map (system.locked target party
      (((system.maps target).getMatching helper (old.bind fun old => old.getEntry target)).map
        fun result => (.matching helper old (looked target found result.1) rest, result.2))) := by
  have formed := consistent.formed _ (List.mem_of_getElem? there)
  have apart := formed.2.2.2
  apply consistent.locked there
  · intro after changed done
    obtain ⟨result, _, same⟩ := Results.map_ok done
    have party : Party.matching helper old (looked target found result.1) rest = after :=
      congrArg Prod.fst same
    rw [← party]
    exact looked_formed result.1 formed
  · intro same
    subst same
    have held : ∀ id, old.bind (fun old => old.getEntry target) = some id →
        ∃ observer, old = some observer ∧ { map := target, entry := id } ∈ observer.objects := by
      intro id found
      obtain ⟨observer, isOld, entry⟩ := Option.bind_eq_some_iff.mp found
      exact ⟨observer, isOld, get_entry_mem entry⟩
    have attached : ∀ id, old.bind (fun old => old.getEntry target) = some id →
        ((system.maps target).entries id).current ≠ 0 := by
      intro id found
      have counted := consistent.attached there (Party.mem_matching.mpr (.inl (held id found)))
      omega
    obtain nothing | ⟨id, after, done, sound, kept | fresh⟩ :=
      consistent.sound.getMatching helper attached
    · refine ⟨.matching helper old found rest, system.maps target, ?_, consistent.sound, ?_⟩
      · rw [nothing]
        rfl
      · intro id
        simp only [Party.mem_matching]
        omega
    · refine ⟨.matching helper old (looked target found (some id)) rest, after, ?_, sound, ?_⟩
      · rw [done]
        rfl
      · intro other
        have same : { map := target, entry := other } ∈
            (Party.matching helper old (looked target found (some id)) rest).refs ↔
              { map := target, entry := other } ∈
                (Party.matching helper old found (target :: rest)).refs := by
          rw [Party.mem_matching, Party.mem_matching, mem_looked]
          constructor
          · rintro (ofOld | before | new)
            · exact .inl ofOld
            · exact .inr before
            · rw [new]
              exact .inl (held id kept.1)
          · rintro (ofOld | before)
            · exact .inl ofOld
            · exact .inr (.inl before)
        rw [kept.2]
        simp only [same]
        omega
    · refine ⟨.matching helper old (looked target found (some id)) rest, after, ?_, sound, ?_⟩
      · rw [done]
        rfl
      · intro other
        have absent : { map := target, entry := id } ∉
            (Party.matching helper old found (target :: rest)).refs := by
          rw [Party.mem_matching]
          rintro (⟨observer, isOld, inside⟩ | before)
          · apply fresh.1
            rw [isOld]
            exact get_entry_of_mem (formed.1 observer isOld) inside
          · exact apart _ before List.mem_cons_self
        rw [fresh.2 other]
        by_cases same : other = id
        · subst same
          have now : { map := target, entry := other } ∈
              (Party.matching helper old (looked target found (some other)) rest).refs :=
            Party.mem_matching.mpr (.inr (mem_looked.mpr (.inr rfl)))
          rw [if_pos rfl, if_pos now, if_neg absent]
          omega
        · have unchanged : { map := target, entry := other } ∈
              (Party.matching helper old (looked target found (some id)) rest).refs ↔
                { map := target, entry := other } ∈
                  (Party.matching helper old found (target :: rest)).refs := by
            rw [Party.mem_matching, Party.mem_matching, mem_looked]
            simp [same]
          rw [if_neg same]
          simp only [unchanged]
          omega
  · intro different after changed done id
    obtain ⟨result, _, same⟩ := Results.map_ok done
    have party : Party.matching helper old (looked target found result.1) rest = after :=
      congrArg Prod.fst same
    rw [← party, Party.mem_matching, Party.mem_matching]
    cases result.1 with
    | none => exact Iff.rfl
    | some entry =>
        rw [mem_looked]
        simp [Ne.symm different]

theorem Consistent.matched (consistent : Consistent limit destroyable map system) {delay : Int}
    (there : system.parties[party]? = some (.matching helper old found [])) :
    Consistent limit destroyable map (system.set party (matched old found delay)) := by
  obtain ⟨ofOld, distinct, _, _⟩ := consistent.formed _ (List.mem_of_getElem? there)
  apply consistent.set there
  · cases old with
    | none =>
        cases found with
        | nil => trivial
        | cons ref found => exact distinct
    | some observer =>
        cases found with
        | nil => exact ofOld observer rfl
        | cons ref found => exact ⟨distinct, ofOld observer rfl⟩
  · intro ref
    rw [Party.mem_matching]
    cases old with
    | none =>
        cases found with
        | nil => simp [Metrics.matched, Party.refs]
        | cons first found => simp [Metrics.matched, Party.refs]
    | some observer =>
        cases found with
        | nil => simp [Metrics.matched, Party.refs]
        | cons first found =>
            simp only [Metrics.matched, Party.refs, List.mem_append, Option.some.injEq,
              exists_eq_left']
            exact or_comm

theorem distinct_tail {rest : List Ref} (distinct : Party.Distinct (ref :: rest)) :
    Party.Distinct rest ∧ ref ∉ rest := by
  obtain ⟨absent, tail⟩ := List.nodup_cons.mp distinct
  exact ⟨tail, fun inside => absent (List.mem_map.mpr ⟨ref, inside, rfl⟩)⟩

theorem Consistent.advance (consistent : Consistent limit destroyable map system) {delay : Int} {later : System}
    (there : system.parties[party]? = some before)
    (stepped : system.advance party delay before = some later) : Consistent limit destroyable map later := by
  have formed := consistent.formed _ (List.mem_of_getElem? there)
  cases before with
  | matching helper old found rest =>
      cases rest with
      | nil =>
          rw [← Option.some.inj stepped]
          exact consistent.matched there
      | cons target rest =>
          rw [← Option.some.inj stepped]
          exact consistent.getMatching there
  | replacing observer rest =>
      cases rest with
      | nil =>
          rw [← Option.some.inj stepped]
          exact consistent.set there formed.1 (by simp [Party.refs])
      | cons ref rest =>
          rw [System.advance] at stepped
          have tail := distinct_tail formed.2
          by_cases kept : ref ∈ observer.objects
          · rw [if_pos kept] at stepped
            rw [← Option.some.inj stepped]
            apply consistent.set there
            · exact ⟨formed.1, tail.1⟩
            · intro other
              simp only [Party.refs, List.mem_append, List.mem_cons]
              constructor
              · rintro (new | later)
                · exact .inl new
                · exact .inr (.inr later)
              · rintro (new | here | later)
                · exact .inl new
                · exact .inl (here ▸ kept)
                · exact .inr later
          · rw [if_neg kept] at stepped
            rw [← Option.some.inj stepped]
            apply consistent.detach there
            · exact ⟨formed.1, tail.1⟩
            · simp [Party.refs]
            · simp [Party.refs, kept, tail.2]
            · intro other different
              simp [Party.refs, different]
  | live observer => cases stepped
  | detaching lifetime rest =>
      cases rest with
      | nil =>
          rw [← Option.some.inj stepped]
          exact consistent.set there trivial (by simp [Party.refs])
      | cons ref rest =>
          rw [← Option.some.inj stepped]
          have tail := distinct_tail formed
          apply consistent.detach there
          · exact tail.1
          · simp [Party.refs]
          · exact tail.2
          · intro other different
            simp [Party.refs, different]
  | gone => cases stepped

theorem Consistent.step (consistent : Consistent limit destroyable map system) {event : Event}
    (spared : event = .destroy map → destroyable) {later : System}
    (stepped : system.step event = some later) : Consistent limit destroyable map later := by
  unfold System.step at stepped
  by_cases failed : system.fault.isSome
  · rw [if_pos failed] at stepped
    cases stepped
  · rw [if_neg failed] at stepped
    cases event with
    | getObserver helper maps =>
        by_cases nodup : maps.Nodup
        · simp only [nodup, if_true, Option.some.injEq] at stepped
          rw [← stepped]
          exact
            { formed := by
                intro party inside
                obtain before | new := List.mem_append.mp inside
                · exact consistent.formed party before
                · rw [List.mem_singleton.mp new]
                  exact ⟨by simp, .nil, nodup, by simp⟩
              sound := consistent.sound
              counted := by
                intro id
                rw [consistent.counted id]
                simp [holders, Party.refs]
              faultless := consistent.faultless }
        · simp [nodup] at stepped
    | replace party helper maps =>
        dsimp only at stepped
        cases there : system.parties[party]? with
        | none =>
            rw [there] at stepped
            cases stepped
        | some before =>
            rw [there] at stepped
            cases before with
            | live old =>
                by_cases nodup : maps.Nodup
                · simp only [nodup, if_true, Option.some.injEq] at stepped
                  rw [← stepped]
                  apply consistent.set there
                  · have distinct := consistent.formed _ (List.mem_of_getElem? there)
                    refine ⟨?_, .nil, nodup, by simp⟩
                    intro observer same
                    rw [← Option.some.inj same]
                    exact distinct
                  · intro ref
                    simp [Party.refs]
                · simp [nodup] at stepped
            | _ => cases stepped
    | detach party delay =>
        dsimp only at stepped
        cases there : system.parties[party]? with
        | none =>
            rw [there] at stepped
            cases stepped
        | some before =>
            rw [there] at stepped
            cases before with
            | live observer =>
                rw [← Option.some.inj stepped]
                apply consistent.set there
                · have distinct := consistent.formed _ (List.mem_of_getElem? there)
                  exact distinct
                · intro ref
                  exact Iff.rfl
            | _ => cases stepped
    | advance party delay =>
        obtain ⟨before, there, advanced⟩ := Option.bind_eq_some_iff.mp stepped
        exact consistent.advance there advanced
    | destroy target =>
        rw [← Option.some.inj stepped]
        exact
          { formed := consistent.formed
            sound := by
              by_cases same : map = target
              · rw [same]
                dsimp only
                rw [Function.update_self]
                exact .inl ⟨spared (congrArg Event.destroy same.symm), rfl⟩
              · dsimp only
                rw [Function.update_of_ne same]
                exact consistent.sound
            counted := by
              intro id
              by_cases same : map = target
              · subst same
                dsimp only
                rw [Function.update_self]
                exact consistent.counted id
              · dsimp only
                rw [Function.update_of_ne same]
                exact consistent.counted id
            faultless := consistent.faultless }

theorem consistent_new (retains : 1 ≤ (settings map).retain) :
    Consistent (settings map).retain destroyable map (new settings) where
  formed := by simp [new]
  sound := .inr (MetricsMap.kept_new retains)
  counted := by
    intro id
    simp [new, MetricsMap.new, Entry.new, holders]
  faultless := by simp [new]

theorem consistent_reached (retains : 1 ≤ (settings map).retain) {allowed : Event → System → Prop}
    (spared : ∀ event system, allowed event system → event = .destroy map → destroyable)
    (reached : Machine.Reach step allowed (new settings) system) :
    Consistent (settings map).retain destroyable map system :=
  reached.invariant (consistent_new retains) fun event before _ consistent admitted stepped =>
    consistent.step (spared event before admitted) stepped

/-- In every run that does not destroy it, a map with a positive `RetainDetached` has the
entries that observers hold, and queues those that none holds. -/
theorem entries_are_retained (settings : Nat → Settings) (map : Nat)
    (retains : 1 ≤ (settings map).retain) {system : System}
    (reached : Machine.Reach step (fun event _ => event ≠ .destroy map) (new settings) system) :
    (∀ id, ((system.maps map).entries id).current = system.holders { map := map, entry := id }) ∧
      (∀ party ∈ system.parties, ∀ id, { map := map, entry := id } ∈ party.refs →
        (system.maps map).Stored id) ∧
      (∀ id, (system.maps map).Stored id → ((system.maps map).entries id).current = 0 →
        (system.maps map).Queued id) ∧
      ((system.maps map).detachedQueue.map Node.entry).Nodup ∧
      ((system.maps map).detachedQueue.length : Int) ≤ (settings map).retain ∧
      (∀ id, (system.maps map).Stored id →
        (∀ node ∈ (system.maps map).detachedQueue, node.entry = id →
          ((system.maps map).entries id).detachedPos = some node.pos) ∧
        (¬ (system.maps map).Queued id → ((system.maps map).entries id).detachedPos = none)) ∧
      ∀ fault, system.fault ≠ some (map, fault) := by
  have consistent : Consistent (settings map).retain False map system :=
    consistent_reached retains (fun event _ spares same => spares same) reached
  have kept : MetricsMap.Kept (settings map).retain none (system.maps map) :=
    consistent.sound.resolve_left fun destroyed => destroyed.1
  refine ⟨consistent.counted, ?_, ?_, kept.distinct, ?_, ?_, consistent.faultless⟩
  · intro party inside id held
    obtain ⟨index, there⟩ := List.mem_iff_getElem?.mp inside
    have attached := consistent.attached there held
    exact kept.held id (by omega)
  · intro id stored unheld
    exact kept.queued id stored unheld (by simp)
  · have limit := kept.retains
    have bounded := kept.bounded
    omega
  · intro id stored
    refine ⟨?_, kept.ended id stored⟩
    intro node inside here
    rw [← here]
    exact (kept.placed node inside).2

def single (_ : Nat) : Settings :=
  { accept := [], reject := [], groupByAttributes := [[]], groupBySeparators := [], retain := 1 }

def keyed (key : Str) : Helper := fun _ => some key

/-- The first observer detaches, and the second one moves to a third key, so that the entry of
the first is evicted. -/
def eviction : List Event :=
  [.getObserver (keyed [1]) [0], .advance 0 0, .advance 0 0, .getObserver (keyed [2]) [0],
    .advance 1 0, .advance 1 0, .detach 0 5, .advance 0 0, .advance 0 0, .replace 1 (keyed [3]) [0],
    .advance 1 0, .advance 1 7, .advance 1 0, .advance 1 0]

theorem eviction_retains : ∃ system,
    Machine.runAll step eviction (new single) = some system ∧
      (∀ id, ((system.maps 0).entries id).current = system.holders { map := 0, entry := id }) ∧
      ((system.maps 0).detachedQueue.length : Int) ≤ 1 ∧
      ∀ fault, system.fault ≠ some (0, fault) := by
  obtain ⟨system, ran⟩ : ∃ system, Machine.runAll step eviction (new single) = some system :=
    Option.isSome_iff_exists.mp (by decide)
  have reached : Machine.Reach step (fun event _ => event ≠ .destroy 0) (new single) system := by
    apply Machine.reach_of_run ran
    intro event inside _ same
    rw [same] at inside
    simp [eviction] at inside
  have retained := entries_are_retained single 0 (by decide) reached
  exact ⟨system, ran, retained.1, retained.2.2.2.2.1, retained.2.2.2.2.2.2⟩

end System

end IceTouch.Metrics
