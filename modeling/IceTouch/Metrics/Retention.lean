import IceTouch.Metrics.MetricsMap
import Mathlib.Data.List.Nodup

/-!
# What a metrics map retains

The invariant of one map that links `_objects`, `_detachedQueue` and the positions its entries
keep, and what `getMatching` and `detach` do to it.
-/

namespace IceTouch.Metrics

open ByteOrder WireTypes OrderedMap

namespace MetricsMap

def Stored (map : MetricsMap) (id : Nat) : Prop :=
  find (map.entries id).id map.objects = some id

def Queued (map : MetricsMap) (id : Nat) : Prop :=
  ∃ node ∈ map.detachedQueue, node.entry = id

/-- The entry `released`, which nobody holds any more, may be missing from the queue. -/
structure Kept (limit : Int) (released : Option Nat) (map : MetricsMap) : Prop where
  alive : map.destroyed = false
  retains : map.settings.retain = limit ∧ 1 ≤ limit
  sorted : Sorted map.objects
  known : ∀ key id, find key map.objects = some id → id < map.created ∧ (map.entries id).id = key
  counted : ∀ id, 0 ≤ (map.entries id).current
  held : ∀ id, (map.entries id).current ≠ 0 → map.Stored id
  queued : ∀ id, map.Stored id → (map.entries id).current = 0 → released ≠ some id → map.Queued id
  distinct : (map.detachedQueue.map Node.entry).Nodup
  places : (map.detachedQueue.map Node.pos).Nodup
  numbered : ∀ node ∈ map.detachedQueue, node.pos < map.nextPos
  bounded : (map.detachedQueue.length : Int) ≤ map.settings.retain
  placed : ∀ node ∈ map.detachedQueue,
    map.Stored node.entry ∧ (map.entries node.entry).detachedPos = some node.pos
  ended : ∀ id, map.Stored id → ¬ map.Queued id → (map.entries id).detachedPos = none

variable {map : MetricsMap} {limit : Int} {released : Option Nat}

theorem kept_new {settings : Settings} (retains : 1 ≤ settings.retain) :
    Kept settings.retain none (new settings) where
  alive := rfl
  retains := ⟨rfl, retains⟩
  sorted := sorted_nil
  known := by simp [new, find]
  counted := by simp [new, Entry.new]
  held := by simp [new, Entry.new]
  queued := by simp [new, Stored, find]
  distinct := .nil
  places := .nil
  numbered := by simp [new]
  bounded := by
    have nonneg : (0 : Int) ≤ settings.retain := by omega
    simpa [new] using nonneg
  placed := by simp [new]
  ended := by simp [new, Stored, find]

theorem Kept.stored_of_find (kept : Kept limit released map) {key : Str} {id : Nat}
    (found : find key map.objects = some id) : map.Stored id := by
  rw [Stored, (kept.known key id found).2]
  exact found

theorem stored_unique {id other : Nat} (stored : map.Stored id) (alsoStored : map.Stored other)
    (same : (map.entries id).id = (map.entries other).id) : id = other := by
  rw [Stored, same, alsoStored] at stored
  exact (Option.some.inj stored).symm

theorem Kept.weaken (kept : Kept limit none map) : Kept limit released map :=
  { kept with
    queued := fun id stored unheld _ => kept.queued id stored unheld (by simp) }

theorem Kept.settled {id : Nat} (kept : Kept limit (some id) map) (queued : map.Queued id) :
    Kept limit none map :=
  { kept with
    queued := by
      intro other stored unheld _
      by_cases same : other = id
      · rw [same]
        exact queued
      · exact kept.queued other stored unheld fun eq => same (Option.some.inj eq).symm }

section changes

theorem Kept.change {id : Nat} (kept : Kept limit (some id) map) {entry : Entry}
    (stored : map.Stored id) (nonneg : 0 ≤ entry.current)
    (sameId : entry.id = (map.entries id).id)
    (samePos : entry.detachedPos = (map.entries id).detachedPos) :
    Kept limit (some id) (map.change id entry) := by
  have ids : ∀ other, ((map.change id entry).entries other).id = (map.entries other).id := by
    intro other
    by_cases same : other = id
    · simp [same, sameId]
    · rw [change_other same]
  have positions : ∀ other,
      ((map.change id entry).entries other).detachedPos = (map.entries other).detachedPos := by
    intro other
    by_cases same : other = id
    · simp [same, samePos]
    · rw [change_other same]
  have others : ∀ other, other ≠ id → (map.change id entry).entries other = map.entries other :=
    fun other different => change_other different entry map
  have storage : ∀ other, (map.change id entry).Stored other ↔ map.Stored other := by
    intro other
    rw [Stored, ids other]
    exact Iff.rfl
  exact
    { alive := kept.alive
      retains := kept.retains
      sorted := kept.sorted
      known := by
        intro key other found
        rw [ids other]
        exact kept.known key other found
      counted := by
        intro other
        by_cases same : other = id
        · simpa [same] using nonneg
        · rw [others other same]
          exact kept.counted other
      held := by
        intro other attached
        rw [storage other]
        by_cases same : other = id
        · rw [same]
          exact stored
        · rw [others other same] at attached
          exact kept.held other attached
      queued := by
        intro other inside unheld notReleased
        have same : other ≠ id := fun eq => notReleased (congrArg some eq.symm)
        rw [others other same] at unheld
        exact kept.queued other ((storage other).mp inside) unheld notReleased
      distinct := kept.distinct
      places := kept.places
      numbered := kept.numbered
      bounded := kept.bounded
      placed := by
        intro node inside
        rw [storage node.entry, positions node.entry]
        exact kept.placed node inside
      ended := by
        intro other inside absent
        rw [positions other]
        exact kept.ended other ((storage other).mp inside) absent }

theorem Kept.reattached {id : Nat} (kept : Kept limit (some id) map)
    (attached : (map.entries id).current ≠ 0) : Kept limit none map :=
  { kept with
    queued := by
      intro other stored unheld _
      have different : other ≠ id := by
        intro same
        rw [same] at unheld
        exact attached unheld
      exact kept.queued other stored unheld fun eq => different (Option.some.inj eq).symm }

end changes

section attaching

theorem Kept.fresh_current (kept : Kept limit released map) : (map.entries map.created).current = 0 := by
  by_contra attached
  have stored := kept.held map.created attached
  exact Nat.lt_irrefl _ (kept.known _ _ stored).1

section

variable (kept : Kept limit none map)

include kept

theorem Kept.created {key : Str} (fresh : find key map.objects = none) :
    Kept limit (some map.created) (map.stored key).2 ∧ (map.stored key).2.Stored map.created := by
  have shape : (map.stored key).2 =
      { map with
        objects := insert key map.created map.objects
        entries := Function.update map.entries map.created (Entry.new key)
        created := map.created + 1 } := by
    simp [MetricsMap.stored, fresh]
  rw [shape]
  have others : ∀ id, id ≠ map.created →
      Function.update map.entries map.created (Entry.new key) id = map.entries id :=
    fun id different => Function.update_of_ne different _ _
  have older : ∀ id, map.Stored id → id ≠ map.created :=
    fun id stored => (kept.known _ _ stored).1.ne
  have otherKey : ∀ id, map.Stored id → (map.entries id).id ≠ key := by
    intro id stored same
    rw [Stored, same, fresh] at stored
    cases stored
  have back : ∀ id, id ≠ map.created →
      find (map.entries id).id (insert key map.created map.objects) = some id → map.Stored id := by
    intro id different found
    have notKey : (map.entries id).id ≠ key := by
      intro same
      rw [same, find_insert map.created fresh] at found
      exact different (Option.some.inj found).symm
    rw [find_insert_ne notKey] at found
    exact found
  constructor
  · exact
      { alive := kept.alive
        retains := kept.retains
        sorted := insert_sorted _ _ kept.sorted
        known := by
          intro other id found
          dsimp only at found ⊢
          by_cases same : other = key
          · rw [same, find_insert map.created fresh] at found
            rw [← Option.some.inj found, Function.update_self]
            exact ⟨Nat.lt_succ_self _, same.symm⟩
          · rw [find_insert_ne same] at found
            have before := kept.known other id found
            rw [others id before.1.ne]
            exact ⟨Nat.lt_succ_of_lt before.1, before.2⟩
        counted := by
          intro id
          dsimp only
          by_cases same : id = map.created
          · rw [same, Function.update_self]
            exact Int.le_refl 0
          · rw [others id same]
            exact kept.counted id
        held := by
          intro id attached
          dsimp only [Stored] at attached ⊢
          have different : id ≠ map.created := by
            intro same
            rw [same, Function.update_self] at attached
            exact attached rfl
          rw [others id different] at attached ⊢
          have stored := kept.held id attached
          rw [find_insert_ne (otherKey id stored)]
          exact stored
        queued := by
          intro id stored unheld notReleased
          have different : id ≠ map.created := fun eq => notReleased (congrArg some eq.symm)
          dsimp only [Stored] at stored unheld
          rw [others id different] at stored unheld
          exact kept.queued id (back id different stored) unheld (by simp)
        distinct := kept.distinct
        places := kept.places
        numbered := kept.numbered
        bounded := kept.bounded
        placed := by
          intro node inside
          obtain ⟨stored, position⟩ := kept.placed node inside
          dsimp only [Stored]
          rw [others node.entry (older node.entry stored),
            find_insert_ne (otherKey node.entry stored)]
          exact ⟨stored, position⟩
        ended := by
          intro id stored absent
          by_cases same : id = map.created
          · dsimp only
            rw [same, Function.update_self]
            rfl
          · dsimp only [Stored] at stored ⊢
            rw [others id same] at stored ⊢
            exact kept.ended id (back id same stored) absent }
  · dsimp only [Stored]
    rw [Function.update_self]
    exact find_insert map.created fresh

theorem Kept.stored (key : Str) :
    Kept limit (some (map.stored key).1) (map.stored key).2 ∧
      (map.stored key).2.Stored (map.stored key).1 ∧
      ((map.stored key).2.entries (map.stored key).1).id = key ∧
      ∀ id, ((map.stored key).2.entries id).current = (map.entries id).current := by
  cases found : find key map.objects with
  | some id =>
      have shape : map.stored key = (id, map) := by simp [MetricsMap.stored, found]
      rw [shape]
      exact ⟨kept.weaken, kept.stored_of_find found, (kept.known key id found).2, fun _ => rfl⟩
  | none =>
      have first : (map.stored key).1 = map.created := by simp [MetricsMap.stored, found]
      have entries : (map.stored key).2.entries =
          Function.update map.entries map.created (Entry.new key) := by
        simp [MetricsMap.stored, found]
      have created := kept.created found
      rw [first, entries, Function.update_self]
      refine ⟨created.1, created.2, rfl, ?_⟩
      intro id
      by_cases same : id = map.created
      · rw [same, Function.update_self, kept.fresh_current]
        rfl
      · rw [Function.update_of_ne same]

theorem Kept.stored_before {key : Str} (before : map.Stored (map.stored key).1) :
    (map.entries (map.stored key).1).id = key := by
  cases found : find key map.objects with
  | some id =>
      have shape : map.stored key = (id, map) := by simp [MetricsMap.stored, found]
      rw [shape]
      exact (kept.known key id found).2
  | none =>
      have first : (map.stored key).1 = map.created := by simp [MetricsMap.stored, found]
      rw [first] at before
      exact absurd (kept.known _ _ before).1 (Nat.lt_irrefl _)

theorem Kept.attached (key : Str) :
    Kept limit none (map.attached key).2 ∧
      ((map.attached key).2.entries (map.attached key).1).id = key ∧
      ∀ id, ((map.attached key).2.entries id).current =
        (map.entries id).current + if id = (map.attached key).1 then 1 else 0 := by
  obtain ⟨before, inside, under, currents⟩ := kept.stored key
  have nonneg := before.counted (map.stored key).1
  have first : (map.attached key).1 = (map.stored key).1 := rfl
  have second : (map.attached key).2 = (map.stored key).2.change (map.stored key).1
      ((map.stored key).2.entries (map.stored key).1).attach := rfl
  rw [first, second]
  refine ⟨?_, ?_, ?_⟩
  · have more : 0 ≤ ((map.stored key).2.entries (map.stored key).1).attach.current := by
      simp only [Entry.attach]
      omega
    apply (before.change inside more rfl rfl).reattached
    rw [change_self, Entry.attach]
    dsimp only
    omega
  · rw [change_self]
    exact under
  · intro id
    by_cases same : id = (map.stored key).1
    · rw [same, change_self, if_pos rfl, ← currents]
      rfl
    · rw [if_neg same, ← currents, change_other same, Int.add_zero]

theorem Kept.lookup (key : Str) {previous : Option Nat}
    (inside : ∀ id, previous = some id → map.Stored id) :
    ∃ id after, map.lookup key previous = .ok (some id, after) ∧ Kept limit none after ∧
      ((previous = some id ∧ after = map) ∨
        (previous ≠ some id ∧ ∀ other, (after.entries other).current =
          (map.entries other).current + if other = id then 1 else 0)) := by
  have attached := kept.attached key
  cases kindred : previous.filter fun id => (map.entries id).id = key with
  | some id =>
      obtain ⟨isPrevious, same⟩ := Option.filter_eq_some_iff.mp kindred
      have there : find key map.objects = some id := by
        have stored := inside id isPrevious
        rw [Stored, of_decide_eq_true same] at stored
        exact stored
      refine ⟨id, map, ?_, kept, .inl ⟨isPrevious, rfl⟩⟩
      simp [MetricsMap.lookup, kept.alive, kindred, there]
  | none =>
      refine ⟨(map.attached key).1, (map.attached key).2, ?_, attached.1, .inr ⟨?_, attached.2.2⟩⟩
      · simp [MetricsMap.lookup, kept.alive, kindred]
      · intro isPrevious
        have same := kept.stored_before (inside _ isPrevious)
        rw [Option.filter_eq_none_iff] at kindred
        exact kindred _ isPrevious (decide_eq_true same)

end

end attaching

section detaching

/-- The queue keeps the entries that are detached, and the positions of the others are reset. -/
theorem compressed_spec (entries : Nat → Entry) (queue : List Node) :
    (compressed entries queue).2 = queue.filter (fun node => (entries node.entry).isDetached) ∧
      ∀ id, (compressed entries queue).1 id =
        if (∃ node ∈ queue, node.entry = id) ∧ (entries id).isDetached = false then
          { entries id with detachedPos := none }
        else
          entries id := by
  induction queue generalizing entries with
  | nil => simp [compressed]
  | cons node rest ih =>
      by_cases unheld : (entries node.entry).isDetached
      · rw [compressed, if_pos unheld]
        refine ⟨?_, ?_⟩
        · rw [List.filter_cons, if_pos unheld, ← (ih entries).1]
        · intro id
          rw [(ih entries).2 id]
          by_cases same : node.entry = id
          · subst same
            simp [unheld]
          · simp [same]
      · rw [compressed, if_neg unheld]
        have known : ∀ id, (Function.update entries node.entry
            { entries node.entry with detachedPos := none } id).isDetached =
              (entries id).isDetached := by
          intro id
          by_cases same : id = node.entry
          · rw [same, Function.update_self]
            rfl
          · rw [Function.update_of_ne same]
        obtain ⟨queue, positions⟩ :=
          ih (Function.update entries node.entry { entries node.entry with detachedPos := none })
        refine ⟨?_, ?_⟩
        · rw [List.filter_cons, if_neg unheld, queue]
          simp only [known]
        · intro id
          rw [positions id, known id]
          by_cases same : id = node.entry
          · subst same
            simp [unheld]
          · simp [Function.update_of_ne same, Ne.symm same]

theorem compress_entry (map : MetricsMap) (id : Nat) :
    (map.compress.entries id).id = (map.entries id).id ∧
      (map.compress.entries id).current = (map.entries id).current := by
  rw [compress]
  by_cases isFull : map.full
  · rw [if_pos isFull]
    dsimp only
    rw [(compressed_spec map.entries map.detachedQueue).2 id]
    split
    · exact ⟨rfl, rfl⟩
    · exact ⟨rfl, rfl⟩
  · rw [if_neg isFull]
    exact ⟨rfl, rfl⟩

theorem compress_objects (map : MetricsMap) : map.compress.objects = map.objects := by
  rw [compress]
  split
  · rfl
  · rfl

theorem compress_stored (map : MetricsMap) (id : Nat) :
    map.compress.Stored id ↔ map.Stored id := by
  rw [Stored, Stored, (compress_entry map id).1, compress_objects]

theorem compress_sublist (map : MetricsMap) :
    map.compress.detachedQueue.Sublist map.detachedQueue := by
  rw [compress]
  split
  · dsimp only
    rw [(compressed_spec map.entries map.detachedQueue).1]
    exact List.filter_sublist
  · exact List.Sublist.refl _

theorem Kept.compress (kept : Kept limit released map) : Kept limit released map.compress := by
  by_cases isFull : map.full
  · have queue := (compressed_spec map.entries map.detachedQueue).1
    have positions := (compressed_spec map.entries map.detachedQueue).2
    have same := compress_entry map
    have sublist := compress_sublist map
    have objects := compress_objects map
    have storage := compress_stored map
    have inQueue : ∀ node, node ∈ map.compress.detachedQueue ↔
        node ∈ map.detachedQueue ∧ (map.entries node.entry).current = 0 := by
      intro node
      rw [MetricsMap.compress, if_pos isFull]
      dsimp only
      rw [queue, List.mem_filter]
      simp [Entry.isDetached]
    have posOf : ∀ id, (map.compress.entries id).detachedPos =
        if (∃ node ∈ map.detachedQueue, node.entry = id) ∧ (map.entries id).isDetached = false then
          none
        else
          (map.entries id).detachedPos := by
      intro id
      rw [MetricsMap.compress, if_pos isFull]
      dsimp only
      rw [positions id]
      split
      · rfl
      · rfl
    exact
      { alive := by
          rw [MetricsMap.compress, if_pos isFull]
          exact kept.alive
        retains := by
          rw [MetricsMap.compress, if_pos isFull]
          exact kept.retains
        sorted := by
          rw [objects]
          exact kept.sorted
        known := by
          intro key id found
          rw [objects] at found
          rw [(same id).1, MetricsMap.compress, if_pos isFull]
          exact kept.known key id found
        counted := by
          intro id
          rw [(same id).2]
          exact kept.counted id
        held := by
          intro id attached
          rw [(same id).2] at attached
          exact (storage id).mpr (kept.held id attached)
        queued := by
          intro id stored unheld notReleased
          rw [(same id).2] at unheld
          obtain ⟨node, inside, here⟩ := kept.queued id ((storage id).mp stored) unheld notReleased
          exact ⟨node, (inQueue node).mpr ⟨inside, by rw [here]; exact unheld⟩, here⟩
        distinct := kept.distinct.sublist (sublist.map _)
        places := kept.places.sublist (sublist.map _)
        numbered := by
          intro node inside
          rw [MetricsMap.compress, if_pos isFull]
          exact kept.numbered node ((inQueue node).mp inside).1
        bounded := by
          have shorter := sublist.length_le
          have bounded := kept.bounded
          rw [MetricsMap.compress, if_pos isFull] at shorter ⊢
          dsimp only at shorter ⊢
          omega
        placed := by
          intro node inside
          obtain ⟨before, unheld⟩ := (inQueue node).mp inside
          rw [storage, posOf, if_neg (by simp [Entry.isDetached, unheld])]
          exact kept.placed node before
        ended := by
          intro id stored absent
          rw [posOf]
          by_cases wasQueued : ∃ node ∈ map.detachedQueue, node.entry = id
          · obtain ⟨node, inside, here⟩ := wasQueued
            have attached : (map.entries id).isDetached = false := by
              by_contra unheld
              have gone : (map.entries node.entry).current = 0 := by
                simpa [Entry.isDetached, here] using unheld
              exact absent ⟨node, (inQueue node).mpr ⟨inside, gone⟩, here⟩
            rw [if_pos ⟨⟨node, inside, here⟩, attached⟩]
          · rw [if_neg fun both => wasQueued both.1]
            exact kept.ended id ((storage id).mp stored) wasQueued }
  · rw [MetricsMap.compress, if_neg isFull]
    exact kept

theorem compress_full (isFull : map.compress.full) {node : Node}
    (inside : node ∈ map.compress.detachedQueue) : (map.compress.entries node.entry).current = 0 := by
  by_cases wasFull : map.full
  · rw [(compress_entry map node.entry).2]
    rw [compress, if_pos wasFull] at inside
    dsimp only at inside
    rw [(compressed_spec map.entries map.detachedQueue).1, List.mem_filter] at inside
    simpa [Entry.isDetached] using inside.2
  · rw [compress, if_neg wasFull] at isFull
    exact absurd isFull wasFull

theorem make_room_entries (map : MetricsMap) : map.makeRoom.entries = map.entries := by
  rw [makeRoom]
  split
  · split
    · rfl
    · rfl
  · rfl

theorem make_room_settings (map : MetricsMap) : map.makeRoom.settings = map.settings := by
  rw [makeRoom]
  split
  · split
    · rfl
    · rfl
  · rfl

theorem Kept.makeRoom (kept : Kept limit released map)
    (detached : map.full → ∀ node ∈ map.detachedQueue, (map.entries node.entry).current = 0)
    (absent : ∀ id, released = some id → ¬ map.Queued id) :
    Kept limit released map.makeRoom ∧ (map.makeRoom.detachedQueue.length : Int) < map.settings.retain ∧
      (∀ id, map.makeRoom.Queued id → map.Queued id) ∧
      ∀ id, released = some id → map.Stored id → map.makeRoom.Stored id := by
  have retains := kept.retains
  have bounded := kept.bounded
  by_cases isFull : map.full
  · cases queue : map.detachedQueue with
    | nil =>
        rw [full, queue] at isFull
        simp only [List.length_nil, decide_eq_true_eq] at isFull
        omega
    | cons oldest rest =>
        have size : (map.detachedQueue.length : Int) = map.settings.retain := of_decide_eq_true isFull
        have first : oldest ∈ map.detachedQueue := by
          rw [queue]
          exact List.mem_cons_self
        have oldStored := (kept.placed oldest first).1
        have oldDetached := detached isFull oldest first
        have shape : map.makeRoom =
            { map with
              objects := erase (map.entries oldest.entry).id map.objects
              detachedQueue := rest } := by
          simp [MetricsMap.makeRoom, isFull, queue]
        rw [shape]
        have back : ∀ id, find (map.entries id).id
            (erase (map.entries oldest.entry).id map.objects) = some id →
              map.Stored id ∧ id ≠ oldest.entry := by
          intro id found
          by_cases same : (map.entries id).id = (map.entries oldest.entry).id
          · rw [same, find_erase] at found
            cases found
          · rw [find_erase_ne same] at found
            exact ⟨found, fun eq => same (congrArg (fun id => (map.entries id).id) eq)⟩
        have stays : ∀ id, map.Stored id → id ≠ oldest.entry → find (map.entries id).id
            (erase (map.entries oldest.entry).id map.objects) = some id := by
          intro id stored different
          rw [find_erase_ne fun same => different (stored_unique stored oldStored same)]
          exact stored
        have distinct := kept.distinct
        have places := kept.places
        rw [queue, List.map_cons, List.nodup_cons] at distinct places
        rw [queue, List.length_cons] at size
        refine ⟨?_, ?_, ?_, ?_⟩
        · exact
            { alive := kept.alive
              retains := kept.retains
              sorted := sorted_erase _ kept.sorted
              known := by
                intro key id found
                dsimp only at found ⊢
                by_cases same : key = (map.entries oldest.entry).id
                · rw [same, find_erase] at found
                  cases found
                · rw [find_erase_ne same] at found
                  exact kept.known key id found
              counted := kept.counted
              held := by
                intro id attached
                apply stays id (kept.held id attached)
                intro same
                rw [same] at attached
                exact attached oldDetached
              queued := by
                intro id stored unheld notReleased
                obtain ⟨before, different⟩ := back id stored
                obtain ⟨node, inside, here⟩ := kept.queued id before unheld notReleased
                rw [queue] at inside
                obtain same | later := List.mem_cons.mp inside
                · rw [same] at here
                  exact absurd here.symm different
                · exact ⟨node, later, here⟩
              distinct := distinct.2
              places := places.2
              numbered := by
                intro node inside
                apply kept.numbered node
                rw [queue]
                exact List.mem_cons_of_mem oldest inside
              bounded := by
                dsimp only
                omega
              placed := by
                intro node inside
                have before : node ∈ map.detachedQueue := by
                  rw [queue]
                  exact List.mem_cons_of_mem oldest inside
                obtain ⟨stored, position⟩ := kept.placed node before
                refine ⟨stays node.entry stored ?_, position⟩
                intro same
                apply distinct.1
                rw [← same]
                exact List.mem_map.mpr ⟨node, inside, rfl⟩
              ended := by
                intro id stored gone
                obtain ⟨before, different⟩ := back id stored
                apply kept.ended id before
                rintro ⟨node, inside, here⟩
                rw [queue] at inside
                obtain same | later := List.mem_cons.mp inside
                · rw [same] at here
                  exact different here.symm
                · exact gone ⟨node, later, here⟩ }
        · dsimp only
          omega
        · rintro id ⟨node, inside, here⟩
          refine ⟨node, ?_, here⟩
          rw [queue]
          exact List.mem_cons_of_mem oldest inside
        · intro id isReleased stored
          apply stays id stored
          intro same
          exact absent id isReleased ⟨oldest, first, same.symm⟩
  · have size : (map.detachedQueue.length : Int) ≠ map.settings.retain :=
      fun eq => isFull (decide_eq_true eq)
    have shape : map.makeRoom = map := by simp [MetricsMap.makeRoom, isFull]
    rw [shape]
    exact ⟨kept, by omega, fun _ queued => queued, fun _ _ stored => stored⟩

theorem enqueue_current (map : MetricsMap) (id other : Nat) :
    ((map.enqueue id).entries other).id = (map.entries other).id ∧
      ((map.enqueue id).entries other).current = (map.entries other).current := by
  by_cases same : other = id
  · simp [enqueue, same]
  · simp [enqueue, same]

variable {id : Nat}

theorem Kept.enqueue (kept : Kept limit (some id) map) (stored : map.Stored id)
    (absent : ¬ map.Queued id) (room : (map.detachedQueue.length : Int) < map.settings.retain) :
    Kept limit none (map.enqueue id) := by
  have others : ∀ other, other ≠ id →
      (map.enqueue id).entries other = map.entries other :=
    fun other different => Function.update_of_ne different _ _
  have itself : (map.enqueue id).entries id =
      { map.entries id with detachedPos := some map.nextPos } := Function.update_self _ _ _
  have ids := enqueue_current map id
  have storage : ∀ other, (map.enqueue id).Stored other ↔ map.Stored other := by
    intro other
    rw [Stored, (ids other).1]
    exact Iff.rfl
  have inQueue : ∀ node, node ∈ (map.enqueue id).detachedQueue ↔
      node ∈ map.detachedQueue ∨ node = { pos := map.nextPos, entry := id } := by
    intro node
    simp [MetricsMap.enqueue]
  exact
    { alive := kept.alive
      retains := kept.retains
      sorted := kept.sorted
      known := by
        intro key other found
        rw [(ids other).1]
        exact kept.known key other found
      counted := by
        intro other
        rw [(ids other).2]
        exact kept.counted other
      held := by
        intro other attached
        rw [(ids other).2] at attached
        exact (storage other).mpr (kept.held other attached)
      queued := by
        intro other inside unheld _
        rw [(ids other).2] at unheld
        by_cases same : id = other
        · exact ⟨_, (inQueue _).mpr (.inr rfl), same⟩
        · obtain ⟨node, before, here⟩ := kept.queued other ((storage other).mp inside) unheld
            fun eq => same (Option.some.inj eq)
          exact ⟨node, (inQueue node).mpr (.inl before), here⟩
      distinct := by
        simp only [MetricsMap.enqueue, List.map_append, List.map_cons, List.map_nil]
        rw [List.nodup_append]
        refine ⟨kept.distinct, List.pairwise_singleton _ _, ?_⟩
        intro entry before other isLast same
        obtain ⟨node, inside, here⟩ := List.mem_map.mp before
        rw [List.mem_singleton.mp isLast] at same
        exact absent ⟨node, inside, here.trans same⟩
      places := by
        simp only [MetricsMap.enqueue, List.map_append, List.map_cons, List.map_nil]
        rw [List.nodup_append]
        refine ⟨kept.places, List.pairwise_singleton _ _, ?_⟩
        intro pos before other isLast same
        obtain ⟨node, inside, here⟩ := List.mem_map.mp before
        have below := kept.numbered node inside
        rw [here, same, List.mem_singleton.mp isLast] at below
        exact Nat.lt_irrefl _ below
      numbered := by
        intro node inside
        obtain before | same := (inQueue node).mp inside
        · exact Nat.lt_succ_of_lt (kept.numbered node before)
        · rw [same]
          exact Nat.lt_succ_self _
      bounded := by
        simp only [MetricsMap.enqueue, List.length_append, List.length_singleton]
        omega
      placed := by
        intro node inside
        rw [storage]
        obtain before | same := (inQueue node).mp inside
        · have different : node.entry ≠ id := fun eq => absent ⟨node, before, eq⟩
          rw [others node.entry different]
          exact kept.placed node before
        · rw [same, itself]
          exact ⟨stored, rfl⟩
      ended := by
        intro other inside gone
        have different : other ≠ id :=
          fun eq => gone ⟨_, (inQueue _).mpr (.inr rfl), eq.symm⟩
        rw [others other different]
        apply kept.ended other ((storage other).mp inside)
        rintro ⟨node, before, here⟩
        exact gone ⟨node, (inQueue node).mpr (.inl before), here⟩ }

theorem Kept.reordered (kept : Kept limit released map) {queue : List Node}
    (perm : queue.Perm map.detachedQueue) : Kept limit released { map with detachedQueue := queue } where
  alive := kept.alive
  retains := kept.retains
  sorted := kept.sorted
  known := kept.known
  counted := kept.counted
  held := kept.held
  queued := by
    intro id stored unheld notReleased
    obtain ⟨node, inside, here⟩ := kept.queued id stored unheld notReleased
    exact ⟨node, perm.mem_iff.mpr inside, here⟩
  distinct := (perm.map _).nodup_iff.mpr kept.distinct
  places := (perm.map _).nodup_iff.mpr kept.places
  numbered := fun node inside => kept.numbered node (perm.mem_iff.mp inside)
  bounded := by
    rw [perm.length_eq]
    exact kept.bounded
  placed := fun node inside => kept.placed node (perm.mem_iff.mp inside)
  ended := by
    intro id stored absent
    apply kept.ended id stored
    rintro ⟨node, inside, here⟩
    exact absent ⟨node, perm.mem_iff.mpr inside, here⟩

theorem moved_perm {queue : List Node} {node : Node} (inside : node ∈ queue)
    (nodup : queue.Nodup) : (queue.filter (· ≠ node) ++ [node]).Perm queue := by
  have erased : queue.filter (· ≠ node) = queue.erase node := by
    rw [nodup.erase_eq_filter]
    apply List.filter_congr
    intro other _
    by_cases same : other = node
    · simp [same]
    · simp [same]
  rw [erased]
  exact List.perm_append_singleton node _ |>.trans (List.perm_cons_erase inside).symm

theorem Kept.node_at (kept : Kept limit released map) {pos : Nat} (stored : map.Stored id)
    (position : (map.entries id).detachedPos = some pos) :
    { pos := pos, entry := id } ∈ map.detachedQueue ∧
      map.detachedQueue.find? (fun node => node.pos = pos) = some { pos := pos, entry := id } := by
  have queued : map.Queued id := by
    by_contra absent
    rw [kept.ended id stored absent] at position
    cases position
  obtain ⟨node, inside, here⟩ := queued
  have placed := (kept.placed node inside).2
  rw [here, position] at placed
  have shape : node = { pos := pos, entry := id } := by
    cases node
    simp only [Option.some.injEq] at here placed
    rw [here, placed]
  rw [shape] at inside
  refine ⟨inside, ?_⟩
  cases found : map.detachedQueue.find? (fun node => node.pos = pos) with
  | none =>
      rw [List.find?_eq_none] at found
      exact absurd (decide_eq_true rfl) (found _ inside)
  | some other =>
      have member := List.mem_of_find?_eq_some found
      have same : other.pos = pos := by
        have passed := List.find?_some found
        exact of_decide_eq_true passed
      rw [List.inj_on_of_nodup_map kept.places member inside same]

theorem Kept.detached (kept : Kept limit (some id) map) (stored : map.Stored id) :
    ∃ after, map.detached id = .ok after ∧ Kept limit none after ∧
      ∀ other, (after.entries other).current = (map.entries other).current := by
  have retains := kept.retains
  have enters : ¬ (map.settings.retain = 0 ∨ map.destroyed) := by
    rw [kept.alive]
    rintro (nothing | wrong)
    · omega
    · cases wrong
  have bounded : ¬ map.settings.retain < map.detachedQueue.length := by
    have := kept.bounded
    omega
  rw [MetricsMap.detached, if_neg enters, if_neg bounded]
  cases position : (map.entries id).detachedPos with
  | some pos =>
      obtain ⟨inside, found⟩ := kept.node_at stored position
      have settled := kept.settled ⟨_, inside, rfl⟩
      dsimp only
      rw [moveToBack, found]
      dsimp only
      by_cases isLast : map.detachedQueue.getLast? = some { pos := pos, entry := id }
      · rw [if_pos isLast]
        exact ⟨map, rfl, settled, fun _ => rfl⟩
      · rw [if_neg isLast]
        exact ⟨_, rfl, settled.reordered (moved_perm inside (List.Nodup.of_map _ kept.places)), fun _ => rfl⟩
  | none =>
      have absent : ¬ map.Queued id := by
        rintro ⟨node, inside, here⟩
        have placed := (kept.placed node inside).2
        rw [here, position] at placed
        cases placed
      have compressed := kept.compress
      have stillAbsent : ¬ map.compress.Queued id := by
        rintro ⟨node, inside, here⟩
        exact absent ⟨node, (compress_sublist map).subset inside, here⟩
      have stillStored := (compress_stored map id).mpr stored
      obtain ⟨roomy, room, older, stays⟩ := compressed.makeRoom
        (fun isFull node inside => compress_full isFull inside)
        (by
          intro other same
          rw [← Option.some.inj same]
          exact stillAbsent)
      have inRoom : (map.compress.makeRoom.detachedQueue.length : Int) <
          map.compress.makeRoom.settings.retain := by
        rw [make_room_settings]
        exact room
      have final := roomy.enqueue (stays id rfl stillStored) (fun queued => stillAbsent
        (older id queued)) inRoom
      refine ⟨_, rfl, final, ?_⟩
      intro other
      rw [(enqueue_current _ id other).2, make_room_entries]
      exact (compress_entry map other).2

theorem Kept.detach (kept : Kept limit none map) (attached : 1 ≤ (map.entries id).current)
    (lifetime : Int) :
    ∃ after, map.detach id lifetime = .ok after ∧ Kept limit none after ∧
      ∀ other, (after.entries other).current =
        (map.entries other).current - if other = id then 1 else 0 := by
  have stored := kept.held id (by omega)
  have less : 0 ≤ (map.entries id).current - 1 := by omega
  have weak : Kept limit (some id) map := kept.weaken
  have changed : Kept limit (some id) (map.change id ((map.entries id).detach lifetime)) :=
    weak.change stored less rfl rfl
  have still : (map.change id ((map.entries id).detach lifetime)).Stored id := by
    rw [Stored, change_self]
    exact stored
  have currents : ∀ other,
      ((map.change id ((map.entries id).detach lifetime)).entries other).current =
        (map.entries other).current - if other = id then 1 else 0 := by
    intro other
    by_cases same : other = id
    · rw [same, change_self, if_pos rfl]
      rfl
    · rw [change_other same, if_neg same, Int.sub_zero]
  have unfolded : map.detach id lifetime =
      if ((map.entries id).detach lifetime).isDetached then
        (map.change id ((map.entries id).detach lifetime)).detached id
      else
        .ok (map.change id ((map.entries id).detach lifetime)) := by
    rw [MetricsMap.detach, change_self]
  rw [unfolded]
  by_cases last : ((map.entries id).detach lifetime).isDetached
  · rw [if_pos last]
    obtain ⟨after, done, keeps, same⟩ := changed.detached still
    exact ⟨after, done, keeps, fun other => (same other).trans (currents other)⟩
  · rw [if_neg last]
    refine ⟨_, rfl, changed.reattached ?_, currents⟩
    rw [change_self]
    intro gone
    exact last (decide_eq_true gone)

end detaching

end MetricsMap

end IceTouch.Metrics
