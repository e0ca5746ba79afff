import IceTouch.ValueTransfer
import IceTouch.Sequences.Estimate

/-!
# The sequence-size check on valid data

`announced` lists the sequences of a value in the order in which they are read. Reading the
encoding of a value runs the checks over this list and fails when they do. On a stream whose
position has never been set back they pass. `Incoming::startOver` sets the position back for a
dispatch interceptor that dispatches a request again, and leaves the estimate where it was.
-/

namespace IceTouch.Sequences

open Bytes WireTypes StreamHelpers InStream Emit
open Run Transfer ValueTransfer

variable {δ α β : Type}

/-- The bytes of a value without class references. -/
def bytesOf (encoding : Encoding) (type : WireType) (value : Value Empty type) : List Byte :=
  (valueEmitter encoding (fun _ => (emit [] : Emitter Unit)) type value ()).1

def announce (count minSize position : Nat) : List Announcement :=
  if count = 0 then [] else [⟨position + (sizeBytes count).length, count * minSize⟩]

def announceAll (bytes : α → List Byte) (each : α → Nat → List Announcement) :
    List α → Nat → List Announcement
  | [], _ => []
  | item :: rest, position =>
      each item position ++ announceAll bytes each rest (position + (bytes item).length)

def announcedProxy (proxy : Proxy) (position : Nat) : List Announcement :=
  match proxy with
  | none => []
  | some reference =>
      announce (if reference.facet = [] then 0 else 1) 1
        (position + (stringBytes reference.name).length + (stringBytes reference.category).length)

/-- The sequences of a value that begins at a position, in the order in which they are read. The
entries of a dictionary are not announced. -/
def announced (encoding : Encoding) : (type : WireType) → Value Empty type → Nat → List Announcement
  | .sequence element => fun (values : List (Value Empty element)) position =>
      announce values.length element.minWireSize position ++
        announceAll (bytesOf encoding element) (announced encoding element) values
          (position + (sizeBytes values.length).length)
  | .dictionary key value => fun (entries : List (Value Empty key × Value Empty value)) position =>
      announceAll (fun entry => bytesOf encoding key entry.1 ++ bytesOf encoding value entry.2)
        (fun entry start => announced encoding key entry.1 start ++
          announced encoding value entry.2 (start + (bytesOf encoding key entry.1).length))
        entries (position + (sizeBytes entries.length).length)
  | .struct last => announced encoding last
  | .structCons first rest => fun (members : Value Empty first × Value Empty rest) position =>
      announced encoding first members.1 position ++
        announced encoding rest members.2 (position + (bytesOf encoding first members.1).length)
  | .proxy => fun (value : Proxy) position => announcedProxy value position
  | _ => fun _ _ => []

/-- An estimate that reaches no further than what is certain to come still does so after the
sequences of `bytes` have been announced, and they all begin in `bytes`. -/
structure Honest (low : Nat) (bytes : List Byte) (calls : Nat → List Announcement) : Prop where
  long : low ≤ bytes.length
  placed : ∀ position, ∀ call ∈ calls position,
    position < call.position ∧ call.position ≤ position + bytes.length
  walks : ∀ (limit position spare : Nat) (estimate : Option Nat),
    (∀ reached ∈ estimate, reached ≤ position + low + spare) →
    position + bytes.length + spare ≤ limit →
    ∃ final, walk limit estimate (calls position) = some final ∧
      ∀ reached ∈ final, reached ≤ position + bytes.length + spare

section Honest

variable {low less low₁ low₂ : Nat} {bytes left right : List Byte}
  {calls calls₁ calls₂ : Nat → List Announcement}

theorem honest_plain (long : low ≤ bytes.length) : Honest low bytes (fun _ => []) where
  long := long
  placed _ _ := nofun
  walks _ _ _ estimate within _ := by
    refine ⟨estimate, rfl, fun reached found => ?_⟩
    have before := within reached found
    omega

theorem Honest.lower (honest : Honest low bytes calls) (fewer : less ≤ low) : Honest less bytes calls where
  long := fewer.trans honest.long
  placed := honest.placed
  walks limit position spare estimate within room := by
    apply honest.walks limit position spare estimate _ room
    intro reached found
    have before := within reached found
    omega

theorem Honest.append (one : Honest low₁ left calls₁) (two : Honest low₂ right calls₂) :
    Honest (low₁ + low₂) (left ++ right)
      (fun position => calls₁ position ++ calls₂ (position + left.length)) where
  long := by
    rw [List.length_append]
    exact Nat.add_le_add one.long two.long
  placed position call member := by
    rw [List.length_append]
    rcases List.mem_append.mp member with early | late
    · have inside := one.placed position call early
      omega
    · have inside := two.placed _ call late
      omega
  walks limit position spare estimate within room := by
    have long := two.long
    rw [List.length_append] at room ⊢
    obtain ⟨middle, begun, reached⟩ := one.walks limit position (low₂ + spare) estimate
      (fun reached found => by
        have before := within reached found
        omega) (by omega)
    obtain ⟨final, ended, last⟩ := two.walks limit (position + left.length) spare middle
      (fun other found => by
        have before := reached other found
        omega) (by omega)
    refine ⟨final, ?_, fun other found => ?_⟩
    · rw [walk_append, begun]
      exact ended
    · have before := last other found
      omega

theorem Honest.all {each : α → List Byte} {calls : α → Nat → List Announcement}
    (every : ∀ item, Honest low (each item) (calls item)) (items : List α) :
    Honest (items.length * low) (items.flatMap each) (announceAll each calls items) := by
  induction items with
  | nil =>
      rw [List.length_nil, Nat.zero_mul]
      exact honest_plain (Nat.zero_le _)
  | cons item rest ih =>
      rw [List.length_cons, Nat.succ_mul, Nat.add_comm, List.flatMap_cons]
      exact (every item).append ih

theorem Honest.counted {count minSize : Nat} (content : Honest (count * minSize) bytes calls) :
    Honest 1 (sizeBytes count ++ bytes) (fun position =>
      announce count minSize position ++ calls (position + (sizeBytes count).length)) := by
  have sized := size_bytes_pos count
  by_cases empty : count = 0
  · subst empty
    rw [Nat.zero_mul] at content
    have plain : Honest 1 (sizeBytes 0) (fun _ => []) := honest_plain sized
    exact plain.append content
  · have first : Honest 1 (sizeBytes count ++ bytes) (fun position => announce count minSize position ++
        calls (position + (sizeBytes count).length)) := by
      constructor
      · rw [List.length_append]
        omega
      · intro position call member
        rw [List.length_append]
        rcases List.mem_append.mp member with early | late
        · rw [announce, if_neg empty] at early
          cases List.mem_singleton.mp early
          dsimp only
          omega
        · have inside := content.placed _ call late
          omega
      · intro limit position spare estimate within room
        rw [List.length_append] at room ⊢
        have long := content.long
        have small : extended estimate ⟨position + (sizeBytes count).length, count * minSize⟩ ≤
            position + (sizeBytes count).length + count * minSize + spare := by
          cases estimate with
          | none => exact Nat.le_add_right _ _
          | some reached =>
              have before := within reached rfl
              simp only [extended]
              split <;> omega
        obtain ⟨final, walked, last⟩ := content.walks limit (position + (sizeBytes count).length) spare
          (some (extended estimate _)) (fun reached found => by
            cases found
            exact small) (by omega)
        refine ⟨final, ?_, fun reached found => ?_⟩
        · rw [announce, if_neg empty, List.singleton_append, walk, if_neg (by omega)]
          exact walked
        · have before := last reached found
          omega
    exact first

end Honest

theorem emit_all_unit (each : α → Emitter Unit) (items : List α) :
    (emitAll each items ()).1 = items.flatMap fun item => (each item ()).1 := by
  induction items with
  | nil => rfl
  | cons item rest ih => rw [emitAll, and_then_bytes, ih, List.flatMap_cons]

theorem bytes_of_sequence (encoding : Encoding) (element : WireType) (values : List (Value Empty element)) :
    bytesOf encoding (.sequence element) values =
      sizeBytes values.length ++ values.flatMap (bytesOf encoding element) := by
  have content := emit_all_unit (valueEmitter encoding (fun _ => (emit [] : Emitter Unit)) element) values
  exact congrArg (sizeBytes values.length ++ ·) content

theorem bytes_of_dictionary (encoding : Encoding) (key value : WireType)
    (entries : List (Value Empty key × Value Empty value)) :
    bytesOf encoding (.dictionary key value) entries = sizeBytes entries.length ++
      entries.flatMap fun entry => bytesOf encoding key entry.1 ++ bytesOf encoding value entry.2 := by
  have content := emit_all_unit (fun entry : Value Empty key × Value Empty value => andThen
    (valueEmitter encoding (fun _ => (emit [] : Emitter Unit)) key entry.1)
    (valueEmitter encoding (fun _ => (emit [] : Emitter Unit)) value entry.2)) entries
  exact congrArg (sizeBytes entries.length ++ ·) content

theorem honest_facet (facet : Str) :
    Honest 1 (facetBytes facet) (announce (if facet = [] then 0 else 1) 1) := by
  unfold facetBytes
  by_cases none : facet = []
  · rw [if_pos none, if_pos none]
    exact honest_plain (size_bytes_pos 0)
  · rw [if_neg none, if_neg none]
    have content : Honest (1 * 1) (stringBytes facet) (fun _ => []) :=
      honest_plain (string_bytes_pos facet)
    have whole := content.counted
    simpa only [List.append_nil] using whole

theorem honest_proxy (encoding : Encoding) (proxy : Proxy) :
    Honest 2 (proxyBytes encoding proxy) (announcedProxy proxy) := by
  cases proxy with
  | none => exact honest_plain (proxy_bytes_long encoding none)
  | some reference =>
      have name : Honest 1 (stringBytes reference.name) (fun _ => []) :=
        honest_plain (string_bytes_pos reference.name)
      have category : Honest 1 (stringBytes reference.category) (fun _ => []) :=
        honest_plain (string_bytes_pos reference.category)
      have target : Honest 0 ([OutStream.BasicStream.modeByte reference.mode] ++
          (boolBytes reference.secure ++ (versionsBytes encoding reference ++
            targetBytes encoding reference))) (fun _ => []) := honest_plain (Nat.zero_le _)
      have whole := name.append (category.append ((honest_facet reference.facet).append target))
      simp only [List.nil_append, List.append_nil] at whole
      exact whole.lower (by omega)

theorem announced_honest (encoding : Encoding) (type : WireType) (value : Value Empty type) :
    Honest type.minWireSize (bytesOf encoding type value) (announced encoding type value) := by
  induction type with
  | bool => exact honest_plain le_rfl
  | byte => exact honest_plain le_rfl
  | short => exact honest_plain (word_bytes_long (value : BitVec 16))
  | int => exact honest_plain (word_bytes_long (value : BitVec 32))
  | long => exact honest_plain (word_bytes_long (value : BitVec 64))
  | float => exact honest_plain (word_bytes_long (value : BitVec 32))
  | double => exact honest_plain (word_bytes_long (value : BitVec 64))
  | string => exact honest_plain (string_bytes_pos value)
  | enum range => exact honest_plain (enum_bytes_pos encoding _ _)
  | sequence element ih =>
      rw [bytes_of_sequence encoding element value]
      exact (Honest.all ih value).counted
  | dictionary key val keyHonest valueHonest =>
      have entries := Honest.all (fun entry : Value Empty key × Value Empty val =>
        (keyHonest entry.1).append (valueHonest entry.2)) value
      have sized : Honest 1 (sizeBytes (List.length value)) (fun _ => []) :=
        honest_plain (size_bytes_pos _)
      rw [bytes_of_dictionary encoding key val value]
      exact (sized.append entries).lower (Nat.le_add_right 1 _)
  | struct last ih => exact ih value
  | structCons first rest firstHonest restHonest =>
      exact (firstHonest value.1).append (restHonest value.2)
  | proxy => exact honest_proxy encoding value
  | cls => exact Empty.elim value

def estimateOf (stream : ReadStream δ) : Estimate := ⟨stream.startSeq, stream.minSeqSize⟩

/-- Over `bytes` the reader runs the checks of the announcements, and fails when they do. -/
def Checks (bytes : List Byte) (calls : Nat → List Announcement) (reader : Reader δ α)
    (good : α → Prop) : Prop :=
  ∀ (stream : ReadStream δ) (rest : List Byte), Ahead stream bytes rest →
    match checks stream.buf.length (estimateOf stream) (calls stream.pos) with
    | some reached => ∃ value after, reader stream = .ok value after ∧
        Moved stream after bytes.length ∧ estimateOf after = reached ∧ good value
    | none => ∃ after, reader stream = .error (.ice .unmarshalOutOfBounds) after

section Checks

variable {bytes left right : List Byte} {calls calls₁ calls₂ : Nat → List Announcement}
  {reader first : Reader δ α} {next : α → Reader δ β} {good good₁ weak : α → Prop} {good₂ : β → Prop}

theorem Checks.of_takes {value : α} (taken : Takes bytes reader value) (fine : good value) :
    Checks bytes (fun _ => []) reader good :=
  fun stream rest ahead => ⟨value, _, taken stream rest ahead, Moved.advance stream _, rfl, fine⟩

theorem Checks.imp (one : Checks bytes calls reader good)
    (weaker : ∀ value, good value → weak value) : Checks bytes calls reader weak := by
  intro stream rest ahead
  have whole := one stream rest ahead
  cases passed : checks stream.buf.length (estimateOf stream) (calls stream.pos) with
  | none =>
      rw [passed] at whole
      exact whole
  | some reached =>
      rw [passed] at whole
      obtain ⟨value, after, ran, moved, same, fine⟩ := whole
      exact ⟨value, after, ran, moved, same, weaker value fine⟩

theorem Checks.bind (one : Checks left calls₁ first good₁)
    (two : ∀ value, good₁ value → Checks right calls₂ (next value) good₂) :
    Checks (left ++ right) (fun position => calls₁ position ++ calls₂ (position + left.length))
      (first >>= next) good₂ := by
  intro stream rest ahead
  have begun := one stream (right ++ rest) ahead.first
  simp only [checks_append]
  cases passed : checks stream.buf.length (estimateOf stream) (calls₁ stream.pos) with
  | none =>
      rw [passed] at begun
      obtain ⟨after, failed⟩ := begun
      exact ⟨after, bind_of_error failed⟩
  | some reached =>
      rw [passed] at begun
      obtain ⟨value, middle, ran, moved, same, fine⟩ := begun
      have continued := two value fine middle rest (ahead.moved moved)
      rw [moved.buf, moved.pos, same] at continued
      dsimp only [Option.bind_some]
      rw [bind_of_ok ran]
      cases ended : checks stream.buf.length reached (calls₂ (stream.pos + left.length)) with
      | none =>
          rw [ended] at continued
          exact continued
      | some final =>
          rw [ended] at continued
          obtain ⟨result, after, ran₂, moved₂, same₂, fine₂⟩ := continued
          rw [List.length_append]
          exact ⟨result, after, ran₂, moved.trans moved₂, same₂, fine₂⟩

theorem Checks.map (one : Checks bytes calls first good₁) (compute : α → β) :
    Checks bytes calls (first >>= fun value => pure (compute value)) (fun _ => True) := by
  have last : ∀ value, good₁ value → Checks [] (fun _ => [])
      (pure (compute value) : Reader δ β) (fun _ => True) :=
    fun value _ => Checks.of_takes (Takes.pure (compute value)) trivial
  have whole := one.bind last
  simpa only [List.append_nil] using whole

theorem Checks.after (calls₂ : Nat → List Announcement) {value : α} (taken : Takes left first value)
    (two : Checks right calls₂ (next value) good₂) :
    Checks (left ++ right) (fun position => calls₂ (position + left.length)) (first >>= next) good₂ := by
  have begun : Checks left (fun _ => []) first (fun found => found = value) :=
    Checks.of_takes taken rfl
  exact begun.bind fun _ same => same ▸ two

theorem Checks.all {each : β → List Byte} {calls : β → Nat → List Announcement}
    (every : ∀ item, Checks (each item) (calls item) reader (fun _ => True)) (items : List β) :
    Checks (items.flatMap each) (announceAll each calls items) (repeatRun items.length reader)
      (fun _ => True) := by
  induction items with
  | nil => exact Checks.of_takes (Takes.pure []) trivial
  | cons item rest ih => exact (every item).bind fun _ _ => ih.map _

theorem check_announces {stream middle : ReadStream δ} {sz : Nat} (minSize : Nat)
    (sized : readSize stream = .ok sz middle) (nonempty : sz ≠ 0) :
    match check stream.buf.length (estimateOf stream) ⟨middle.pos, sz * minSize⟩ with
    | some reached => ∃ after, readAndCheckSeqSize minSize stream = .ok sz after ∧
        Moved middle after 0 ∧ estimateOf after = reached
    | none => ∃ after, readAndCheckSeqSize minSize stream = .error (.ice .unmarshalOutOfBounds) after := by
  obtain ⟨after, moved, counted, ran⟩ := check_run minSize sized nonempty
  have made : check middle.buf.length (estimateOf middle) ⟨middle.pos, sz * minSize⟩ =
      if wrap32 middle.buf.length < wrap32 ((recount middle sz minSize).1 +
          (recount middle sz minSize).2) then none
      else some ⟨(recount middle sz minSize).1, (recount middle sz minSize).2⟩ := by
    by_cases restarted : middle.startSeq = -1 ∨ middle.startSeq + middle.minSeqSize < middle.pos
    · simp only [check, recount, estimateOf, Nat.cast_mul, if_pos restarted]
    · simp only [check, recount, estimateOf, Nat.cast_mul, if_neg restarted]
  have unchanged : check stream.buf.length (estimateOf stream) =
      check middle.buf.length (estimateOf middle) := by
    obtain ⟨width, -, rfl, -⟩ := read_size_advances sized
    rfl
  rw [unchanged, made, ran]
  by_cases fails : wrap32 middle.buf.length <
      wrap32 ((recount middle sz minSize).1 + (recount middle sz minSize).2)
  · rw [if_pos fails, if_pos fails]
    exact ⟨after, rfl⟩
  · rw [if_neg fails, if_neg fails, ← counted]
    exact ⟨after, rfl, moved, rfl⟩

variable {count : Nat}

theorem checks_size (minSize : Nat) (bounded : count < 2 ^ 31) :
    Checks (δ := δ) (sizeBytes count) (announce count minSize) (readAndCheckSeqSize minSize)
      (fun found => found = count) := by
  intro stream rest ahead
  have sized := takes_size (δ := δ) count bounded stream rest ahead
  by_cases empty : count = 0
  · subst empty
    exact ⟨0, _, check_empty minSize sized, Moved.advance stream _, rfl, rfl⟩
  · have made := check_announces minSize sized empty
    rw [announce, if_neg empty, checks]
    cases checked : check stream.buf.length (estimateOf stream)
        ⟨stream.pos + (sizeBytes count).length, count * minSize⟩ with
    | none =>
        rw [show (stream.advance (sizeBytes count).length).pos =
          stream.pos + (sizeBytes count).length from rfl, checked] at made
        exact made
    | some reached =>
        rw [show (stream.advance (sizeBytes count).length).pos =
          stream.pos + (sizeBytes count).length from rfl, checked] at made
        obtain ⟨after, ran, moved, same⟩ := made
        exact ⟨count, after, ran, (Moved.advance stream _).trans moved, same, rfl⟩

theorem Checks.counted (bytes : List Byte) (calls : Nat → List Announcement) {minSize : Nat}
    {next : Nat → Reader δ β} (few : count ≤ bytes.length)
    (content : Checks bytes calls (next count) good₂) :
    Checks (sizeBytes count ++ bytes) (fun position =>
      announce count minSize position ++ calls (position + (sizeBytes count).length))
      (readAndCheckSeqSize minSize >>= next) good₂ := by
  intro stream rest ahead
  have total := ahead.total
  have bounded := ahead.bounded
  rw [List.length_append] at total
  have whole := (checks_size (δ := δ) minSize (by omega : count < 2 ^ 31)).bind
    fun found same => (same ▸ content : Checks bytes calls (next found) good₂)
  exact whole stream rest ahead

theorem Checks.sized (bytes : List Byte) (calls : Nat → List Announcement) {next : Nat → Reader δ β}
    (few : count ≤ bytes.length) (content : Checks bytes calls (next count) good₂) :
    Checks (sizeBytes count ++ bytes) (fun position => calls (position + (sizeBytes count).length))
      (readSize >>= next) good₂ := by
  intro stream rest ahead
  have total := ahead.total
  have bounded := ahead.bounded
  rw [List.length_append] at total
  exact Checks.after calls (takes_size (δ := δ) count (by omega)) content stream rest ahead

theorem checks_facet (facet : Str) :
    Checks (δ := δ) (facetBytes facet) (announce (if facet = [] then 0 else 1) 1) readFacet
      (fun found => found = facet) := by
  by_cases none : facet = []
  · subst none
    have whole : Checks (δ := δ) (sizeBytes 0 ++ []) (fun position => announce 0 1 position ++ [])
        readFacet (fun found => found = []) :=
      Checks.counted [] (fun _ => []) (Nat.zero_le _)
        (Checks.of_takes (Takes.pure []) rfl)
    rw [facetBytes, if_pos rfl, if_pos rfl]
    simpa only [List.append_nil] using whole
  · have path : Takes (δ := δ) (stringBytes facet) (repeatRun 1 readString) [facet] := by
      have taken := takes_all (takes_string (δ := δ)) [facet]
      simpa using taken
    have whole : Checks (δ := δ) (sizeBytes 1 ++ stringBytes facet)
        (fun position => announce 1 1 position ++ []) readFacet (fun found => found = facet) :=
      Checks.counted (stringBytes facet) (fun _ => []) (string_bytes_pos facet)
        (Checks.of_takes (path.finish (Takes.pure facet)) rfl)
    rw [facetBytes, if_neg none, if_neg none]
    simpa only [List.append_nil] using whole

theorem checks_proxy (fresh : δ) (skipRef : Reader δ Unit) (encoding : Encoding) (proxy : Proxy) :
    Checks (proxyBytes encoding proxy) (announcedProxy proxy) (readProxy encoding fresh skipRef)
      (fun found => found = proxy.map (Reference.carriedBy encoding)) := by
  cases proxy with
  | none =>
      have taken : Takes (stringBytes [] ++ stringBytes []) (readProxy encoding fresh skipRef)
          (none : Proxy) := by
        refine (takes_string []).bind ((takes_string []).finish ?_)
        rw [dif_pos ⟨rfl, rfl⟩]
        exact Takes.pure none
      exact Checks.of_takes taken rfl
  | some reference =>
      let count := if reference.facet = [] then 0 else 1
      have whole : Checks (stringBytes reference.name ++ (stringBytes reference.category ++
          (facetBytes reference.facet ++ ([OutStream.BasicStream.modeByte reference.mode] ++
            (boolBytes reference.secure ++ (versionsBytes encoding reference ++
              targetBytes encoding reference))))))
          (fun position => announce count 1 (position + (stringBytes reference.name).length +
            (stringBytes reference.category).length) ++ [])
          (readProxy encoding fresh skipRef)
          (fun found => found = some (reference.carriedBy encoding)) := by
        apply Checks.after (fun position => announce count 1 (position +
          (stringBytes reference.category).length) ++ []) (takes_string reference.name)
        apply Checks.after (fun position => announce count 1 position ++ [])
          (takes_string reference.category)
        rw [dif_neg reference.identified]
        apply @Checks.bind _ _ _ _ _ _ (fun _ => []) _ _ _ _ (checks_facet reference.facet)
        rintro facet rfl
        exact Checks.of_takes ((takes_byte _).bind ((takes_mode reference.mode).bind
          ((takes_bool reference.secure).bind ((takes_versions encoding reference).bind
            ((takes_target fresh skipRef encoding reference).finish (Takes.pure _))))))
              (by cases encoding <;> rfl)
      simp only [List.append_nil] at whole
      exact whole

end Checks

theorem read_checks {ρ : Type} (encoding : Encoding) (refs : RefReader δ ρ) (type : WireType)
    (value : Value Empty type) :
    Checks (bytesOf encoding type value) (announced encoding type value) (read encoding refs type)
      (fun _ => True) := by
  induction type with
  | bool => exact Checks.of_takes (takes_bool value) trivial
  | byte => exact Checks.of_takes (takes_byte value) trivial
  | short => exact Checks.of_takes (takes_word (value : BitVec 16) (by decide)) trivial
  | int => exact Checks.of_takes (takes_word (value : BitVec 32) (by decide)) trivial
  | long => exact Checks.of_takes (takes_word (value : BitVec 64) (by decide)) trivial
  | float => exact Checks.of_takes (takes_word (value : BitVec 32) (by decide)) trivial
  | double => exact Checks.of_takes (takes_word (value : BitVec 64) (by decide)) trivial
  | string => exact Checks.of_takes (takes_string value) trivial
  | enum range => exact Checks.of_takes (takes_enum encoding range value) trivial
  | sequence element ih =>
      have elements : ∀ item, Checks (bytesOf encoding element item) (announced encoding element item)
          ((bulkElement ρ element).getD (read encoding refs element)) (fun _ => True) := by
        intro item
        cases element with
        | bool => exact Checks.of_takes (takes_bulk_bool item) trivial
        | byte => exact Checks.of_takes (takes_bulk_byte item) trivial
        | short => exact Checks.of_takes (takes_bulk_word (item : BitVec 16) (by decide)) trivial
        | int => exact Checks.of_takes (takes_bulk_word (item : BitVec 32) (by decide)) trivial
        | long => exact Checks.of_takes (takes_bulk_word (item : BitVec 64) (by decide)) trivial
        | float => exact Checks.of_takes (takes_bulk_word (item : BitVec 32) (by decide)) trivial
        | double => exact Checks.of_takes (takes_bulk_word (item : BitVec 64) (by decide)) trivial
        | _ => exact ih item
      have few : List.length value ≤ (List.flatMap (bytesOf encoding element) value).length :=
        flat_map_length (fun item => Nat.lt_of_lt_of_le (min_wire_size_pos element)
          (announced_honest encoding element item).long) value
      rw [bytes_of_sequence encoding element value]
      exact Checks.counted _ _ few (Checks.all elements value)
  | dictionary key val keyChecks valueChecks =>
      have few : List.length value ≤ (List.flatMap (fun entry : Value Empty key × Value Empty val =>
          bytesOf encoding key entry.1 ++ bytesOf encoding val entry.2) value).length :=
        flat_map_length (fun entry => by
          have long := (announced_honest encoding key entry.1).long
          have positive := min_wire_size_pos key
          rw [List.length_append]
          omega) value
      have entries : ∀ entry : Value Empty key × Value Empty val,
          Checks (bytesOf encoding key entry.1 ++ bytesOf encoding val entry.2)
            (fun start => announced encoding key entry.1 start ++
              announced encoding val entry.2 (start + (bytesOf encoding key entry.1).length))
            (do
              let entryKey ← read encoding refs key
              let entryValue ← read encoding refs val
              pure (entryKey, entryValue)) (fun _ => True) :=
        fun entry => (keyChecks entry.1).bind fun first _ => (valueChecks entry.2).map _
      rw [bytes_of_dictionary encoding key val value]
      exact Checks.sized _ _ few (Checks.all entries value)
  | struct last ih => exact ih value
  | structCons first rest firstChecks restChecks =>
      exact (firstChecks value.1).bind fun member _ => (restChecks value.2).map _
  | proxy => exact (checks_proxy refs.fresh refs.skip encoding value).imp fun _ _ => trivial
  | cls => exact Empty.elim value

/-- No sum of the checks so far has wrapped, whether they passed or failed. -/
def Settled (stream : ReadStream δ) : Prop :=
  stream.startSeq = -1 ∨ ∃ start least : Nat, estimateOf stream = ⟨start, least⟩ ∧
    start + least < 2 ^ 31

/-- No sum of what was announced before and of the sequences that begin no later than that lies
beyond the buffer, unless it is no longer a 32-bit number. -/
def Clear (stream : ReadStream δ) (calls : List Announcement) : Prop :=
  stream.startSeq = -1 ∨ ∀ sum ∈ sums (stream.startSeq + stream.minSeqSize).toNat calls,
    sum ≤ stream.buf.length ∨ 2 ^ 31 ≤ sum

section Values

variable {ρ : Type} {encoding : Encoding} {refs : RefReader δ ρ} {type : WireType}
  {value : Value Empty type} {stream : ReadStream δ} {rest : List Byte}

section

variable (ahead : Ahead stream (bytesOf encoding type value) rest)

include ahead

theorem announced_walk (estimate : Option Nat) (within : ∀ reached ∈ estimate, reached ≤ stream.pos) :
    ∃ final, walk stream.buf.length estimate (announced encoding type value stream.pos) = some final ∧
      ∀ reached ∈ final, reached ≤ stream.pos + (bytesOf encoding type value).length := by
  have total := ahead.total
  have walked := (announced_honest encoding type value).walks stream.buf.length stream.pos 0 estimate
    (fun reached found => by
      have before := within reached found
      omega) (by omega)
  exact walked

theorem announced_total : total (announced encoding type value stream.pos) ≤ stream.buf.length := by
  have room := ahead.total
  have honest := announced_honest encoding type value
  -- An estimate beyond the value is only added to, and never exceeds what it was given.
  let spare := (bytesOf encoding type value).length
  obtain ⟨final, walked, last⟩ := honest.walks (stream.pos + spare + spare) stream.pos spare
    (some (stream.pos + spare)) (fun reached found => by
      cases found
      omega) (by omega)
  have added := walk_adds _ (fun call member => (honest.placed stream.pos call member).2) walked
  have small := last _ added
  omega

theorem read_complete_iff :
    (∀ after, read encoding refs type stream ≠ .error (.ice .unmarshalOutOfBounds) after) ↔
      (checks stream.buf.length (estimateOf stream) (announced encoding type value stream.pos)).isSome =
        true := by
  have whole := read_checks encoding refs type value stream rest ahead
  cases passed : checks stream.buf.length (estimateOf stream)
      (announced encoding type value stream.pos) with
  | none =>
      rw [passed] at whole
      obtain ⟨after, failed⟩ := whole
      exact ⟨fun complete => absurd failed (complete after), nofun⟩
  | some reached =>
      rw [passed] at whole
      obtain ⟨received, final, ran, -⟩ := whole
      exact ⟨fun _ => rfl, fun _ after failed => nomatch ran.symm.trans failed⟩

end

theorem checks_fresh {limit : Nat} (small : limit < 2 ^ 31) {estimate : Estimate}
    (unset : estimate.startSeq = -1) (calls : List Announcement)
    (passes : (walk limit none calls).isSome = true) :
    (checks limit estimate calls).isSome = true := by
  cases calls with
  | nil => rfl
  | cons next rest =>
      rw [walk] at passes
      by_cases fits : limit < extended none next
      · rw [if_pos fits] at passes
        cases passes
      · rw [if_neg fits] at passes
        have room : next.position + next.bytes ≤ limit := Nat.le_of_not_lt fits
        rw [checks, check_restarts small (Or.inl unset) room]
        exact checks_of_walk small rest room passes

/-- Valid data is read exactly when the sums that the old estimate leads to stay in the buffer. -/
theorem seq_size_complete_iff (ahead : Ahead stream (bytesOf encoding type value) rest)
    (settled : Settled stream) :
    (∀ after, read encoding refs type stream ≠ .error (.ice .unmarshalOutOfBounds) after) ↔
      Clear stream (announced encoding type value stream.pos) := by
  have small := ahead.bounded
  rw [read_complete_iff ahead]
  rcases settled with unset | ⟨start, least, same, unwrapped⟩
  · obtain ⟨final, walked, -⟩ := announced_walk ahead none (fun _ found => by cases found)
    constructor
    · exact fun _ => Or.inl unset
    · exact fun _ => checks_fresh small unset _ (by rw [walked]; rfl)
  · obtain ⟨final, walked, -⟩ := announced_walk ahead (some 0) (fun reached found => by
      cases found
      exact Nat.zero_le _)
    have passes := checks_some_iff small (announced encoding type value stream.pos)
      (Nat.zero_le (start + least)) unwrapped (announced_total ahead) (by rw [walked]; rfl)
    have begins : stream.startSeq = start := congrArg Estimate.startSeq same
    have reaches : stream.minSeqSize = least := congrArg Estimate.minSeqSize same
    have sum : ((start : Int) + least).toNat = start + least := by omega
    rw [same, passes, Clear, begins, reaches, sum]
    refine ⟨Or.inr, fun clear => clear.resolve_left (by omega)⟩

def Forward (stream : ReadStream δ) : Prop :=
  stream.startSeq = -1 ∨ ∃ start least : Nat, estimateOf stream = ⟨start, least⟩ ∧
    start + least ≤ stream.pos

theorem forward_fresh (buf : List Byte) (decoder : δ) : Forward (ReadStream.fresh buf decoder) :=
  Or.inl rfl

/-- On a stream whose position has only gone forward a value is read, and has passed what it
announced. -/
theorem read_forward (refs : RefReader δ ρ) (ahead : Ahead stream (bytesOf encoding type value) rest)
    (forward : Forward stream) :
    ∃ received after, read encoding refs type stream = .ok received after ∧
      Moved stream after (bytesOf encoding type value).length ∧ Forward after := by
  have small := ahead.bounded
  have room := ahead.total
  have whole := read_checks encoding refs type value stream rest ahead
  have outcome : ∃ reached, checks stream.buf.length (estimateOf stream)
      (announced encoding type value stream.pos) = some reached ∧ (reached.startSeq = -1 ∨
        ∃ start least : Nat, reached = ⟨start, least⟩ ∧
          start + least ≤ stream.pos + (bytesOf encoding type value).length) := by
    rcases forward with unset | ⟨start, least, same, passed⟩
    · obtain ⟨final, walked, last⟩ := announced_walk ahead none (fun _ found => by cases found)
      cases calls : announced encoding type value stream.pos with
      | nil => exact ⟨estimateOf stream, rfl, Or.inl unset⟩
      | cons next others =>
          rw [calls, walk] at walked
          by_cases fits : stream.buf.length < extended none next
          · rw [if_pos fits] at walked
            cases walked
          · rw [if_neg fits] at walked
            have inside : next.position + next.bytes ≤ stream.buf.length := Nat.le_of_not_lt fits
            obtain ⟨begins, size, passed, rfl⟩ := checks_walk small others inside walked
            rw [checks, check_restarts small (Or.inl unset) inside]
            exact ⟨_, passed, Or.inr ⟨begins, size, rfl, last _ rfl⟩⟩
    · obtain ⟨final, walked, last⟩ := announced_walk ahead (some (start + least)) (fun reached found => by
        cases found
        exact passed)
      obtain ⟨begins, size, checked, rfl⟩ := checks_walk small _ (by omega) walked
      rw [same]
      exact ⟨_, checked, Or.inr ⟨begins, size, rfl, last _ rfl⟩⟩
  obtain ⟨reached, passed, kept⟩ := outcome
  rw [passed] at whole
  obtain ⟨received, after, ran, moved, same, -⟩ := whole
  refine ⟨received, after, ran, moved, ?_⟩
  rcases kept with unset | ⟨begins, size, rfl, last⟩
  · left
    rw [← same] at unset
    exact unset
  · right
    exact ⟨begins, size, same, moved.pos ▸ last⟩

end Values

structure Item where
  type : WireType
  value : Value Empty type

def readItems {ρ : Type} (encoding : Encoding) (refs : RefReader δ ρ) : List Item → Reader δ Unit
  | [] => pure ()
  | item :: rest => do
      let _ ← read encoding refs item.type
      readItems encoding refs rest

/-- However many values are read forward, none is rejected. -/
theorem read_items_forward {ρ : Type} (encoding : Encoding) (refs : RefReader δ ρ) (items : List Item)
    {stream : ReadStream δ} {rest : List Byte}
    (ahead : Ahead stream (items.flatMap fun item => bytesOf encoding item.type item.value) rest)
    (forward : Forward stream) :
    ∃ after, readItems encoding refs items stream = .ok () after ∧ Forward after := by
  induction items generalizing stream with
  | nil => exact ⟨stream, rfl, forward⟩
  | cons item others ih =>
      rw [List.flatMap_cons] at ahead
      obtain ⟨received, middle, ran, moved, kept⟩ := read_forward refs ahead.first forward
      obtain ⟨after, continued, final⟩ := ih (ahead.moved moved) kept
      exact ⟨after, (bind_of_ok ran).trans continued, final⟩

def noRefs : RefReader Unit Empty where
  read := throw (.ice .unmarshalOutOfBounds)
  skip := pure ()
  fresh := ()

/-- Two sequences, of which the first one announces all that follows it. -/
theorem sequences_forward : ∃ after : ReadStream Unit,
    readItems .v11 noRefs [⟨.sequence .byte, ([7] : List Byte)⟩, ⟨.sequence .bool, ([true] : List Bool)⟩]
      (.fresh [1, 7, 1, 1] ()) = .ok () after :=
  (read_items_forward .v11 noRefs _ ⟨rfl, by decide, by decide, by decide⟩
    (forward_fresh _ ())).imp fun _ read => read.1

/-- `Incoming::startOver` for every dispatch after the first: `_is->i = _inParamPos`. -/
def startOver (inParamPos : Nat) (stream : ReadStream δ) : ReadStream δ :=
  { stream with pos := inParamPos }

/-- The parameters of a request are one sequence of one byte. They are read, and then they are
read again for a second dispatch. -/
theorem start_over_rejects :
    ∃ value after last, read .v11 noRefs (.sequence .byte) (ReadStream.fresh [1, 7] ()) = .ok value after ∧
      read .v11 noRefs (.sequence .byte) (startOver 0 after) =
        .error (.ice .unmarshalOutOfBounds) last :=
  ⟨([(7 : Byte)] : List Byte), _, _, rfl, rfl⟩

/-- The parameters of a request are two sequences in a sequence, and five bytes more. -/
def nestedParams : List Byte := [2, 2, 7, 8, 1, 9, 0, 0, 0, 0, 0]

def nestedType : WireType := .sequence (.sequence .byte)

def nestedValue : Value Empty nestedType := ([[7, 8], [9]] : List (List Byte))

/-- The request before its dispatch, and then after each dispatch has been started over. -/
def dispatched : Nat → ReadStream Unit
  | 0 => .fresh nestedParams ()
  | dispatches + 1 =>
      match read .v11 noRefs nestedType (dispatched dispatches) with
      | .ok _ after | .error _ after => startOver 0 after

/-- The sequences are read a second time, with what was announced the first time. The third
time they are refused, and then again because of what the check that failed has left. -/
theorem seq_size_complete_again :
    (∀ after, read .v11 noRefs nestedType (dispatched 1) ≠ .error (.ice .unmarshalOutOfBounds) after) ∧
      estimateOf (dispatched 1) = ⟨1, 5⟩ ∧
      (∃ after, read .v11 noRefs nestedType (dispatched 3) =
        .error (.ice .unmarshalOutOfBounds) after) ∧
      estimateOf (dispatched 3) = ⟨1, 12⟩ := by
  have second := @seq_size_complete_iff Unit Empty .v11 noRefs nestedType nestedValue
    (dispatched 1) [0, 0, 0, 0, 0] ⟨by decide, by decide, by decide, by decide⟩
    (Or.inr ⟨1, 5, by decide, by decide⟩)
  have fourth := @seq_size_complete_iff Unit Empty .v11 noRefs nestedType nestedValue
    (dispatched 3) [0, 0, 0, 0, 0] ⟨by decide, by decide, by decide, by decide⟩
    (Or.inr ⟨1, 12, by decide, by decide⟩)
  have cleared : Clear (dispatched 1) (announced .v11 nestedType nestedValue 0) := by
    right
    decide
  have refused : ¬Clear (dispatched 3) (announced .v11 nestedType nestedValue 0) := by
    rintro (unset | sums)
    · exact absurd unset (by decide)
    · revert sums
      decide
  refine ⟨second.mpr cleared, by decide, ?_, by decide⟩
  by_contra never
  exact refused (fourth.mp fun after failed => never ⟨after, failed⟩)

end IceTouch.Sequences
