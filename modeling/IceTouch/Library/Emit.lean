import IceTouch.Library.Bytes

/-!
# Emitters

An emitter turns a state into the bytes it emits and the state it leaves. It says what a
buffered writer appends without mentioning the buffer, so a writer that reserves space and
rewrites it later and one that computes a size first can have the same emitter.
-/

namespace IceTouch.Emit

open Bytes

abbrev Emitter (σ : Type) := σ → List Byte × σ

variable {σ α β : Type}

def emit (bytes : List Byte) : Emitter σ := fun state => (bytes, state)

def andThen (first second : Emitter σ) : Emitter σ := fun state =>
  let (left, middle) := first state
  let (right, final) := second middle
  (left ++ right, final)

def emitAll (each : α → Emitter σ) : List α → Emitter σ
  | [] => emit []
  | item :: rest => andThen (each item) (emitAll each rest)

/-- Emit a header computed from the number of bytes of the content before the content. -/
def framed (header : Nat → List Byte) (content : Emitter σ) : Emitter σ := fun state =>
  let (bytes, final) := content state
  (header bytes.length ++ bytes, final)

@[simp] theorem emit_bytes (bytes : List Byte) (state : σ) : (emit bytes state).1 = bytes := rfl

@[simp] theorem emit_state (bytes : List Byte) (state : σ) : (emit bytes state).2 = state := rfl

@[simp] theorem and_then_bytes (first second : Emitter σ) (state : σ) :
    (andThen first second state).1 = (first state).1 ++ (second (first state).2).1 := rfl

@[simp] theorem and_then_state (first second : Emitter σ) (state : σ) :
    (andThen first second state).2 = (second (first state).2).2 := rfl

@[simp] theorem framed_bytes (header : Nat → List Byte) (content : Emitter σ) (state : σ) :
    (framed header content state).1 = header (content state).1.length ++ (content state).1 := rfl

@[simp] theorem framed_state (header : Nat → List Byte) (content : Emitter σ) (state : σ) :
    (framed header content state).2 = (content state).2 := rfl

theorem and_then_assoc (first second third : Emitter σ) :
    andThen (andThen first second) third = andThen first (andThen second third) := by
  funext state
  simp [andThen]

theorem emit_all_append (each : α → Emitter σ) (left right : List α) :
    emitAll each (left ++ right) = andThen (emitAll each left) (emitAll each right) := by
  induction left with
  | nil =>
      funext state
      simp [emitAll, andThen, emit]
  | cons item rest ih => rw [List.cons_append, emitAll, ih, emitAll, and_then_assoc]

/-- What is acceptable of a state, and how many of the emitted bytes it accounts for. -/
structure Gauge (σ : Type) where
  accepts : σ → Prop
  weight : σ → Nat

instance : CoeFun (Gauge σ) fun _ => σ → Prop := ⟨Gauge.accepts⟩

structure Growth (ok : Gauge σ) (low : Nat) (before : σ) (bytes : List Byte) (after : σ) : Prop where
  long : low ≤ bytes.length
  back : ok after → ok before
  light : ok.weight after ≤ ok.weight before + bytes.length

/-- An emitter emits at least `low` bytes, never repairs a state that was not acceptable, and
accounts for no more than it emits. -/
def Grows (ok : Gauge σ) (low : Nat) (emitter : Emitter σ) : Prop :=
  ∀ state, Growth ok low state (emitter state).1 (emitter state).2

section Grows

variable {ok : Gauge σ} {low low₁ low₂ : Nat}

theorem grows_emit {bytes : List Byte} (long : low ≤ bytes.length) : Grows ok low (emit bytes) :=
  fun _ => ⟨long, id, Nat.le_add_right _ _⟩

theorem Grows.lower {emitter : Emitter σ} (grows : Grows ok low₁ emitter) (less : low₂ ≤ low₁) :
    Grows ok low₂ emitter :=
  fun state => { grows state with long := less.trans (grows state).long }

theorem Grows.andThen {first second : Emitter σ} (left : Grows ok low₁ first)
    (right : Grows ok low₂ second) : Grows ok (low₁ + low₂) (andThen first second) := by
  intro state
  have here := left state
  have later := right (first state).2
  refine ⟨?_, fun fine => here.back (later.back fine), ?_⟩
  · have one := here.long
    have two := later.long
    rw [and_then_bytes, List.length_append]
    omega
  · have one := here.light
    have two := later.light
    rw [and_then_bytes, and_then_state, List.length_append]
    omega

theorem Grows.framed {header : Nat → List Byte} {content : Emitter σ} (inside : Grows ok low content) :
    Grows ok low (framed header content) := by
  intro state
  have here := inside state
  refine ⟨?_, here.back, ?_⟩
  · have long := here.long
    rw [framed_bytes, List.length_append]
    omega
  · have light := here.light
    rw [framed_bytes, framed_state, List.length_append]
    omega

theorem grows_emit_all {each : α → Emitter σ} (items : List α)
    (every : ∀ item ∈ items, Grows ok low (each item)) :
    Grows ok (items.length * low) (emitAll each items) := by
  induction items with
  | nil => exact grows_emit (by simp)
  | cons item rest ih =>
      have later := ih fun other member => every other (by simp [member])
      rw [List.length_cons, Nat.succ_mul, Nat.add_comm]
      exact (every item (by simp)).andThen later

end Grows

end IceTouch.Emit
