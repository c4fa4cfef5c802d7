/-
# TreeIR.Proofs.LiteralKeys -- literals as keys of a table

A literal is its type and its bits (`Literal.eq_iff`), and there are no gaps: every number that
fits the width of a type is the bits of one literal of that type (`key_bijOn`).  Negative integers
are numbers at the upper end, and so are the negative floats; a NaN is as good a number as any.

Equality and hashing both go by the pair, so a table takes literals for the same key exactly if
they are the same pair.  Inserting a list from the front and keeping what is there leaves each
literal with the position where it stood first (`getElem?_keyTable`), and nothing else in the
table (`mem_keys_iff`).
-/
import Mathlib
import TreeIR.Literal

namespace TreeIR

set_option autoImplicit false

-- Powers of naturals are the core library's, whatever else is in scope.
attribute [local instance (2000)] instPowNat

namespace Literal

variable {literal : Literal} {literals : List Literal} {position first : Nat}

/-! ## Types and bits -/

/-- What a literal is compared by. -/
def key (literal : Literal) : ValueType × Nat := (literal.type, literal.bits.toNat)

/-- The numbers that fit the width of a type, for every type of values. -/
def patterns : Set (ValueType × Nat) :=
  {pattern | pattern.1 ≠ .void ∧ pattern.2 < 2 ^ (8 * pattern.1.byteWidth)}

theorem key_mem_patterns (literal : Literal) : literal.key ∈ patterns := by
  -- Zeros in front do not change the number.
  have narrow (word : UInt32) : word.toUInt64.toNat < 2 ^ (8 * 4) := by
    rw [UInt32.toNat_toUInt64]
    exact word.toNat_lt
  cases literal with
  | i32 value => exact ⟨nofun, narrow value.toUInt32⟩
  | i64 value => exact ⟨nofun, value.toUInt64.toNat_lt⟩
  | f32 word => exact ⟨nofun, narrow word⟩
  | f64 word => exact ⟨nofun, word.toNat_lt⟩

theorem key_injective : Function.Injective key := by
  intro literal other same
  obtain ⟨types, numbers⟩ := Prod.mk.inj same
  exact eq_iff.2 ⟨types, UInt64.toNat_inj.1 numbers⟩

theorem exists_of_mem_patterns {pattern : ValueType × Nat} (fits : pattern ∈ patterns) :
    ∃ literal : Literal, literal.key = pattern := by
  obtain ⟨type, number⟩ := pattern
  obtain ⟨valued, bounded⟩ := fits
  have narrow (small : number < 2 ^ (8 * 4)) :
      (UInt32.ofNat number).toUInt64.toNat = number := by
    rw [UInt32.toNat_toUInt64]
    exact UInt32.toNat_ofNat_of_lt' small
  have wide (small : number < 2 ^ (8 * 8)) : (UInt64.ofNat number).toNat = number :=
    UInt64.toNat_ofNat_of_lt' small
  cases type with
  | void => exact absurd rfl valued
  | i32 => exact ⟨.i32 (UInt32.ofNat number).toInt32, Prod.ext rfl (narrow bounded)⟩
  | i64 => exact ⟨.i64 (UInt64.ofNat number).toInt64, Prod.ext rfl (wide bounded)⟩
  | f32 => exact ⟨.f32 (UInt32.ofNat number), Prod.ext rfl (narrow bounded)⟩
  | f64 => exact ⟨.f64 (UInt64.ofNat number), Prod.ext rfl (wide bounded)⟩

/-- Literals are the patterns of their types, one each. -/
theorem key_bijOn : Set.BijOn key Set.univ patterns :=
  ⟨fun literal _ => key_mem_patterns literal, key_injective.injOn, fun _ fits =>
    let ⟨literal, same⟩ := exists_of_mem_patterns fits
    ⟨literal, trivial, same⟩⟩

/-- The sign of an integer is not repeated in front of its bits, and the sign of a zero counts. -/
example :
    (i32 (-1)).key = (.i32, 0xffffffff) ∧ (i64 (-1)).key = (.i64, 0xffffffffffffffff) ∧
    (f32 0x80000000).key ≠ (f32 0).key := by
  decide

/-! ## Hashing -/

/-- Whatever takes in types and words one after the other. -/
structure Hasher (σ : Type) where
  addType : σ → ValueType → σ
  addWord : σ → UInt64 → σ

/-- A hasher is given the type, then the bits. -/
def feed {σ : Type} (hasher : Hasher σ) (state : σ) (literal : Literal) : σ :=
  hasher.addWord (hasher.addType state literal.type) literal.bits

/-- The hash of a table's key is what one of them makes of it. -/
example (literal : Literal) :
    hash literal =
      literal.feed ⟨fun _ type => hash type, fun state word => mixHash state (hash word)⟩ 0 :=
  rfl

/-- No hasher is given anything by which equal literals differ, and some hashers are given enough
to tell all others apart. -/
theorem eq_iff_feed {other : Literal} :
    literal = other ↔
      ∀ (σ : Type) (hasher : Hasher σ) (state : σ),
        literal.feed hasher state = other.feed hasher state := by
  constructor
  · rintro rfl σ hasher state
    rfl
  · intro same
    let record : Hasher (List (ValueType ⊕ UInt64)) :=
      ⟨fun fed type => .inl type :: fed, fun fed word => .inr word :: fed⟩
    have fed := same _ record []
    simp only [feed, record, List.cons.injEq, Sum.inr.injEq, Sum.inl.injEq] at fed
    exact eq_iff.2 ⟨fed.2.1, fed.1⟩

/-! ## The table -/

/-- What is in the table stays; a literal that is new gets the position where it stands first. -/
theorem getElem?_keyTable (literals : List Literal) (position : Nat)
    (table : Std.HashMap Literal Nat) (literal : Literal) :
    (keyTable literals position table)[literal]? =
      table[literal]?.or ((literals.idxOf? literal).map (position + ·)) := by
  induction literals generalizing position table with
  | nil => simp [keyTable]
  | cons head rest ih =>
    rw [keyTable, ih, Std.HashMap.getElem?_insertIfNew, List.idxOf?_cons]
    by_cases same : head = literal
    · subst same
      by_cases known : head ∈ table
      · simp [known]
      · simp [known]
    · have later (index : Nat) : position + 1 + index = position + (index + 1) := by omega
      simp [same, Option.map_map, Function.comp_def, later]

theorem getElem?_keys (literals : List Literal) (literal : Literal) :
    (keys literals)[literal]? = literals.idxOf? literal := by
  simp [keys, getElem?_keyTable]

theorem mem_keys_iff : literal ∈ keys literals ↔ literal ∈ literals := by
  rw [← Std.HashMap.isSome_getElem?_iff_mem, getElem?_keys, List.isSome_idxOf?]

/-- The table has as many keys as the list has patterns. -/
theorem size_keys (literals : List Literal) :
    (keys literals).size = (literals.map key).toFinset.card := by
  have keysOf : (keys literals).keys.toFinset = literals.toFinset := by
    ext literal
    rw [List.mem_toFinset, List.mem_toFinset, Std.HashMap.mem_keys, mem_keys_iff]
  calc (keys literals).size
      = (keys literals).keys.toFinset.card := by
        rw [List.toFinset_card_of_nodup Std.HashMap.nodup_keys, Std.HashMap.length_keys]
    _ = literals.toFinset.card := by rw [keysOf]
    _ = (literals.toFinset.image key).card := (Finset.card_image_of_injective _ key_injective).symm
    _ = (literals.map key).toFinset.card := by
        congr 1
        ext pattern
        simp

/-- Where literals of the type and bits of this one stand. -/
def standings (literals : List Literal) (literal : Literal) : Set Nat :=
  {index | ∃ other, literals[index]? = some other ∧
    other.type = literal.type ∧ other.bits = literal.bits}

theorem isLeast_standings (found : literals.idxOf? literal = some first) :
    IsLeast (standings literals literal) first := by
  obtain ⟨inside, rfl, earlier⟩ := List.idxOf?_eq_some_iff.1 found
  refine ⟨⟨_, List.getElem?_eq_getElem inside, rfl, rfl⟩, ?_⟩
  rintro index ⟨other, here, types, words⟩
  by_contra lower
  obtain ⟨_, rfl⟩ := List.getElem?_eq_some_iff.1 here
  exact earlier index (Nat.lt_of_not_le lower) (eq_iff.2 ⟨types, words⟩)

/-- The position found for a literal of the list is the one of its key. -/
theorem getElem?_firstPositions (here : literals[position]? = some literal) :
    (firstPositions literals)[position]? = (keys literals)[literal]? := by
  have member : literal ∈ keys literals := mem_keys_iff.2 (List.mem_of_getElem? here)
  rw [firstPositions, List.getElem?_map, here, Option.map_some,
    Std.HashMap.getD_eq_getD_getElem?, Std.HashMap.getElem?_eq_some_getElem member]
  rfl

/-- **Literals are usable as keys.**  Literals and patterns are one to one: every number that fits
the width of a type is the bits of exactly one literal of this type.  Equality is agreement in
type and bits, which is an equivalence, and goes together with what a hasher is given.  A table
that a list of literals is inserted into from the front has one key for each pattern in the list
and no others, and the position that it holds for a literal of the list is the first at which a
literal of this type and these bits stands. -/
theorem literals_are_keys :
    Set.BijOn key Set.univ patterns ∧
    (∀ literal other : Literal, (literal == other) = true ↔
      literal.type = other.type ∧ literal.bits = other.bits) ∧
    (Equivalence fun literal other : Literal => (literal == other) = true) ∧
    (∀ literal other : Literal, (literal == other) = true ↔
      ∀ (σ : Type) (hasher : Hasher σ) (state : σ),
        literal.feed hasher state = other.feed hasher state) ∧
    ∀ literals : List Literal,
      (keys literals).size = (literals.map key).toFinset.card ∧
      (∀ literal, literal ∈ keys literals → literal ∈ literals) ∧
      (∀ pattern ∈ literals.map key, ∃! literal, literal ∈ keys literals ∧ literal.key = pattern) ∧
      ∀ position literal, literals[position]? = some literal →
        ∃ first ≤ position, (keys literals)[literal]? = some first ∧
          (firstPositions literals)[position]? = some first ∧
          IsLeast (standings literals literal) first := by
  refine ⟨key_bijOn, ?_, ?_, ?_, fun literals => ⟨size_keys literals, ?_, ?_, ?_⟩⟩
  · intro literal other
    rw [beq_iff_eq, eq_iff]
  · simp only [beq_iff_eq]
    exact eq_equivalence
  · intro literal other
    rw [beq_iff_eq, eq_iff_feed]
  · exact fun literal => mem_keys_iff.1
  · intro pattern occurs
    obtain ⟨literal, member, rfl⟩ := List.mem_map.1 occurs
    exact ⟨literal, ⟨mem_keys_iff.2 member, rfl⟩, fun other same => key_injective same.2⟩
  · intro position literal here
    obtain ⟨first, found⟩ := Option.isSome_iff_exists.1
      (List.isSome_idxOf?.2 (List.mem_of_getElem? here))
    have least := isLeast_standings found
    have held := (getElem?_keys literals literal).trans found
    exact ⟨first, least.2 ⟨literal, here, rfl, rfl⟩, held,
      (getElem?_firstPositions here).trans held, least⟩

end Literal

end TreeIR
