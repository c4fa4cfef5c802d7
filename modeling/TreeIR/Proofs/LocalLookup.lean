/-
# TreeIR.Proofs.LocalLookup -- which slot a var stands for, in any function

Nothing keeps a function that was edited from having two slots of one name, so looking a local
up has to make a choice, and it takes the first.  A var leads to a position and the position to
a local, and the two steps are independent: what is found at a position is the slot there, as a
param or as a declared local (`Shows`), whatever led to it (`local?_eq_some_iff`).  An index leads
to the position before it, a name to the least position of that name, which is among the params
as soon as one param has the name.
-/
import TreeIR.Proofs.Locals

namespace TreeIR

set_option autoImplicit false

namespace Func

variable {func : Func} {var : Var} {found : Local} {position : Nat} {slot : Slot} {name : Name}

/-- The local is the slot at its position. -/
structure Shows (func : Func) (found : Local) : Prop where
  slot : func.slots[found.position]? = some ⟨found.name, found.type⟩
  kind_iff : found.kind = .param ↔ found.position < func.params.length

theorem shows_localAt (stored : func.slots[position]? = some slot) :
    func.Shows (func.localAt position slot) := by
  refine ⟨stored, ?_⟩
  rw [localAt]
  split <;> simp_all

/-- There is one local to show at a position. -/
theorem Shows.eq_localAt (shows : func.Shows found) :
    found = func.localAt found.position ⟨found.name, found.type⟩ := by
  have kinds := shows.kind_iff
  obtain ⟨kind, position, name, type⟩ := found
  rw [localAt, Local.mk.injEq]
  refine ⟨?_, rfl, rfl, rfl⟩
  cases kind <;> simp_all

/-- The slot stands in the list that its kind says, at what is left of the position there. -/
theorem Shows.declared_at (shows : func.Shows found) :
    found.kind = .param ∧ func.params[found.position]? = some ⟨found.name, found.type⟩ ∨
    found.kind = .declared ∧ func.params.length ≤ found.position ∧
      func.locals[found.position - func.params.length]? = some ⟨found.name, found.type⟩ := by
  have stored := shows.slot
  cases kind : found.kind with
  | param =>
    have inside := shows.kind_iff.1 kind
    rw [slots, List.getElem?_append_left inside] at stored
    exact .inl ⟨rfl, stored⟩
  | declared =>
    have behind : func.params.length ≤ found.position := by
      by_contra inside
      cases kind.symm.trans (shows.kind_iff.2 (Nat.lt_of_not_le inside))
    rw [slots, List.getElem?_append_right behind] at stored
    exact .inr ⟨rfl, behind, stored⟩

/-- A var finds the local at the position that it leads to. -/
theorem local?_eq_some_iff :
    func.local? var = some found ↔
      func.position? var = some found.position ∧ func.Shows found := by
  constructor
  · intro finds
    cases leads : func.position? var with
    | none => cases (local?_of_no_position leads).symm.trans finds
    | some position =>
      rw [local?_of_position leads, Option.map_eq_some_iff] at finds
      obtain ⟨slot, stored, rfl⟩ := finds
      exact ⟨rfl, shows_localAt stored⟩
  · rintro ⟨leads, shows⟩
    rw [local?_of_position leads, shows.slot, shows.eq_localAt]
    rfl

theorem isSome_local?_of_position (leads : func.position? var = some position)
    (inside : position < func.slots.length) : (func.local? var).isSome := by
  rw [local?_of_position leads, List.getElem?_eq_getElem inside]
  rfl

/-! ## Indices -/

theorem isSome_local?_index_iff {number : UInt32} :
    (func.local? (.index number)).isSome ↔
      1 ≤ number.toNat ∧ number.toNat ≤ func.slots.length := by
  constructor
  · intro finds
    obtain ⟨found, finds⟩ := Option.isSome_iff_exists.1 finds
    obtain ⟨leads, shows⟩ := local?_eq_some_iff.1 finds
    obtain ⟨inside, -⟩ := List.getElem?_eq_some_iff.1 shows.slot
    have counted := position?_index_iff.1 leads
    omega
  · rintro ⟨positive, inside⟩
    have leads : func.position? (.index number) = some (number.toNat - 1) :=
      position?_index_iff.2 (by omega)
    exact isSome_local?_of_position leads (by omega)

/-! ## Names -/

/-- The positions of the slots of a name. -/
def positionsOf (func : Func) (name : Name) : Set Nat :=
  {position | ∃ slot, func.slots[position]? = some slot ∧ slot.name = name}

theorem position?_named_iff_isLeast :
    func.position? (.named name) = some position ↔ IsLeast (func.positionsOf name) position := by
  rw [position?_named_iff]
  refine and_congr_right fun _ => ⟨?_, ?_⟩
  · rintro first other ⟨slot, stored, same⟩
    by_contra lower
    exact first other slot (Nat.lt_of_not_le lower) stored same
  · intro least earlier other lower stored same
    exact Nat.not_le_of_lt lower (least ⟨other, stored, same⟩)

theorem isSome_local?_named_iff :
    (func.local? (.named name)).isSome ↔ ∃ slot ∈ func.slots, slot.name = name := by
  constructor
  · intro finds
    by_contra absent
    rw [local?_named_eq_none (by simpa using absent)] at finds
    cases finds
  · rintro ⟨slot, member, rfl⟩
    obtain ⟨position, stored⟩ := List.mem_iff_getElem?.1 member
    have occurs : (func.positionsOf slot.name).Nonempty := ⟨position, slot, stored, rfl⟩
    have least := isLeast_csInf occurs
    obtain ⟨first, here, -⟩ := least.1
    exact isSome_local?_of_position (position?_named_iff_isLeast.2 least)
      (List.getElem?_eq_some_iff.1 here).1

/-- A param hides the declared locals of its name. -/
theorem kind_of_param_named (finds : func.local? (.named name) = some found)
    (param : ∃ slot ∈ func.params, slot.name = name) : found.kind = .param := by
  obtain ⟨leads, shows⟩ := local?_eq_some_iff.1 finds
  obtain ⟨slot, member, same⟩ := param
  obtain ⟨position, stored⟩ := List.mem_iff_getElem?.1 member
  obtain ⟨inside, -⟩ := List.getElem?_eq_some_iff.1 stored
  have occurs : position ∈ func.positionsOf name :=
    ⟨slot, (List.getElem?_append_left inside).trans stored, same⟩
  have first := (position?_named_iff_isLeast.1 leads).2 occurs
  exact shows.kind_iff.2 (Nat.lt_of_le_of_lt first inside)

/-- **A var stands for the first slot that it fits.**  In every function, whether or not its slots
have different names: the unset var finds nothing; an index finds the slot before it, counted
from 0, if there is one, so the indices from 1 to the number of slots find something and no
others do; a name finds the slot at the least position of that name, if any slot has it, and a
param if a param has it.  What is found is the slot at its position, with its name and type, and
it is a param exactly if the position is among the params.  In the list of its kind it is the slot
at what is left of the position there, and the index behind its position finds it again. -/
theorem local_is_first (func : Func) :
    func.local? .unset = none ∧
    (∀ (number : UInt32) found, func.local? (.index number) = some found ↔
      number.toNat = found.position + 1 ∧ func.Shows found) ∧
    (∀ number : UInt32, (func.local? (.index number)).isSome ↔
      1 ≤ number.toNat ∧ number.toNat ≤ func.slots.length) ∧
    (∀ name found, func.local? (.named name) = some found ↔
      IsLeast (func.positionsOf name) found.position ∧ func.Shows found) ∧
    (∀ name, (func.local? (.named name)).isSome ↔ ∃ slot ∈ func.slots, slot.name = name) ∧
    (∀ name found, func.local? (.named name) = some found →
      (∃ slot ∈ func.params, slot.name = name) → found.kind = .param) ∧
    ∀ var found, func.local? var = some found →
      (found.kind = .param ∧ func.params[found.position]? = some ⟨found.name, found.type⟩ ∨
        found.kind = .declared ∧ func.params.length ≤ found.position ∧
          func.locals[found.position - func.params.length]? = some ⟨found.name, found.type⟩) ∧
      ∀ number : UInt32, number.toNat = found.position + 1 →
        func.local? (.index number) = some found := by
  refine ⟨local?_of_no_position rfl, ?_, fun number => isSome_local?_index_iff, ?_,
    fun name => isSome_local?_named_iff, fun name found => kind_of_param_named, ?_⟩
  · intro number found
    rw [local?_eq_some_iff, position?_index_iff]
  · intro name found
    rw [local?_eq_some_iff, position?_named_iff_isLeast]
  · intro var found finds
    obtain ⟨-, shows⟩ := local?_eq_some_iff.1 finds
    refine ⟨shows.declared_at, fun number counted => ?_⟩
    exact local?_eq_some_iff.2 ⟨position?_index_iff.2 counted, shows⟩

/-- Two params and a local of one name: the name finds the first of them, the third is found by its
index only, and the index behind the last slot finds nothing. -/
theorem local_is_first_of_repeated_names :
    let func : Func := ⟨⟨0⟩, .void, [⟨⟨1⟩, .i32⟩, ⟨⟨1⟩, .f32⟩], [⟨⟨1⟩, .i64⟩], none⟩
    let first : Local := ⟨.param, 0, ⟨1⟩, .i32⟩
    func.local? (.named ⟨1⟩) = some first ∧
    func.local? (.index 1) = some first ∧
    func.local? (.index 3) = some ⟨.declared, 2, ⟨1⟩, .i64⟩ ∧
    ¬(func.local? (.index 4)).isSome := by
  intro func first
  obtain ⟨-, indexed, inside, named, -, -, again⟩ := local_is_first func
  have least : IsLeast (func.positionsOf ⟨1⟩) 0 := ⟨⟨_, rfl, rfl⟩, fun _ _ => Nat.zero_le _⟩
  have shows : func.Shows first := ⟨rfl, by decide⟩
  have finds : func.local? (.named ⟨1⟩) = some first := (named ⟨1⟩ first).2 ⟨least, shows⟩
  refine ⟨finds, (again _ first finds).2 1 rfl, (indexed 3 _).2 ⟨rfl, ⟨rfl, by decide⟩⟩, ?_⟩
  rw [inside]
  decide

end Func

end TreeIR
