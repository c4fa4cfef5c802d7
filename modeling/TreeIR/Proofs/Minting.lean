/-
# TreeIR.Proofs.Minting -- minted indices are the least that are left

The counter is the whole memory of minting.  `Counted` ties it to the history: every
positive index below it was minted or is bound, and everything minted lies below it.  So
the search that starts at the counter finds the least index that was neither minted nor
is bound (`Counted.isLeast`), whoever bound what in between.  Calls keep `Counted`
(`Counted.step`), a call that is stuck included, since it passes bound indices only.

The search can fail only if all indices from the limit on are bound, because those below
the counter were never minted.  There are `2 ^ 32 - 1000000` of them, so fewer bound
indices leave one free (`exists_unbound_of_few`).  Once the counter has reached the limit
it stays there (`spent_step`), and nothing is minted any more.
-/
import TreeIR.Proofs.Bindings

namespace TreeIR

set_option autoImplicit false

/-! ## What a run mints -/

/-- The index a call minted, if it minted one. -/
def Call.minted? (call : Call) : Option UInt32 :=
  match call.request, call.outcome with
  | .freshVar, .ok (.var var) => var.index?
  | _, _ => none

theorem Call.minted?_of_ne {call : Call} (other : call.request ≠ .freshVar) :
    call.minted? = none := by
  unfold Call.minted?
  split
  · rename_i mints _
    exact absurd mints other
  · rfl

namespace Request

/-- The indices a run minted, in order. -/
def minted (requests : List Request) (program : Program) : List UInt32 :=
  (history requests program).filterMap Call.minted?

theorem minted_cons (request : Request) (rest : List Request) (program : Program) :
    minted (request :: rest) program =
      (Call.make request program).minted?.toList ++ minted rest (request.step program).2 := by
  rw [minted, history, List.filterMap_cons]
  cases (Call.make request program).minted? <;> rfl

end Request

namespace Program

/-- The indices that are bound, in ascending order. -/
def boundIndices (program : Program) : List UInt32 :=
  program.bindings.keys.filterMap Var.index?

theorem mem_boundIndices {program : Program} {index : UInt32} :
    index ∈ program.boundIndices ↔ Var.index index ∈ program.bindings := by
  rw [boundIndices, List.mem_filterMap]
  constructor
  · rintro ⟨var, member, named⟩
    cases var with
    | index number =>
      cases named
      exact Std.ExtTreeMap.mem_keys.1 member
    | unset => cases named
    | named name => cases named
  · intro bound
    exact ⟨.index index, Std.ExtTreeMap.mem_keys.2 bound, rfl⟩

/-- Fewer bound indices than there are from the limit on leave one of those free. -/
theorem exists_unbound_of_few {program : Program}
    (few : program.boundIndices.length < 2 ^ 32 - 1000000) :
    ∃ index, Var.indexLimit ≤ index ∧ Var.index index ∉ program.bindings := by
  by_contra none
  push Not at none
  have covered : Finset.Ico 1000000 (2 ^ 32) ⊆
      (program.boundIndices.map UInt32.toNat).toFinset := by
    intro number inside
    obtain ⟨lower, upper⟩ := Finset.mem_Ico.1 inside
    have value : number.toUInt32.toNat = number := UInt32.toNat_ofNat_of_lt' upper
    have limit : Var.indexLimit ≤ number.toUInt32 := by
      rw [UInt32.le_iff_toNat_le, value]
      exact lower
    rw [List.mem_toFinset, List.mem_map]
    exact ⟨number.toUInt32, mem_boundIndices.2 (none _ limit), value⟩
  have count := (Finset.card_le_card covered).trans (List.toFinset_card_le _)
  rw [Nat.card_Ico, List.length_map] at count
  omega

/-! ## The counter and the history -/

/-- What the counter remembers of the indices minted so far. -/
structure Counted (minted : List UInt32) (program : Program) : Prop where
  positive : 0 < program.nextIndex
  covered : ∀ index, 0 < index → index < program.nextIndex →
    index ∈ minted ∨ Var.index index ∈ program.bindings
  below : ∀ index ∈ minted, 0 < index ∧ index < program.nextIndex ∧ index < Var.indexLimit
  increasing : minted.Pairwise (· < ·)

theorem Created.counted {program : Program} (created : program.Created) : Counted [] program := by
  obtain ⟨chunkSize, rfl⟩ := created.eq_ofArena
  have first : (ofArena (.ofChunkSize chunkSize)).nextIndex = 1 := rfl
  refine ⟨by rw [first]; decide, ?_, by simp, .nil⟩
  intro index positive below
  rw [first] at below
  rw [UInt32.lt_iff_toNat_lt] at positive below
  exact absurd below (Nat.not_lt.2 positive)

/-- Only minting moves the counter. -/
theorem nextIndex_step {request : Request} (other : request ≠ .freshVar) (program : Program) :
    (request.step program).2.nextIndex = program.nextIndex := by
  cases request.outcome program with
  | failed step => rw [step]
  | stuck mints why step => exact absurd mints other
  | succeeded effect step =>
    rw [step]
    cases effect with
    | minted first inRange => exact absurd rfl other
    | _ => rfl

/-- What is bound stays bound. -/
theorem mem_bindings_step {request : Request} {program : Program} {var : Var}
    (bound : var ∈ program.bindings) : var ∈ (request.step program).2.bindings := by
  rw [Std.ExtTreeMap.mem_iff_isSome_getElem?] at bound ⊢
  obtain ⟨entity, found⟩ := Option.isSome_iff_exists.1 bound
  rw [(grown_step request program).getElem?_of_some found]
  rfl

/-- What minting comes to is decided by where the search stops. -/
theorem step_freshVar_of_first {program : Program} {number : UInt32}
    (first : firstUnbound? program.bindings program.nextIndex = some number) :
    Request.freshVar.step program =
      if 0 < number ∧ number < Var.indexLimit then
        (.ok (.var (.index number)), { program with nextIndex := number + 1 })
      else (.error (.fault (.indexOutOfRange number)), { program with nextIndex := number }) := by
  obtain ⟨none, -⟩ | ⟨other, found, refused, stops⟩ | ⟨other, found, inRange, goes⟩ :=
    program.freshVar_cases
  · cases none.symm.trans first
  · cases found.symm.trans first
    rw [if_neg refused]
    exact Request.step_of_error rfl stops
  · cases found.symm.trans first
    rw [if_pos inRange]
    exact Request.step_of_ok rfl goes

theorem first_of_minted {program : Program} {number : UInt32}
    (came : (Request.freshVar.step program).1 = .ok (.var (.index number))) :
    firstUnbound? program.bindings program.nextIndex = some number := by
  cases Request.outcome .freshVar program with
  | failed step => rw [step] at came; cases came
  | stuck _ why step => rw [step] at came; cases came
  | succeeded effect step =>
    rw [step] at came
    cases effect with
    | asked question => cases question
    | minted first inRange => cases came; exact first

namespace Counted

variable {minted : List UInt32} {program next : Program}

/-- Passing bound indices does not disturb the count. -/
theorem pass (counted : Counted minted program) {counter : UInt32}
    (reached : program.nextIndex ≤ counter)
    (passed : ∀ index, program.nextIndex ≤ index → index < counter →
      Var.index index ∈ program.bindings) :
    Counted minted { program with nextIndex := counter } where
  positive := UInt32.lt_of_lt_of_le counted.positive reached
  covered index positive below := by
    by_cases old : index < program.nextIndex
    · exact counted.covered index positive old
    · exact .inr (passed index (UInt32.not_lt.1 old) below)
  below index member := by
    obtain ⟨positive, old, limit⟩ := counted.below index member
    exact ⟨positive, UInt32.lt_of_lt_of_le old reached, limit⟩
  increasing := counted.increasing

/-- Minting adds the index the search has found. -/
theorem mint (counted : Counted minted program) {number : UInt32}
    (first : firstUnbound? program.bindings program.nextIndex = some number)
    (inRange : 0 < number ∧ number < Var.indexLimit) :
    Counted (minted ++ [number]) { program with nextIndex := number + 1 } := by
  obtain ⟨reached, -, passed⟩ := firstUnbound?_eq_some first
  have through := counted.pass reached passed
  have inside {index : UInt32} : index < number + 1 ↔ index ≤ number :=
    lt_succ_iff_of_lt inRange.2
  refine ⟨?_, ?_, ?_, ?_⟩
  · exact inside.2 (UInt32.le_of_lt inRange.1)
  · intro index positive below
    rcases UInt32.lt_or_eq_of_le (inside.1 below) with old | rfl
    · exact (through.covered index positive old).imp (List.mem_append_left _) id
    · exact .inl (List.mem_append_right _ (.head _))
  · intro index member
    rcases List.mem_append.1 member with old | new
    · obtain ⟨positive, before, limit⟩ := through.below index old
      exact ⟨positive, inside.2 (UInt32.le_of_lt before), limit⟩
    · cases List.mem_singleton.1 new
      exact ⟨inRange.1, inside.2 (UInt32.le_refl _), inRange.2⟩
  · rw [List.pairwise_append]
    refine ⟨counted.increasing, List.pairwise_singleton _ _, ?_⟩
    intro index old other new
    cases List.mem_singleton.1 new
    exact (through.below index old).2.1

/-- Calls keep the count, with what they mint added at the end. -/
theorem step (counted : Counted minted program) (request : Request) :
    Counted (minted ++ (Call.make request program).minted?.toList) (request.step program).2 := by
  by_cases mints : request = .freshVar
  · subst mints
    cases Request.outcome .freshVar program with
    | failed step =>
      rw [Call.make, step]
      simpa [Call.minted?] using counted
    | stuck _ why step =>
      rw [Call.make, step]
      simpa [Call.minted?] using counted.pass why.le fun index => why.passed
    | succeeded effect step =>
      rw [Call.make, step]
      cases effect with
      | asked question => cases question
      | minted first inRange => exact counted.mint first inRange
  · have nothing : (Call.make request program).minted? = none := Call.minted?_of_ne mints
    have counter := nextIndex_step mints program
    rw [nothing, Option.toList_none, List.append_nil]
    refine ⟨?_, ?_, ?_, counted.increasing⟩
    · rw [counter]
      exact counted.positive
    · intro index positive below
      rw [counter] at below
      exact (counted.covered index positive below).imp id mem_bindings_step
    · rw [counter]
      exact counted.below

theorem after (counted : Counted minted program) (requests : List Request) :
    Counted (minted ++ Request.minted requests program) (program.after requests) := by
  induction requests generalizing minted program with
  | nil => simpa [Request.minted, Request.history] using counted
  | cons request rest ih =>
    rw [Request.minted_cons, ← List.append_assoc]
    exact ih (counted.step request)

/-- What the search finds is the least index that was not minted and is not bound. -/
theorem isLeast (counted : Counted minted program) {number : UInt32}
    (first : firstUnbound? program.bindings program.nextIndex = some number) :
    IsLeast {index | 0 < index ∧ index ∉ minted ∧ Var.index index ∉ program.bindings} number := by
  obtain ⟨reached, free, passed⟩ := firstUnbound?_eq_some first
  constructor
  · refine ⟨UInt32.lt_of_lt_of_le counted.positive reached, fun old => ?_, free⟩
    have before := (counted.below number old).2.1
    exact UInt32.not_lt.2 reached before
  · rintro index ⟨positive, new, unbound⟩
    by_contra below
    by_cases old : index < program.nextIndex
    · exact (counted.covered index positive old).elim new unbound
    · exact unbound (passed index (UInt32.not_lt.1 old) (UInt32.not_le.1 below))

/-- While few indices are bound the search finds one. -/
theorem exists_first (counted : Counted minted program)
    (few : program.boundIndices.length < 2 ^ 32 - 1000000) :
    ∃ number, firstUnbound? program.bindings program.nextIndex = some number := by
  cases found : firstUnbound? program.bindings program.nextIndex with
  | some number => exact ⟨number, rfl⟩
  | none =>
    -- A free index from the limit on is not below the counter: it was never minted.
    obtain ⟨index, limit, free⟩ := exists_unbound_of_few few
    have positive : 0 < index := UInt32.lt_of_lt_of_le (by decide) limit
    by_cases old : index < program.nextIndex
    · rcases counted.covered index positive old with minted | bound
      · exact absurd (counted.below index minted).2.2 (UInt32.not_lt.2 limit)
      · exact absurd bound free
    · exact absurd (firstUnbound?_eq_none found index (UInt32.not_lt.1 old)) free

end Counted

/-! ## The end of minting -/

section Spent

variable {program : Program}

/-- Whatever the search finds from there on is out of range. -/
theorem limit_le_of_first (spent : Var.indexLimit ≤ program.nextIndex) {number : UInt32}
    (first : firstUnbound? program.bindings program.nextIndex = some number) :
    Var.indexLimit ≤ number :=
  UInt32.le_trans spent (firstUnbound?_eq_some first).1

/-- A counter that has reached the limit stays beyond it. -/
theorem spent_step (spent : Var.indexLimit ≤ program.nextIndex) (request : Request) :
    Var.indexLimit ≤ (request.step program).2.nextIndex := by
  by_cases mints : request = .freshVar
  · subst mints
    cases Request.outcome .freshVar program with
    | failed step =>
      rw [step]
      exact spent
    | stuck _ why step =>
      rw [step]
      exact UInt32.le_trans spent why.le
    | succeeded effect step =>
      cases effect with
      | asked question => cases question
      | minted first inRange =>
        exact absurd inRange.2 (UInt32.not_lt.2 (limit_le_of_first spent first))
  · rw [nextIndex_step mints]
    exact spent

theorem spent_after (spent : Var.indexLimit ≤ program.nextIndex) (requests : List Request) :
    Var.indexLimit ≤ (program.after requests).nextIndex := by
  induction requests generalizing program with
  | nil => exact spent
  | cons request rest ih => exact ih (spent_step spent request)

theorem freshVar_of_spent (spent : Var.indexLimit ≤ program.nextIndex) :
    ∃ failure, (Request.freshVar.step program).1 = .error failure := by
  cases Request.outcome .freshVar program with
  | failed step => exact ⟨_, congrArg Prod.fst step⟩
  | stuck _ why step => exact ⟨_, congrArg Prod.fst step⟩
  | succeeded effect step =>
    cases effect with
    | asked question => cases question
    | minted first inRange =>
      exact absurd inRange.2 (UInt32.not_lt.2 (limit_le_of_first spent first))

end Spent

/-- **Fresh indices.**  After any run from a created program the indices minted so far are
positive and ascend, and whatever is minted next lies above them and is not bound.  While
few indices are bound the next one is the least that was neither minted nor is bound, if
that is below the limit; the counter then stands right behind it, without overflow.
Otherwise minting fails, now and ever after. -/
theorem freshVar_mints_least {start : Program} (created : start.Created) (earlier : List Request) :
    let program := start.after earlier
    let minted := Request.minted earlier start
    let call := Request.freshVar.step program
    minted.Pairwise (· < ·) ∧ (∀ index ∈ minted, 0 < index) ∧
    (∀ index, call.1 = .ok (.var (.index index)) →
      Var.index index ∉ program.bindings ∧ ∀ old ∈ minted, old < index) ∧
    (program.boundIndices.length < 2 ^ 32 - 1000000 →
      ∃ least,
        IsLeast {index | 0 < index ∧ index ∉ minted ∧ Var.index index ∉ program.bindings} least ∧
        (least < 1000000 → call.1 = .ok (.var (.index least)) ∧
          call.2.nextIndex.toNat = least.toNat + 1) ∧
        (1000000 ≤ least → call.1 = .error (.fault (.indexOutOfRange least)) ∧
          ∀ later, ∃ failure,
            (Request.freshVar.step (start.after (earlier ++ .freshVar :: later))).1 =
              .error failure)) := by
  intro program minted call
  have counted : Counted minted program := created.counted.after earlier
  refine ⟨counted.increasing, fun index old => (counted.below index old).1, ?_, ?_⟩
  · intro index came
    have first := first_of_minted came
    obtain ⟨reached, free, -⟩ := firstUnbound?_eq_some first
    exact ⟨free, fun old member =>
      UInt32.lt_of_lt_of_le (counted.below old member).2.1 reached⟩
  · intro few
    obtain ⟨least, first⟩ := counted.exists_first few
    have isLeast := counted.isLeast first
    have step := step_freshVar_of_first first
    refine ⟨least, isLeast, fun below => ?_, fun beyond => ?_⟩
    · have minted : call = (.ok (.var (.index least)), { program with nextIndex := least + 1 }) :=
        step.trans (if_pos ⟨isLeast.1.1, below⟩)
      rw [minted]
      exact ⟨rfl, toNat_succ_of_lt below⟩
    · have refused : call = (.error (.fault (.indexOutOfRange least)),
          { program with nextIndex := least }) :=
        step.trans (if_neg fun inRange => UInt32.not_lt.2 beyond inRange.2)
      refine ⟨congrArg Prod.fst refused, fun later => ?_⟩
      apply freshVar_of_spent
      rw [after_append, after_cons]
      apply spent_after
      show Var.indexLimit ≤ call.2.nextIndex
      rw [refused]
      exact beyond

/-- Indices bound beforehand are passed over, one that minting will never reach and the
refused 0 among them. -/
theorem freshVar_mints_least_of_gaps :
    let earlier : List Request :=
      [.freshVar, .bind (.index 2) (.function 0), .bind (.index 4294967295) (.function 0),
        .bind (.index 0) (.function 0), .freshVar, .bind (.index 4) (.function 0)]
    let program := empty.after earlier
    empty.Created ∧ program.boundIndices.length < 2 ^ 32 - 1000000 ∧
    IsLeast {index | 0 < index ∧ index ∉ Request.minted earlier empty ∧
      Var.index index ∉ program.bindings} 5 ∧
    (Request.freshVar.step program).1 = .ok (.var (.index 5)) := by
  intro earlier program
  have created : empty.Created := .inl rfl
  have few : program.boundIndices.length < 2 ^ 32 - 1000000 := by decide +kernel
  have candidate : 0 < (5 : UInt32) ∧ 5 ∉ Request.minted earlier empty ∧
      Var.index 5 ∉ program.bindings := by decide +kernel
  obtain ⟨-, -, -, mints⟩ := freshVar_mints_least created earlier
  obtain ⟨least, isLeast, below, -⟩ := mints few
  have upper : least ≤ 5 := isLeast.2 candidate
  have small : least < 1000000 := UInt32.lt_of_le_of_lt upper (by decide)
  have came : (Request.freshVar.step program).1 = .ok (.var (.index 5)) := by decide +kernel
  have same : least = 5 := by
    have answers := (below small).1.symm.trans came
    simpa using answers
  exact ⟨created, few, same ▸ isLeast, came⟩

end Program

end TreeIR
